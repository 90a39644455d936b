import FabricCommon.GateCorrect

namespace FabricCommon

open GateExpr

mutual
/-- No node of the rule tree asks for zero rules or for more rules than it has. -/
def SignaturePolicy.Sound : SignaturePolicy → Prop
  | .unset => True
  | .signed_by _ => True
  | .n_out_of n rules => n ≠ 0 ∧ n ≤ rules.length ∧ SignaturePolicy.SoundAll rules
def SignaturePolicy.SoundAll : List SignaturePolicy → Prop
  | [] => True
  | rule :: rules => rule.Sound ∧ SignaturePolicy.SoundAll rules
end

theorem soundAll_iff {rules : List SignaturePolicy} :
    SignaturePolicy.SoundAll rules ↔ ∀ rule ∈ rules, rule.Sound := by
  induction rules with
  | nil => simp [SignaturePolicy.SoundAll]
  | cons rule rules ih => simp [SignaturePolicy.SoundAll, ih]

theorem filled_gate {g : Gate} {items : List GateExpr} :
    (GateExpr.gate g items).Filled ↔ items ≠ [] ∧ ∀ e ∈ items, e.Filled := by
  constructor
  · intro h
    cases h with
    | gate _ nonempty all => exact ⟨nonempty, all⟩
  · exact fun h => .gate g h.1 h.2

theorem Realises.sound_iff {ids : List MSPPrincipal} {e : GateExpr} :
    ∀ {rule : SignaturePolicy}, Realises ids e rule → (rule.Sound ↔ e.Filled) := by
  induction e using GateExpr.induction with
  | role m r =>
    intro rule h
    obtain ⟨index, rfl, _⟩ := realises_role.mp h
    exact ⟨fun _ => .role m r, fun _ => by simp [SignaturePolicy.Sound]⟩
  | gate g items ih =>
    intro rule h
    obtain ⟨rules, rfl, hall⟩ := realises_gate.mp h
    have same := ListRules.forall₂_imp_mem hall fun e he _ => ih e he
    have each := ListRules.forall_mem_iff_of_forall₂ same.flip
    have len := hall.length_eq
    have bounds : (thresholdOf g items.length ≠ 0 ∧ thresholdOf g items.length ≤ rules.length) ↔
        items ≠ [] := by
      rw [← List.length_pos_iff, ← len]
      cases g <;> simp only [thresholdOf] <;> omega
    simp only [SignaturePolicy.Sound, soundAll_iff, filled_gate, ← and_assoc, bounds, each]

/-- A text that a pattern matches at every nesting level, down to a role clause. -/
inductive Recognised : Text → Prop where
  | role {m : Text} (r : Role) : MspidText m → Recognised (roleClause m r)
  | gate {body : Text} (g : Gate) : GateBody body → Recognised body →
      Recognised (gateClause g body)

/-- Between the commas of a gate body stands something that is recognised, and whatever looks like
a gate there is. -/
def KeepsItems (body : Text) : Prop :=
  (∃ item ∈ body.splitOn ',', Recognised item) ∧
    ∀ item ∈ body.splitOn ',', ∀ g inner, item = gateClause g inner → GateBody inner →
      Recognised item

theorem recognised_iff {item : Text} (comma : ',' ∉ item) :
    Recognised item ↔ ∃ e, readClause item = some e ∧ e.Filled := by
  induction hn : item.length using Nat.strong_induction_on generalizing item with
  | _ n ih =>
    constructor
    · intro h
      cases h with
      | @role m r hm => exact ⟨_, readClause_eq_some.mpr (Or.inr ⟨m, r, rfl, hm, rfl⟩), .role m r⟩
      | @gate body g hb inner =>
        have comma' : ',' ∉ body := fun hc => comma (by simp [gateClause, hc])
        have shorter : body.length < n := by
          simp only [gateClause, List.length_append, List.length_cons] at hn
          omega
        obtain ⟨e, hread, filled⟩ := (ih _ shorter comma' rfl).mp inner
        refine ⟨_, readClause_eq_some.mpr (Or.inl ⟨g, body, rfl, hb, rfl⟩), ?_⟩
        rw [readBody_of_comma_free comma', hread, filled_gate]
        exact ⟨by simp, by simpa using filled⟩
    · intro h
      obtain ⟨e, hread, filled⟩ := h
      rcases readClause_eq_some.mp hread with ⟨g, body, rfl, hb, rfl⟩ | ⟨m, r, rfl, hm, rfl⟩
      · have comma' : ',' ∉ body := fun hc => comma (by simp [gateClause, hc])
        have shorter : body.length < n := by
          simp only [gateClause, List.length_append, List.length_cons] at hn
          omega
        rw [readBody_of_comma_free comma', filled_gate] at filled
        cases hc : readClause body with
        | none => simp [hc] at filled
        | some e' =>
          have filled' : e'.Filled := filled.2 e' (by simp [hc])
          exact .gate g hb ((ih _ shorter comma' rfl).mpr ⟨e', hc, filled'⟩)
      · exact .role r hm

theorem readBody_filled_iff {g : Gate} {body : Text} :
    (readBody g body).Filled ↔ KeepsItems body := by
  rw [readBody_eq, filled_gate]
  constructor
  · intro h
    obtain ⟨nonempty, all⟩ := h
    have recognised : ∀ item ∈ body.splitOn ',', ∀ e, readClause item = some e →
        Recognised item := by
      intro item hi e hread
      refine (recognised_iff (ListRules.notMem_of_mem_splitOn hi)).mpr ⟨e, hread, all e ?_⟩
      exact List.mem_filterMap.mpr ⟨item, hi, hread⟩
    obtain ⟨e, he⟩ := List.exists_mem_of_ne_nil _ nonempty
    obtain ⟨item, hi, hread⟩ := List.mem_filterMap.mp he
    refine ⟨⟨item, hi, recognised item hi e hread⟩, ?_⟩
    intro item hi g' inner eq hb
    exact recognised item hi _ (readClause_eq_some.mpr (Or.inl ⟨g', inner, eq, hb, rfl⟩))
  · intro h
    obtain ⟨⟨item, hi, hr⟩, gates⟩ := h
    constructor
    · obtain ⟨e, hread, _⟩ := (recognised_iff (ListRules.notMem_of_mem_splitOn hi)).mp hr
      exact List.ne_nil_of_mem (List.mem_filterMap.mpr ⟨item, hi, hread⟩)
    · intro e he
      obtain ⟨item, hi, hread⟩ := List.mem_filterMap.mp he
      rcases readClause_eq_some.mp hread with ⟨g', inner, eq, hb, _⟩ | ⟨m, r, _, _, rfl⟩
      · have recog := gates item hi g' inner eq hb
        obtain ⟨e', hread', filled⟩ :=
          (recognised_iff (ListRules.notMem_of_mem_splitOn hi)).mp recog
        rw [hread] at hread'
        cases hread'
        exact filled
      · exact .role m r

/-- What fail-closed parsing of one text asks for. -/
def FailsClosed (text : Text) : Prop :=
  (¬ Derivable text → ∃ err, FromString text = .error err) ∧
    ∀ env, FromString text = .ok env → env.rule.Sound

theorem FromString_failsClosed_iff (text : Text) :
    FailsClosed text ↔ ∀ g body, text = gateClause g body → GateBody body →
      Derivable text ∧ KeepsItems body := by
  constructor
  · rintro ⟨closed, sound⟩ g body rfl hb
    have run := FromString_gateClause (g := g) hb
    constructor
    · by_contra outside
      obtain ⟨err, thrown⟩ := closed outside
      rw [run] at thrown
      cases thrown
    · exact readBody_filled_iff.mp ((envelopeOf_realises _).sound_iff.mp (sound _ run))
  · intro h
    constructor
    · intro outside
      cases hm : matchGateClause text with
      | none => exact FromString_no_match hm
      | some found =>
        obtain ⟨eq, hb⟩ := matchGateClause_eq_some.mp hm
        exact absurd (h _ _ eq hb).1 outside
    · intro env hok
      obtain ⟨g, body, eq, hb, rfl⟩ := FromString_eq_ok.mp hok
      exact (envelopeOf_realises _).sound_iff.mpr (readBody_filled_iff.mpr (h g body eq hb).2)

theorem Renders.quote_mem {p : Phrase} {t : Text} (h : Renders p t) : '\'' ∈ t := by
  induction h with
  | role r _ => simp [roleClause]
  | gate g _ ih => simp [gateClause, ih]
  | single _ _ _ ih => simp [ih]
  | cons _ _ _ _ ih _ => simp [ih]

/-- A word without quotes is skipped, and the policy left over asks for nothing. -/
theorem FromString_accepts_bare_word :
    ¬ Derivable "AND(A)".toList ∧
      FromString "AND(A)".toList = .ok ⟨0, .n_out_of 0 [], []⟩ ∧
      ¬ FailsClosed "AND(A)".toList := by
  have run : FromString "AND(A)".toList = .ok ⟨0, .n_out_of 0 [], []⟩ := rfl
  refine ⟨?_, run, ?_⟩
  · intro h
    obtain ⟨g, es, h⟩ := h
    exact absurd h.quote_mem (by decide)
  · intro h
    obtain ⟨_, sound⟩ := h
    exact (sound _ run).1 rfl

end FabricCommon
