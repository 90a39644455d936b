import FabricCommon.GateRendering

namespace FabricCommon

open GateExpr

theorem Renders.ne_nil {p : Phrase} {t : Text} (h : Renders p t) : t ≠ [] := by
  induction h with
  | role r _ => simp [roleClause]
  | gate g _ _ => simp [gateClause]
  | single _ _ _ ih => simp [ih]
  | cons _ _ _ _ _ _ => simp

theorem renders_gate {g : Gate} {es : List GateExpr} {t : Text}
    (h : Renders (.clause (.gate g es)) t) :
    ∃ body, t = gateClause g body ∧ Renders (.items es) body := by
  cases h with
  | gate _ hs => exact ⟨_, rfl, hs⟩

theorem readClause_gateClause {g : Gate} {b : Text} {e : GateExpr}
    (h : readClause (gateClause g b) = some e) : e = readBody g b ∧ GateBody b := by
  rcases readClause_eq_some.mp h with ⟨g', b', eq, hb, rfl⟩ | ⟨m, r, eq, _, _⟩
  · obtain ⟨rfl, rfl⟩ := gateClause_inj eq
    exact ⟨rfl, hb⟩
  · have matched := matchRoleClause_gateClause g b
    rw [eq, matchRoleClause_eq_some.mpr ⟨rfl, ‹_›⟩] at matched
    cases matched

/-- The patterns are matched against the untrimmed items, so a rule for every item leaves no room
for whitespace. -/
theorem Renders.tight {p : Phrase} {t : Text} (h : Renders p t) :
    match p with
    | .clause e => e.SingleFile → ∀ e', readClause t = some e' → SameShape e e' → NoSpace t
    | .items es => (∀ e ∈ es, e.SingleFile) →
        List.Forall₂ SameShape es ((t.splitOn ',').filterMap readClause) → NoSpace t := by
  induction h with
  | role r hm => exact fun _ _ _ _ => noSpace_roleClause hm r
  | @gate es body g hs ih =>
    intro single e' hread same
    obtain ⟨rfl, _⟩ := readClause_gateClause hread
    rw [readBody_eq] at same
    cases single with
    | gate _ se => exact noSpace_gateClause.mpr (ih (by simpa using se) (sameShape_gate same))
  | @single e left text right hl ht hr ih =>
    intro singles same
    have se := singles e (by simp)
    rw [splitOn_padded_single hl (ht.pieces se) hr] at same
    cases hread : readClause (left ++ text ++ right) with
    | none =>
      simp only [List.filterMap_cons, hread, List.filterMap_nil] at same
      cases same
    | some e' =>
      obtain ⟨rfl, rfl⟩ := readClause_bare hl hr hread
      simp only [List.nil_append, List.append_nil] at hread same ⊢
      simp only [List.filterMap_cons, hread, List.filterMap_nil] at same
      cases same with
      | cons first _ => exact ih se e' hread first
  | @cons e es left text right rest hl ht hr hs ih ihs =>
    intro singles same
    obtain ⟨se, ses⟩ := List.forall_mem_cons.mp singles
    rw [splitOn_padded_cons hl (ht.pieces se) hr] at same
    cases hread : readClause (left ++ text ++ right) with
    | none =>
      have len := same.length_eq
      have few := List.length_filterMap_le readClause (rest.splitOn ',')
      have count := hs.pieces ses
      simp only [List.filterMap_cons, hread, List.length_cons] at len count
      omega
    | some e' =>
      obtain ⟨rfl, rfl⟩ := readClause_bare hl hr hread
      simp only [List.nil_append, List.append_nil] at hread same ⊢
      simp only [List.filterMap_cons, hread] at same
      cases same with
      | cons first others =>
        have comma : NoSpace [','] := by decide
        have split : text ++ ',' :: rest = text ++ [','] ++ rest := by simp
        rw [split, noSpace_append, noSpace_append]
        exact ⟨⟨ih se e' hread first, comma⟩, ihs ses others⟩

/-- A tight rendering without dashes is read back as it was written. -/
theorem Renders.read_back {p : Phrase} {t : Text} (h : Renders p t) (dash : '-' ∉ t)
    (tight : NoSpace t) :
    match p with
    | .clause e => e.SingleFile → readClause t = some e
    | .items es => (∀ e ∈ es, e.SingleFile) → (t.splitOn ',').filterMap readClause = es := by
  induction h with
  | @role m r hm => exact fun _ => readClause_eq_some.mpr (Or.inr ⟨m, r, rfl, hm, rfl⟩)
  | @gate es body g hs ih =>
    intro single
    have inner : '-' ∉ body := fun hd => dash (by simp [gateClause, hd])
    have chars : GateBody body := ⟨hs.ne_nil, hs.gateChars inner⟩
    cases single with
    | gate _ se =>
      refine readClause_eq_some.mpr (Or.inl ⟨g, body, rfl, chars, ?_⟩)
      rw [readBody_eq, ih inner (noSpace_gateClause.mp tight) (by simpa using se)]
  | @single e left text right hl ht hr ih =>
    intro singles
    have se := singles e (by simp)
    obtain ⟨rfl, tight', rfl⟩ := (noSpace_padded hl hr).mp tight
    rw [splitOn_padded_single hl (ht.pieces se) hr]
    simp only [List.nil_append, List.append_nil] at dash ⊢
    simp [ih dash tight' se]
  | @cons e es left text right rest hl ht hr hs ih ihs =>
    intro singles
    obtain ⟨se, ses⟩ := List.forall_mem_cons.mp singles
    obtain ⟨outer, inner⟩ := noSpace_append.mp tight
    obtain ⟨rfl, tight', rfl⟩ := (noSpace_padded hl hr).mp outer
    simp only [List.nil_append, List.append_nil, List.mem_append, List.mem_cons, not_or]
      at dash
    rw [splitOn_padded_cons hl (ht.pieces se) hr]
    simp [ih dash.1 tight' se, ihs dash.2.2 (fun c hc => inner c (by simp [hc])) ses]

/-- What compiling `text` correctly means: an envelope of exactly the shape of `e`, satisfied by
the same signing principals. -/
def CompilesTo (text : Text) (e : GateExpr) : Prop :=
  ∃ env, FromString text = .ok env ∧ Realises env.identities e env.rule ∧
    ∀ S, env.Satisfied S ↔ e.Satisfied S

/-- No whitespace and no dash anywhere in the text. -/
def PlainText (text : Text) : Prop := ∀ c ∈ text, jsSpace c = false ∧ c ≠ '-'

instance (text : Text) : Decidable (PlainText text) :=
  decidable_of_iff (text.all (fun c => !jsSpace c && c != '-') = true) (by simp [PlainText])

theorem dash_notMem_gateClause {g : Gate} {b : Text} (h : GateBody b) : '-' ∉ gateClause g b := by
  intro hd
  have inner : '-' ∉ b := fun hb => absurd (h.2 '-' hb) (by decide)
  cases g <;> simp [gateClause, Gate.text, inner] at hd

theorem FromString_compiles_iff {e : GateExpr} {text : Text} (h : Renders (.clause e) text) :
    CompilesTo text e ↔
      PlainText text ∧ ∃ g items, e = .gate g items ∧ ∀ item ∈ items, item.SingleFile := by
  constructor
  · intro compiles
    obtain ⟨env, hok, real, _⟩ := compiles
    obtain ⟨g, body, eq, hb, rfl⟩ := FromString_eq_ok.mp hok
    have same : SameShape e (readBody g body) := ⟨_, _, real, envelopeOf_realises _⟩
    cases e with
    | role m r =>
      rw [readBody_eq] at same
      exact absurd same not_sameShape_role_gate
    | gate g' items =>
      obtain ⟨body', eq', hs⟩ := renders_gate h
      obtain ⟨rfl, rfl⟩ := gateClause_inj (eq'.symm.trans eq)
      rw [readBody_eq] at same
      have each := sameShape_gate same
      have single : ∀ item ∈ items, item.SingleFile := by
        intro item hi
        obtain ⟨read, hr, pair⟩ := ListRules.exists_related_of_forall₂ each hi
        obtain ⟨piece, hp, hread⟩ := List.mem_filterMap.mp hr
        have narrow := readClause_narrow (ListRules.notMem_of_mem_splitOn hp) hread
        exact narrow.singleFile (hs.filled.2 item hi) pair
      refine ⟨?_, g', items, rfl, single⟩
      have tight : NoSpace (gateClause g' body') := noSpace_gateClause.mpr (hs.tight single each)
      intro c hc
      refine ⟨tight c (eq ▸ hc), ?_⟩
      rintro rfl
      exact dash_notMem_gateClause hb (eq ▸ hc)
  · intro narrow
    obtain ⟨plain, g, items, rfl, single⟩ := narrow
    obtain ⟨body, rfl, hs⟩ := renders_gate h
    have dash : '-' ∉ body := fun hd => (plain '-' (by simp [gateClause, hd])).2 rfl
    have tight : NoSpace body := noSpace_gateClause.mp fun c hc => (plain c hc).1
    have back : readBody g body = .gate g items := by
      rw [readBody_eq, hs.read_back dash tight single]
    refine ⟨envelopeOf (.gate g items), ?_, envelopeOf_realises _, fun S => ?_⟩
    · rw [← back]
      exact FromString_gateClause ⟨hs.ne_nil, hs.gateChars dash⟩
    · exact (envelopeOf_realises _).sat_iff

theorem FromString_compiles_or_of_roles :
    CompilesTo "OR('A.member','B.peer')".toList
      (.gate .OR [.role ['A'] .member, .role ['B'] .peer]) := by
  have tight : Whitespace [] := by decide
  have first : Renders (.clause (.role ['A'] .member)) (roleClause ['A'] .member) :=
    .role .member (by decide)
  have second : Renders (.clause (.role ['B'] .peer)) (roleClause ['B'] .peer) :=
    .role .peer (by decide)
  have text := Renders.gate .OR (.cons tight first tight (.single tight second tight))
  refine (FromString_compiles_iff text).mpr ⟨by decide, .OR, _, rfl, ?_⟩
  intro item hi
  rcases List.mem_cons.mp hi with rfl | hi
  · exact .role _ _
  · rw [List.mem_singleton.mp hi]
    exact .role _ _

/-- The blank after the comma hides the second clause, so one signature is enough. -/
theorem FromString_drops_padded_clause :
    Renders (.clause (.gate .AND [.role ['A'] .member, .role ['B'] .member]))
        "AND('A.member', 'B.member')".toList ∧
      ¬ CompilesTo "AND('A.member', 'B.member')".toList
        (.gate .AND [.role ['A'] .member, .role ['B'] .member]) := by
  constructor
  · have blank : Whitespace [' '] := by decide
    have tight : Whitespace [] := by decide
    have first : Renders (.clause (.role ['A'] .member)) (roleClause ['A'] .member) :=
      .role .member (by decide)
    have second : Renders (.clause (.role ['B'] .member)) (roleClause ['B'] .member) :=
      .role .member (by decide)
    exact .gate .AND (.cons tight first tight (.single blank second tight))
  · intro h
    obtain ⟨env, hok, real, _⟩ := h
    have run : FromString "AND('A.member', 'B.member')".toList =
        .ok ⟨0, .n_out_of 1 [.signed_by 0], [⟨0, ['A']⟩]⟩ := rfl
    rw [run] at hok
    cases Except.ok.inj hok
    simp [Realises, thresholdOf] at real

end FabricCommon
