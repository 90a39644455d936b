import FabricCommon.GateCompile

namespace FabricCommon

/-- Every key of the index map names the clause whose principal stands at its index. -/
def ParseState.Indexed (st : ParseState) : Prop :=
  ∀ key index, st.identitiesIndexMap.lookup key = some index →
    ∃ m r, key = identityKey m r ∧
      st.identities[index]? = some (buildMSPPrincipal (MSPRoleTypeInverse r) m)

theorem identityKey_inj {m m' : Text} {r r' : Role} (h : identityKey m r = identityKey m' r') :
    m = m' ∧ r = r' := by
  obtain ⟨hm, hr⟩ := append_cons_cut r.dot_notMem r'.dot_notMem h
  exact ⟨hm, Role.text_inj hr⟩

theorem parseRoleClause_spec {st : ParseState} (indexed : st.Indexed) (m : Text) (r : Role) :
    (parseRoleClause m r st).2.Indexed ∧
      st.identities <+: (parseRoleClause m r st).2.identities ∧
      Realises (parseRoleClause m r st).2.identities (.role m r) (parseRoleClause m r st).1 := by
  cases hl : st.identitiesIndexMap.lookup (identityKey m r) with
  | some index =>
    obtain ⟨m', r', hk, hi⟩ := indexed _ _ hl
    obtain ⟨rfl, rfl⟩ := identityKey_inj hk
    simp only [parseRoleClause, hl]
    exact ⟨indexed, List.prefix_rfl, by simpa [buildSignaturePolicy, Realises] using hi⟩
  | none =>
    simp only [parseRoleClause, hl]
    refine ⟨?_, List.prefix_append _ _, by simp [buildSignaturePolicy, Realises]⟩
    intro key index hlook
    rw [List.lookup_cons] at hlook
    split at hlook
    next heq =>
      cases Option.some.inj hlook
      exact ⟨m, r, beq_iff_eq.mp heq, by simp⟩
    next =>
      obtain ⟨m', r', hk, hi⟩ := indexed key index hlook
      exact ⟨m', r', hk, ListRules.getElem?_of_prefix (List.prefix_append _ _) hi⟩

theorem realisesAll_iff_forall₂ {ids : List MSPPrincipal} {es : List GateExpr}
    {rules : List SignaturePolicy} :
    RealisesAll ids es rules ↔ List.Forall₂ (Realises ids) es rules := by
  induction es generalizing rules with
  | nil => cases rules <;> simp [RealisesAll, List.forall₂_nil_left_iff]
  | cons e es ih => cases rules <;> simp [RealisesAll, List.forall₂_nil_right_iff, ih]

theorem realises_gate {ids : List MSPPrincipal} {g : Gate} {items : List GateExpr}
    {rule : SignaturePolicy} : Realises ids (.gate g items) rule ↔
      ∃ rules, rule = .n_out_of (thresholdOf g items.length) rules ∧
        List.Forall₂ (Realises ids) items rules := by
  cases rule <;> simp [Realises, realisesAll_iff_forall₂]

theorem realises_role {ids : List MSPPrincipal} {m : Text} {r : Role} {rule : SignaturePolicy} :
    Realises ids (.role m r) rule ↔
      ∃ index, rule = .signed_by index ∧
        ids[index]? = some (buildMSPPrincipal (MSPRoleTypeInverse r) m) := by
  cases rule <;> simp [Realises]

theorem Realises.mono {ids ids' : List MSPPrincipal} (grow : ids <+: ids') {e : GateExpr} :
    ∀ {rule : SignaturePolicy}, Realises ids e rule → Realises ids' e rule := by
  induction e using GateExpr.induction with
  | role m r =>
    intro rule h
    obtain ⟨index, rfl, hi⟩ := realises_role.mp h
    exact realises_role.mpr ⟨index, rfl, ListRules.getElem?_of_prefix grow hi⟩
  | gate g items ih =>
    intro rule h
    obtain ⟨rules, rfl, hall⟩ := realises_gate.mp h
    refine realises_gate.mpr ⟨rules, rfl, ?_⟩
    exact ListRules.forall₂_imp_mem hall fun e he _ => ih e he

/-- Compiling keeps the table indexed, only appends to the identities, and gives a rule of the
expression's own shape. -/
theorem compile_spec (e : GateExpr) : ∀ st : ParseState, st.Indexed →
    (compile e st).2.Indexed ∧ st.identities <+: (compile e st).2.identities ∧
      Realises (compile e st).2.identities e (compile e st).1 := by
  induction e using GateExpr.induction with
  | role m r =>
    intro st indexed
    simpa only [compile] using parseRoleClause_spec indexed m r
  | gate g items ih =>
    have all : ∀ st : ParseState, st.Indexed → (compileItems items st).2.Indexed ∧
        st.identities <+: (compileItems items st).2.identities ∧
        List.Forall₂ (Realises (compileItems items st).2.identities) items
          (compileItems items st).1 := by
      clear g
      induction items with
      | nil => exact fun st indexed => ⟨indexed, List.prefix_rfl, .nil⟩
      | cons e es ihes =>
        intro st indexed
        obtain ⟨i1, p1, r1⟩ := ih e List.mem_cons_self st indexed
        obtain ⟨i2, p2, r2⟩ := ihes (fun e' he' => ih e' (List.mem_cons_of_mem e he')) _ i1
        simp only [compileItems]
        exact ⟨i2, p1.trans p2, .cons (r1.mono p2) r2⟩
    intro st indexed
    obtain ⟨i, p, r⟩ := all st indexed
    simp only [compile]
    exact ⟨i, p, realises_gate.mpr ⟨_, rfl, r⟩⟩

theorem envelopeOf_realises (e : GateExpr) :
    Realises (envelopeOf e).identities e (envelopeOf e).rule :=
  (compile_spec e ⟨[], []⟩ (fun _ _ h => by simp at h)).2.2

theorem trees_eq_map (rules : List SignaturePolicy) :
    SignaturePolicy.trees rules = rules.map SignaturePolicy.tree := by
  induction rules with
  | nil => simp [SignaturePolicy.trees]
  | cons rule rules ih => simp [SignaturePolicy.trees, ih]

theorem allSatisfied_iff {S : Set MSPPrincipal} {es : List GateExpr} :
    GateExpr.AllSatisfied S es ↔ ∀ e ∈ es, e.Satisfied S := by
  induction es with
  | nil => simp [GateExpr.AllSatisfied]
  | cons e es ih => simp [GateExpr.AllSatisfied, ih]

theorem anySatisfied_iff {S : Set MSPPrincipal} {es : List GateExpr} :
    GateExpr.AnySatisfied S es ↔ ∃ e ∈ es, e.Satisfied S := by
  induction es with
  | nil => simp [GateExpr.AnySatisfied]
  | cons e es ih => simp [GateExpr.AnySatisfied, ih]

/-- A rule of the shape of `e` is satisfied by the principals that satisfy `e`. -/
theorem Realises.sat_iff {ids : List MSPPrincipal} {S : Set MSPPrincipal} {e : GateExpr} :
    ∀ {rule : SignaturePolicy}, Realises ids e rule →
      (rule.tree.Sat {index | ∃ principal ∈ S, ids[index]? = some principal} ↔ e.Satisfied S) := by
  induction e using GateExpr.induction with
  | role m r =>
    intro rule h
    obtain ⟨index, rfl, hi⟩ := realises_role.mp h
    simp [SignaturePolicy.tree, GateExpr.Satisfied, hi]
  | gate g items ih =>
    intro rule h
    obtain ⟨rules, rfl, hall⟩ := realises_gate.mp h
    have same := ListRules.forall₂_imp_mem hall fun e he _ => ih e he
    have len : items.length = rules.length := hall.length_eq
    simp only [SignaturePolicy.tree, trees_eq_map]
    cases g with
    | AND =>
      have thresh : thresholdOf .AND items.length = (rules.map SignaturePolicy.tree).length := by
        simp [thresholdOf, len]
      rw [thresh, ThresholdTree.sat_atLeast_length, List.forall_mem_map, GateExpr.Satisfied,
        allSatisfied_iff]
      exact ListRules.forall_mem_iff_of_forall₂ same.flip
    | OR =>
      simp only [thresholdOf, ThresholdTree.sat_atLeast_one, List.mem_map,
        exists_exists_and_eq_and, GateExpr.Satisfied, anySatisfied_iff]
      exact ListRules.exists_mem_iff_of_forall₂ same.flip

end FabricCommon
