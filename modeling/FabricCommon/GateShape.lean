import FabricCommon.GateTable

namespace FabricCommon

namespace GateExpr

/-- Each gate has exactly one item. -/
inductive SingleFile : GateExpr → Prop where
  | role (m : Text) (r : Role) : SingleFile (.role m r)
  | gate {e : GateExpr} (g : Gate) : SingleFile e → SingleFile (.gate g [e])

/-- Each gate has at most one item. -/
inductive Narrow : GateExpr → Prop where
  | role (m : Text) (r : Role) : Narrow (.role m r)
  | empty (g : Gate) : Narrow (.gate g [])
  | gate {e : GateExpr} (g : Gate) : Narrow e → Narrow (.gate g [e])

/-- Each gate has an item. -/
inductive Filled : GateExpr → Prop where
  | role (m : Text) (r : Role) : Filled (.role m r)
  | gate {items : List GateExpr} (g : Gate) : items ≠ [] → (∀ e ∈ items, Filled e) →
      Filled (.gate g items)

/-- One rule tree has the shape of both expressions. -/
def SameShape (e e' : GateExpr) : Prop :=
  ∃ ids rule, Realises ids e rule ∧ Realises ids e' rule

end GateExpr

open GateExpr

theorem sameShape_gate {g g' : Gate} {es es' : List GateExpr}
    (h : SameShape (.gate g es) (.gate g' es')) : List.Forall₂ SameShape es es' := by
  obtain ⟨ids, rule, h1, h2⟩ := h
  obtain ⟨rules, rfl, r1⟩ := realises_gate.mp h1
  obtain ⟨rules', eq, r2⟩ := realises_gate.mp h2
  obtain ⟨_, rfl⟩ := SignaturePolicy.n_out_of.inj eq
  exact (ListRules.forall₂_meet r1 r2).imp fun _ _ ⟨rule, p1, p2⟩ => ⟨ids, rule, p1, p2⟩

theorem not_sameShape_role_gate {m : Text} {r : Role} {g : Gate} {es : List GateExpr} :
    ¬ SameShape (.role m r) (.gate g es) := by
  intro h
  obtain ⟨ids, rule, h1, h2⟩ := h
  obtain ⟨index, rfl, _⟩ := realises_role.mp h1
  obtain ⟨rules, eq, _⟩ := realises_gate.mp h2
  cases eq

theorem not_sameShape_gate_role {m : Text} {r : Role} {g : Gate} {es : List GateExpr} :
    ¬ SameShape (.gate g es) (.role m r) := fun ⟨ids, rule, h1, h2⟩ =>
  not_sameShape_role_gate ⟨ids, rule, h2, h1⟩

theorem GateExpr.Narrow.singleFile {e e' : GateExpr} (narrow : e'.Narrow) (filled : e.Filled)
    (same : SameShape e e') : e.SingleFile := by
  induction narrow generalizing e with
  | role m r =>
    cases e with
    | role => exact .role _ _
    | gate => exact absurd same not_sameShape_gate_role
  | empty g =>
    cases filled with
    | role => exact absurd same not_sameShape_role_gate
    | gate g' nonempty _ =>
      cases sameShape_gate same
      exact absurd rfl nonempty
  | gate g _ ih =>
    cases filled with
    | role => exact absurd same not_sameShape_role_gate
    | gate g' _ all =>
      cases sameShape_gate same with
      | cons first rest =>
        cases rest
        exact .gate g' (ih (all _ (by simp)) first)

theorem readClause_eq_some {item : Text} {e : GateExpr} : readClause item = some e ↔
    (∃ g b, item = gateClause g b ∧ GateBody b ∧ e = readBody g b) ∨
      ∃ m r, item = roleClause m r ∧ MspidText m ∧ e = .role m r := by
  unfold readClause readItem
  cases hg : matchGateClause item with
  | some found =>
    obtain ⟨g, b⟩ := found
    obtain ⟨eq, hb⟩ := matchGateClause_eq_some.mp hg
    subst eq
    constructor
    · intro h
      exact Or.inl ⟨g, b, rfl, hb, (Option.some.inj h).symm⟩
    · intro h
      rcases h with ⟨g', b', eq, _, rfl⟩ | ⟨m, r, eq, _, _⟩
      · obtain ⟨rfl, rfl⟩ := gateClause_inj eq
        rfl
      · rw [eq, matchGateClause_roleClause] at hg
        cases hg
  | none =>
    simp only [Option.map_eq_some_iff, Prod.exists, matchRoleClause_eq_some]
    constructor
    · intro h
      obtain ⟨m, r, ⟨eq, hm⟩, rfl⟩ := h
      exact Or.inr ⟨m, r, eq, hm, rfl⟩
    · intro h
      rcases h with ⟨g, b, eq, hb, _⟩ | ⟨m, r, eq, hm, rfl⟩
      · rw [matchGateClause_eq_some.mpr ⟨eq, hb⟩] at hg
        cases hg
      · exact ⟨m, r, ⟨eq, hm⟩, rfl⟩

theorem readBody_of_comma_free {g : Gate} {b : Text} (h : ',' ∉ b) :
    readBody g b = .gate g (readClause b).toList := by
  rw [readBody_eq, List.splitOn_eq_singleton h]
  cases hc : readClause b <;> simp [hc]

/-- An item is a piece between commas, so nothing nested in it can hold two items. -/
theorem readClause_narrow {item : Text} {e : GateExpr} (comma : ',' ∉ item)
    (h : readClause item = some e) : e.Narrow := by
  induction hn : item.length using Nat.strong_induction_on generalizing item e with
  | _ n ih =>
    rcases readClause_eq_some.mp h with ⟨g, b, rfl, hb, rfl⟩ | ⟨m, r, rfl, _, rfl⟩
    · have comma' : ',' ∉ b := fun hc => comma (by simp [gateClause, hc])
      rw [readBody_of_comma_free comma']
      cases hc : readClause b with
      | none => exact .empty g
      | some e' =>
        have shorter : b.length < n := by
          simp only [gateClause, List.length_append, List.length_cons] at hn
          omega
        exact .gate g (ih _ shorter comma' hc rfl)
    · exact .role m r

end FabricCommon
