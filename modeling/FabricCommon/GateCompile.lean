import FabricCommon.GateExpr
import FabricCommon.ListRules

namespace FabricCommon

mutual
/-- Allocating the identity table for an expression that has been read already. -/
def compile : GateExpr → ParseState → SignaturePolicy × ParseState
  | .role m r, st => parseRoleClause m r st
  | .gate g items, st =>
    let compiled := compileItems items st
    (.n_out_of (thresholdOf g items.length) compiled.1, compiled.2)
def compileItems : List GateExpr → ParseState → List SignaturePolicy × ParseState
  | [], st => ([], st)
  | e :: es, st =>
    let first := compile e st
    let rest := compileItems es first.2
    (first.1 :: rest.1, rest.2)
end

theorem compileItems_length (es : List GateExpr) (st : ParseState) :
    (compileItems es st).1.length = es.length := by
  induction es generalizing st with
  | nil => simp [compileItems]
  | cons e es ih => simp [compileItems, ih]

/-- What one item contributes, the identity table left aside. -/
def readItem (nested : Gate → Text → GateExpr) (item : Text) : Option GateExpr :=
  match matchGateClause item with
  | some (g, b) => some (nested g b)
  | none => (matchRoleClause item).map fun (m, r) => .role m r

def readGate : Nat → Gate → Text → GateExpr
  | 0, g, _ => .gate g []
  | fuel + 1, g, b => .gate g ((b.splitOn ',').filterMap (readItem (readGate fuel)))

def readBody (g : Gate) (body : Text) : GateExpr := readGate (body.length + 1) g body

def readClause (item : Text) : Option GateExpr := readItem readBody item

theorem matchRoleClause_gateClause (g : Gate) (b : Text) :
    matchRoleClause (gateClause g b) = none := by
  rw [Option.eq_none_iff_forall_ne_some]
  rintro ⟨m, r⟩ h
  have eq := (matchRoleClause_eq_some.mp h).1
  cases g <;> simp [gateClause, Gate.text, roleClause] at eq

theorem matchGateClause_roleClause (m : Text) (r : Role) :
    matchGateClause (roleClause m r) = none := by
  rw [Option.eq_none_iff_forall_ne_some]
  rintro ⟨g, b⟩ h
  have eq := (matchGateClause_eq_some.mp h).1
  cases g <;> simp [gateClause, Gate.text, roleClause] at eq

/-- A blank item matches neither pattern, so skipping it early changes nothing. -/
theorem readItem_blank {nested : Gate → Text → GateExpr} {item : Text} (h : trim item = []) :
    readItem nested item = none := by
  have blank := trim_eq_nil_iff.mp h
  cases hg : matchGateClause item with
  | some found =>
    obtain ⟨eq, _⟩ := matchGateClause_eq_some.mp hg
    have paren := blank '(' (by rw [eq]; simp [gateClause])
    exact absurd paren (by decide)
  | none =>
    cases hr : matchRoleClause item with
    | none => simp [readItem, hg, hr]
    | some found =>
      obtain ⟨eq, _⟩ := matchRoleClause_eq_some.mp hr
      have quote := blank '\'' (by rw [eq]; simp [roleClause])
      exact absurd quote (by decide)

theorem matchGateClause_shorter {item b : Text} {g : Gate}
    (h : matchGateClause item = some (g, b)) : b.length < item.length := by
  rw [(matchGateClause_eq_some.mp h).1]
  simp only [gateClause, List.length_append, List.length_cons]
  omega

theorem readItem_congr {nested nested' : Gate → Text → GateExpr} {item : Text}
    (same : ∀ g b, b.length < item.length → nested g b = nested' g b) :
    readItem nested item = readItem nested' item := by
  unfold readItem
  split
  next g b hm => rw [same g b (matchGateClause_shorter hm)]
  next => rfl

theorem readGate_fuel (fuel fuel' : Nat) {g : Gate} {b : Text} (h : b.length < fuel)
    (h' : b.length < fuel') : readGate fuel g b = readGate fuel' g b := by
  induction fuel generalizing fuel' g b with
  | zero => omega
  | succ fuel ih =>
    obtain ⟨fuel', rfl⟩ : ∃ n, fuel' = n + 1 := ⟨fuel' - 1, by omega⟩
    simp only [readGate, GateExpr.gate.injEq, true_and]
    apply List.filterMap_congr
    intro item hi
    have short := (ListRules.sublist_of_mem_splitOn hi).length_le
    exact readItem_congr fun g' b' shorter => ih fuel' (by omega) (by omega)

/-- The reader without its fuel. -/
theorem readBody_eq (g : Gate) (body : Text) :
    readBody g body = .gate g ((body.splitOn ',').filterMap readClause) := by
  unfold readBody
  rw [readGate]
  simp only [GateExpr.gate.injEq, true_and]
  apply List.filterMap_congr
  intro item hi
  have short := (ListRules.sublist_of_mem_splitOn hi).length_le
  exact readItem_congr fun g' b' shorter => readGate_fuel _ _ (by omega) (by omega)

theorem parseItems_eq_compile {nested : Gate → Text → ParseState → SignaturePolicy × ParseState}
    {read : Gate → Text → GateExpr} {items : List Text}
    (same : ∀ item ∈ items, ∀ g b, matchGateClause item = some (g, b) →
      ∀ st, nested g b st = compile (read g b) st)
    (rules : List SignaturePolicy) (st : ParseState) :
    items.foldl (parseItem nested) (rules, st) =
      (rules ++ (compileItems (items.filterMap (readItem read)) st).1,
        (compileItems (items.filterMap (readItem read)) st).2) := by
  induction items generalizing rules st with
  | nil => simp [compileItems]
  | cons item items ih =>
    have rest := ih fun other ho => same other (List.mem_cons_of_mem item ho)
    simp only [List.foldl_cons]
    by_cases hb : trim item = []
    · rw [List.filterMap_cons_none (readItem_blank hb), ← rest]
      simp [parseItem, hb]
    · cases hg : matchGateClause item with
      | some found =>
        obtain ⟨g, b⟩ := found
        have eq := (matchGateClause_eq_some.mp hg).1
        have hr : matchRoleClause item = none := by rw [eq, matchRoleClause_gateClause]
        have hread : readItem read item = some (read g b) := by simp [readItem, hg]
        have hstep := same item List.mem_cons_self g b hg
        simp [parseItem, hb, hg, hr, hstep, hread, rest, compileItems]
      | none =>
        cases hr : matchRoleClause item with
        | some found =>
          have hread : readItem read item = some (.role found.1 found.2) := by
            simp [readItem, hg, hr]
          simp [parseItem, hb, hg, hr, hread, rest, compileItems, compile]
        | none =>
          have hread : readItem read item = none := by simp [readItem, hg, hr]
          simp [parseItem, hb, hg, hr, hread, rest]

/-- The parser reads the text and allocates the identity table in one pass; the two can be told
apart, and enough fuel is what the length of the clause gives. -/
theorem parseGateClause_eq_compile {fuel : Nat} {g : Gate} {b : Text} (h : b.length < fuel)
    (st : ParseState) : parseGateClause fuel g b st = compile (readBody g b) st := by
  induction fuel generalizing g b st with
  | zero => omega
  | succ fuel ih =>
    have same : ∀ item ∈ b.splitOn ',', ∀ g' b', matchGateClause item = some (g', b') →
        ∀ st', parseGateClause fuel g' b' st' = compile (readBody g' b') st' := by
      intro item hi g' b' hm st'
      have short := (ListRules.sublist_of_mem_splitOn hi).length_le
      have shorter := matchGateClause_shorter hm
      exact ih (by omega) st'
    have loop := parseItems_eq_compile same [] st
    have clause : readClause = readItem readBody := rfl
    rw [readBody_eq, clause]
    simp only [parseGateClause, compile, loop, List.nil_append]
    cases g <;> simp [thresholdOf, buildNOutOf, buildSignaturePolicy, compileItems_length]

/-- The envelope of an expression, allocated from an empty table. -/
def envelopeOf (e : GateExpr) : SignaturePolicyEnvelope :=
  ⟨0, (compile e ⟨[], []⟩).1, (compile e ⟨[], []⟩).2.identities⟩

theorem FromString_gateClause {g : Gate} {body : Text} (h : GateBody body) :
    FromString (gateClause g body) = .ok (envelopeOf (readBody g body)) := by
  have matched : matchGateClause (gateClause g body) = some (g, body) :=
    matchGateClause_eq_some.mpr ⟨rfl, h⟩
  have nonempty : gateClause g body ≠ [] := by simp [gateClause]
  simp only [FromString, if_neg nonempty, matched]
  rw [parseGateClause_eq_compile (matchGateClause_shorter matched)]
  rfl

theorem FromString_no_match {text : Text} (h : matchGateClause text = none) :
    ∃ err, FromString text = .error err := by
  by_cases empty : text = []
  · exact ⟨_, if_pos empty⟩
  · exact ⟨_, by simp only [FromString, if_neg empty, h]; rfl⟩

/-- What `FromString` accepts is decided by the outermost match alone. -/
theorem FromString_eq_ok {text : Text} {env : SignaturePolicyEnvelope} :
    FromString text = .ok env ↔
      ∃ g body, text = gateClause g body ∧ GateBody body ∧ env = envelopeOf (readBody g body) := by
  constructor
  · intro h
    cases hm : matchGateClause text with
    | none =>
      obtain ⟨err, he⟩ := FromString_no_match hm
      rw [he] at h
      cases h
    | some found =>
      obtain ⟨eq, hb⟩ := matchGateClause_eq_some.mp hm
      rw [eq, FromString_gateClause hb] at h
      exact ⟨found.1, found.2, eq, hb, (Except.ok.inj h).symm⟩
  · intro h
    obtain ⟨g, body, rfl, hb, rfl⟩ := h
    exact FromString_gateClause hb

end FabricCommon
