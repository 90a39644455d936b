import FabricCommon.GatePolicy
import FabricCommon.ThresholdTree

namespace FabricCommon

/-- Gate expressions: what a policy text means, before any identity table exists. -/
inductive GateExpr where
  | role (mspid : Text) (role : Role)
  | gate (gate : Gate) (items : List GateExpr)

namespace GateExpr

@[elab_as_elim]
theorem induction {P : GateExpr → Prop} (role : ∀ m r, P (.role m r))
    (gate : ∀ g items, (∀ e ∈ items, P e) → P (.gate g items)) : ∀ e, P e
  | .role m r => role m r
  | .gate g items => gate g items fun e _ => induction role gate e

mutual
/-- Whether the signing principals `S` satisfy an expression. -/
def Satisfied (S : Set MSPPrincipal) : GateExpr → Prop
  | .role m r => buildMSPPrincipal (MSPRoleTypeInverse r) m ∈ S
  | .gate .AND items => AllSatisfied S items
  | .gate .OR items => AnySatisfied S items
def AllSatisfied (S : Set MSPPrincipal) : List GateExpr → Prop
  | [] => True
  | e :: es => Satisfied S e ∧ AllSatisfied S es
def AnySatisfied (S : Set MSPPrincipal) : List GateExpr → Prop
  | [] => False
  | e :: es => Satisfied S e ∨ AnySatisfied S es
end

end GateExpr

/-- A text that is a clause of one expression, or the inside of the parentheses of a gate. -/
inductive Phrase where
  | clause (e : GateExpr)
  | items (es : List GateExpr)

def Whitespace (t : Text) : Prop := ∀ c ∈ t, jsSpace c = true

instance (t : Text) : Decidable (Whitespace t) :=
  decidable_of_iff (t.all jsSpace = true) List.all_eq_true

/-- The policy grammar: a gate holds one or more items separated by commas, and each item may have
whitespace on both sides. -/
inductive Renders : Phrase → Text → Prop where
  | role {m : Text} (r : Role) : MspidText m → Renders (.clause (.role m r)) (roleClause m r)
  | gate {es : List GateExpr} {body : Text} (g : Gate) : Renders (.items es) body →
      Renders (.clause (.gate g es)) (gateClause g body)
  | single {e : GateExpr} {left text right : Text} : Whitespace left → Renders (.clause e) text →
      Whitespace right → Renders (.items [e]) (left ++ text ++ right)
  | cons {e : GateExpr} {es : List GateExpr} {left text right rest : Text} : Whitespace left →
      Renders (.clause e) text → Whitespace right → Renders (.items es) rest →
      Renders (.items (e :: es)) (left ++ text ++ right ++ ',' :: rest)

/-- The texts that the grammar derives from `gate`. -/
def Derivable (text : Text) : Prop := ∃ g es, Renders (.clause (.gate g es)) text

def thresholdOf (g : Gate) (items : Nat) : Nat :=
  match g with
  | .AND => items
  | .OR => 1

mutual
/-- A rule tree has exactly the shape of an expression, over the identities `ids`. -/
def Realises (ids : List MSPPrincipal) : GateExpr → SignaturePolicy → Prop
  | .role m r, .signed_by index => ids[index]? = some (buildMSPPrincipal (MSPRoleTypeInverse r) m)
  | .gate g items, .n_out_of n rules => n = thresholdOf g items.length ∧ RealisesAll ids items rules
  | _, _ => False
def RealisesAll (ids : List MSPPrincipal) : List GateExpr → List SignaturePolicy → Prop
  | [], [] => True
  | e :: es, rule :: rules => Realises ids e rule ∧ RealisesAll ids es rules
  | _, _ => False
end

mutual
def SignaturePolicy.tree : SignaturePolicy → ThresholdTree Nat
  | .unset => .atLeast 1 []
  | .signed_by index => .leaf index
  | .n_out_of n rules => .atLeast n (SignaturePolicy.trees rules)
def SignaturePolicy.trees : List SignaturePolicy → List (ThresholdTree Nat)
  | [] => []
  | rule :: rules => rule.tree :: SignaturePolicy.trees rules
end

/-- Whether the signing principals `S` satisfy an envelope. -/
def SignaturePolicyEnvelope.Satisfied (S : Set MSPPrincipal) (env : SignaturePolicyEnvelope) :
    Prop :=
  env.rule.tree.Sat {index | ∃ principal ∈ S, env.identities[index]? = some principal}

end FabricCommon
