import FabricCommon.GatePolicy

namespace FabricCommon

/-- A `PolicyElement`: `signedBy` when it is set, else the first key with its array. -/
inductive PolicySpec where
  | empty
  | signedBy (signedBy : Nat)
  | keyed (key : Text) (array : List PolicySpec)

structure RoleIdentity where
  type : Nat
  mspid : Text
  deriving DecidableEq, Repr

structure JsonPolicy where
  identities : List RoleIdentity
  policy : PolicySpec

def parseDigits (digits : Text) : Nat :=
  digits.foldl (fun n c => 10 * n + (c.toNat - '0'.toNat)) 0

/-- The number in a key that `/^(\d+)-of$/` matches. -/
def nOfKey (key : Text) : Option Nat :=
  let digits := key.takeWhile Char.isDigit
  if digits ≠ [] ∧ key.dropWhile Char.isDigit = ['-', 'o', 'f'] then some (parseDigits digits)
  else none

namespace Policy

def buildPrincipal (identity : RoleIdentity) : MSPPrincipal := ⟨identity.type, identity.mspid⟩

mutual
def parsePolicy : PolicySpec → Except JsError SignaturePolicy
  | .signedBy signedBy => .ok (.signed_by signedBy)
  | .empty => .error (.TypeError "Cannot read properties of undefined (reading 'match')")
  | .keyed key array =>
    match nOfKey key with
    | none => .error (.TypeError "Cannot read properties of null (reading '1')")
    | some n =>
      match parsePolicies array with
      | .error err => .error err
      | .ok rules => .ok (.n_out_of n rules)
def parsePolicies : List PolicySpec → Except JsError (List SignaturePolicy)
  | [] => .ok []
  | sub :: subs =>
    match parsePolicy sub with
    | .error err => .error err
    | .ok rule =>
      match parsePolicies subs with
      | .error err => .error err
      | .ok rules => .ok (rule :: rules)
end

def buildSignaturePolicyEnvelope (policy : JsonPolicy) :
    Except JsError SignaturePolicyEnvelope :=
  let principals := policy.identities.map buildPrincipal
  match parsePolicy policy.policy with
  | .error err => .error err
  | .ok rule => .ok ⟨0, rule, principals⟩

end Policy

structure ApplicationPolicy where
  signature_policy : Option SignaturePolicyEnvelope
  channel_config_policy_reference : Option Text

/-- What `setEndorsementPolicy` is given, when it is given an object. -/
structure EndorsementPolicy where
  json : Option JsonPolicy
  gate : Option Text
  reference : Option Text

def applicationPolicyBuilder (endorsementPolicy : EndorsementPolicy) :
    Except JsError ApplicationPolicy :=
  let build (signature_policy : Option SignaturePolicyEnvelope) : ApplicationPolicy :=
    ⟨signature_policy, endorsementPolicy.reference⟩
  match endorsementPolicy.json, endorsementPolicy.gate with
  | some json, _ => (Policy.buildSignaturePolicyEnvelope json).map (build ∘ some)
  | none, some (c :: gate) => (FromString (c :: gate)).map (build ∘ some)
  | none, _ => .ok (build none)

end FabricCommon
