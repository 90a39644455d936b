import FabricCommon.GateText

namespace FabricCommon

/-- An exception thrown by the JavaScript sources, with the text of its message. -/
inductive JsError where
  | TypeError (message : String)
  | Error (message : String)
  deriving DecidableEq, Repr

/-- A decoded `MSPPrincipal` of classification `ROLE`. -/
structure MSPPrincipal where
  role : Nat
  msp_identifier : Text
  deriving DecidableEq, Repr

/-- `SignaturePolicy`, by the member its `Type` names. -/
inductive SignaturePolicy where
  | unset
  | signed_by (index : Nat)
  | n_out_of (n : Nat) (rules : List SignaturePolicy)

structure NOutOf where
  n : Nat
  rules : List SignaturePolicy

structure SignaturePolicyEnvelope where
  version : Nat
  rule : SignaturePolicy
  identities : List MSPPrincipal

/-- `MSPRoleTypeInverse[role.toUpperCase()]`. -/
def MSPRoleTypeInverse : Role → Nat
  | .member => 0
  | .admin => 1
  | .client => 2
  | .peer => 3
  | .orderer => 4

def buildMSPPrincipal (MSPRoleType : Nat) (mspid : Text) : MSPPrincipal :=
  ⟨MSPRoleType, mspid⟩

def buildNOutOf (n : Nat) (rules : List SignaturePolicy) : NOutOf := ⟨n, rules⟩

def buildSignaturePolicy (n_out_of : Option NOutOf) (signed_by : Option Nat) : SignaturePolicy :=
  match n_out_of, signed_by with
  | some nOutOf, _ => .n_out_of nOutOf.n nOutOf.rules
  | none, some index => .signed_by index
  | none, none => .unset

/-- The two variables that the clause parsers of one `FromString` call share. -/
structure ParseState where
  identitiesIndexMap : List (Text × Nat)
  identities : List MSPPrincipal

def identityKey (mspid : Text) (role : Role) : Text := mspid ++ '.' :: role.text

def parseRoleClause (mspid : Text) (role : Role) (st : ParseState) :
    SignaturePolicy × ParseState :=
  let key := identityKey mspid role
  match st.identitiesIndexMap.lookup key with
  | some index => (buildSignaturePolicy none (some index), st)
  | none =>
    let index := st.identities.length
    (buildSignaturePolicy none (some index),
      ⟨(key, index) :: st.identitiesIndexMap,
        st.identities ++ [buildMSPPrincipal (MSPRoleTypeInverse role) mspid]⟩)

/-- One pass of the loop over `subClauseItems`. The trimmed item only decides whether the item is
skipped, the patterns are matched against the item itself. -/
def parseItem (nested : Gate → Text → ParseState → SignaturePolicy × ParseState)
    (acc : List SignaturePolicy × ParseState) (subClauseItem : Text) :
    List SignaturePolicy × ParseState :=
  if trim subClauseItem = [] then acc
  else
    let acc := match matchGateClause subClauseItem with
      | some (gate, subClause) =>
        let (subRule, st) := nested gate subClause acc.2
        (acc.1 ++ [subRule], st)
      | none => acc
    match matchRoleClause subClauseItem with
    | some (mspid, role) =>
      let (subRule, st) := parseRoleClause mspid role acc.2
      (acc.1 ++ [subRule], st)
    | none => acc

/-- The fuel bounds the nesting, which the length of the clause bounds in turn. -/
def parseGateClause : Nat → Gate → Text → ParseState → SignaturePolicy × ParseState
  | 0, _, _, st => (.unset, st)
  | fuel + 1, gate, subClause, st =>
    let (rules, st) := (subClause.splitOn ',').foldl (parseItem (parseGateClause fuel)) ([], st)
    let n_out_of := match gate with
      | .OR => buildNOutOf 1 rules
      | .AND => buildNOutOf rules.length rules
    (buildSignaturePolicy (some n_out_of) none, st)

/-- `GatePolicy.FromString`. An empty string leaves `subClause` undefined, any other text that
`GateClausePattern` does not match makes `result` null. -/
def FromString (policyString : Text) : Except JsError SignaturePolicyEnvelope :=
  if policyString = [] then
    .error (.TypeError "Cannot read properties of undefined (reading 'split')")
  else
    match matchGateClause policyString with
    | none => .error (.TypeError "Cannot read properties of null (reading '1')")
    | some (gate, subClause) =>
      let (rule, st) := parseGateClause policyString.length gate subClause ⟨[], []⟩
      .ok ⟨0, rule, st.identities⟩

end FabricCommon
