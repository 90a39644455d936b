import FabricCommon.ResultInterceptors

namespace FabricCommon

/-- `${value}` of an optional string. -/
def interpolate (value : Option String) : String := value.getD "undefined"

/-- A string that an `if` takes as true. -/
def truthy (value : Option String) : Bool := value.any (· ≠ "")

def installedPrefix : String :=
  "failed to invoke backing implementation of 'InstallChaincode': " ++
    "chaincode already successfully installed"

def hasInstalled (response : PeerResponse) (packageId : Option String) : Bool :=
  let messageMatch :=
    if truthy packageId then
      decide (response.message =
        installedPrefix ++ " (package ID '" ++ interpolate packageId ++ "')")
    else installedPrefix.toList.isPrefixOf response.message.toList
  response.status = 500 && messageMatch

def hasNoChange (response : PeerResponse) (chaincodeID : Option String) (sequence : Nat) : Bool :=
  response.status = 500 &&
    response.message =
      "failed to invoke backing implementation of 'ApproveChaincodeDefinitionForMyOrg': " ++
        "attempted to redefine uncommitted sequence (" ++ toString sequence ++
        ") for namespace " ++ interpolate chaincodeID ++ " with unchanged content" &&
    response.payload.length = 0

def hasNoDefinition (response : PeerResponse) (chaincodeID : Option String) : Bool :=
  response.status = 404 &&
    response.message = "namespace " ++ interpolate chaincodeID ++ " is not defined" &&
    response.payload.length = 0

/-- The functions that `resultHandler` is set to, with the values they capture. -/
inductive ResultHandler where
  | EndorseALL
  | skipIfInstalled (packageId : Option String)
  | skipIfNoChange (chaincodeID : Option String) (sequence : Nat)
  | skipIfNoDefinition (chaincodeID : Option String)
  deriving DecidableEq, Repr

namespace ResultHandler

/-- The failed responses that a handler lets pass. -/
def tolerates : ResultHandler → PeerResponse → Bool
  | .EndorseALL, _ => false
  | .skipIfInstalled packageId, response => hasInstalled response packageId
  | .skipIfNoChange chaincodeID sequence, response => hasNoChange response chaincodeID sequence
  | .skipIfNoDefinition chaincodeID, response =>
    truthy chaincodeID && hasNoDefinition response chaincodeID

def errorsFilter : ResultHandler → Option (EndorsementResponse → Bool)
  | .EndorseALL => none
  | .skipIfInstalled packageId => some fun r => !hasInstalled r.response packageId
  | .skipIfNoChange chaincodeID sequence =>
    some fun r => !hasNoChange r.response chaincodeID sequence
  | .skipIfNoDefinition chaincodeID =>
    if truthy chaincodeID then some fun r => !hasNoDefinition r.response chaincodeID else none

def apply (handler : ResultHandler) (result : ProposalResponse) :
    Except InterceptorError ProposalResponse :=
  FabricCommon.EndorseALL result handler.errorsFilter

end ResultHandler

theorem errorsFilter_eq (handler : ResultHandler) (r : EndorsementResponse) :
    (handler.errorsFilter.getD fun _ => true) r = !handler.tolerates r.response := by
  cases handler with
  | EndorseALL => rfl
  | skipIfInstalled packageId => rfl
  | skipIfNoChange chaincodeID sequence => rfl
  | skipIfNoDefinition chaincodeID =>
    cases named : truthy chaincodeID <;>
      simp [ResultHandler.errorsFilter, ResultHandler.tolerates, named]

theorem handler_apply_eq_ok {handler : ResultHandler} {result accepted : ProposalResponse} :
    handler.apply result = .ok accepted ↔
      accepted = result ∧ result.errors = [] ∧
        ∀ r ∈ result.responses, r.Failed → handler.tolerates r.response = true := by
  simp only [ResultHandler.apply, EndorseALL_eq_ok, errorsFilter_eq, Bool.not_eq_false']

end FabricCommon
