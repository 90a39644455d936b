import FabricCommon.CaCryptoGen
import FabricCommon.CheckThenCreate
import FabricCommon.LifecycleHandlers

namespace FabricCommon

open RequestRun

structure User where
  name : String
  mspId : String
  certificate : String
  deriving DecidableEq, Repr

structure FaultEntry where
  code : Int
  message : String
  deriving DecidableEq, Repr

/-- An exception of a service call; `errors` is `none` when it holds no such array. -/
structure CaError where
  message : String
  errors : Option (List FaultEntry)
  deriving DecidableEq, Repr

structure KeyValueAttribute where
  name : String
  value : String
  deriving DecidableEq, Repr

structure Identity where
  id : String
  type : String
  attrs : List KeyValueAttribute
  affiliation : String
  max_enrollments : Int
  deriving DecidableEq, Repr

structure IdentityRequest where
  enrollmentID : String
  enrollmentSecret : Option String
  affiliation : Option String
  type : Option String
  maxEnrollments : Int
  attrs : Option (List KeyValueAttribute)
  caname : Option String
  deriving DecidableEq, Repr

structure AffiliationRequest where
  name : String
  force : Bool
  deriving DecidableEq, Repr

structure AffiliationResult where
  name : String
  caname : String
  deriving DecidableEq, Repr

/-- `IServiceResponse`. -/
structure ServiceResponse (α : Type) where
  success : Bool
  result : Option α
  deriving DecidableEq, Repr

structure EnrollmentRequest where
  enrollmentID : String
  enrollmentSecret : Option String
  profile : Option String
  deriving DecidableEq, Repr

/-- What an enrolment gives: the key that was made for the request, and the CA's answer. -/
structure Enrollment where
  key : String
  certificate : String
  rootCertificate : String
  deriving DecidableEq, Repr

inductive MSPType where
  | node (type : NodeType)
  | user (type : NodeType)
  deriving DecidableEq, Repr

/-- The requests at the CA, and the steps on the local crypto directory. -/
inductive CaAction where
  | getIdentity (enrollmentID : String) (registrar : User)
  | createIdentity (req : IdentityRequest) (registrar : User)
  | getAffiliation (name : String) (registrar : User)
  | createAffiliation (req : AffiliationRequest) (registrar : User)
  | enroll (req : EnrollmentRequest) (dns : List String)
  | cryptoExistLocal (type : MSPType)
  | loadFromLocal (nodeType : NodeType) (mspid : String)
  | toAdminCerts (certificate : String) (type : MSPType)
  | toMSP (result : Enrollment) (type : MSPType)
  | toTLS (result : Enrollment) (type : MSPType)
  deriving DecidableEq, Repr

namespace CaAction

/-- What the action gives when it does not throw. -/
def Value : CaAction → Type
  | .getIdentity _ _ => ServiceResponse Identity
  | .createIdentity _ _ => String
  | .getAffiliation _ _ | .createAffiliation _ _ => ServiceResponse AffiliationResult
  | .enroll _ _ => Enrollment
  | .cryptoExistLocal _ => Bool
  | .loadFromLocal _ _ => Option User
  | .toAdminCerts _ _ | .toMSP _ _ | .toTLS _ _ => Unit

abbrev Reply (action : CaAction) : Type := Except CaError action.Value

end CaAction

abbrev CaM := ExceptT CaError (Proc CaAction CaAction.Reply)

def CaAction.send (action : CaAction) : CaM action.Value := ExceptT.mk (.ask action .done)

open CaAction (send)

/-- The one error that a lookup of an absent entry fails with. -/
def isNoRows (text : String) (e : CaError) : Bool :=
  match e.errors with
  | some [entry] => entry.code == 63 && entry.message == text
  | _ => false

def isNotExistError (e : CaError) : Bool :=
  isNoRows "Failed to get User: sql: no rows in result set" e

/-- The test that the affiliation lookup makes in place. -/
def isNoAffiliationError (e : CaError) : Bool :=
  isNoRows "Failed to get affiliation: sql: no rows in result set" e

/-- The result in a response to a lookup, or none when the lookup has failed that way. -/
def existing {α : Type} (absent : CaError → Bool) (response : CaM (ServiceResponse α)) :
    CaM (Option α) :=
  tryCatch (do return (← response).result) fun e =>
    if absent e then return none else throw e

/-- The argument of `createIfNotExist`. -/
structure IdentityOptions where
  enrollmentID : String
  enrollmentSecret : Option String
  affiliation : Option String
  role : Option String
  attrs : Option (List KeyValueAttribute)
  caname : Option String
  maxEnrollments : Option Int
  deriving DecidableEq, Repr

/-- A count that is missing or zero stands for any number of enrolments. -/
def IdentityOptions.req (options : IdentityOptions) : IdentityRequest where
  enrollmentID := options.enrollmentID
  enrollmentSecret := options.enrollmentSecret
  affiliation := options.affiliation
  type := options.role
  maxEnrollments :=
    match options.maxEnrollments with
    | none | some 0 => -1
    | some count => count
  attrs := options.attrs
  caname := options.caname

/-- `allowedType` is `HFCAIdentityType` of the CA client. -/
structure IdentityServiceWrapper where
  registrar : User
  allowedType : List String
  deriving DecidableEq, Repr

namespace IdentityServiceWrapper

variable (service : IdentityServiceWrapper)

def getOne (enrollmentID : String) : CaM (Option Identity) :=
  existing isNotExistError (send (.getIdentity enrollmentID service.registrar))

def roleError (role : Option String) : Option CaError :=
  if truthy role && !service.allowedType.contains (interpolate role) then
    some ⟨"invalid role:" ++ interpolate role ++ ",should be one of " ++
      ",".intercalate service.allowedType, none⟩
  else none

/-- Nothing is returned for an identity that exists, and its secret for a new one. -/
def createIfNotExist (options : IdentityOptions) : CaM (Option String) := do
  match ← service.getOne options.enrollmentID with
  | some _ => return none
  | none =>
    match service.roleError options.role with
    | some err => throw err
    | none =>
      return some (← send (.createIdentity options.req service.registrar))

end IdentityServiceWrapper

structure AffiliationServiceBuilder where
  registrar : User
  deriving DecidableEq, Repr

namespace AffiliationServiceBuilder

variable (service : AffiliationServiceBuilder)

def getOne (name : String) : CaM (Option AffiliationResult) :=
  existing isNoAffiliationError (send (.getAffiliation name service.registrar))

/-- The entry that exists, or the answer to its creation. -/
def createIfNotExist (name : String) (force : Option Bool) :
    CaM (AffiliationResult ⊕ ServiceResponse AffiliationResult) := do
  match ← service.getOne name with
  | some resp => return .inl resp
  | none =>
    return .inr (← send (.createAffiliation ⟨name, force.getD false⟩ service.registrar))

end AffiliationServiceBuilder

end FabricCommon
