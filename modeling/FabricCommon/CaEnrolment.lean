import FabricCommon.CaServices

namespace FabricCommon

open CaAction (send)

inductive RegisterStatus where
  | generated
  | existed
  | assigned
  deriving DecidableEq, Repr

structure RegisterOptions where
  enrollmentID : String
  enrollmentSecret : Option String
  affiliation : Option String
  role : Option String
  attrs : Option (List KeyValueAttribute)
  deriving DecidableEq, Repr

/-- What `registerIfNotExist` reports. -/
structure Registration where
  enrollmentID : String
  enrollmentSecret : Option String
  status : RegisterStatus
  deriving DecidableEq, Repr

/-- A `CaCryptoGen` with the names that its `cryptoPath` gives for each type of node. -/
structure CryptoGen where
  orgName : NodeType → String
  hostName : NodeType → String
  userHostName : NodeType → String
  password : Option String
  TLS : Bool
  allowedType : List String

namespace CryptoGen

/-- The report on an identity, from the caller's secret and from what `createIfNotExist` has
returned. -/
def report (enrollmentID : String) (enrollmentSecret secret : Option String) : Registration :=
  if !truthy enrollmentSecret then ⟨enrollmentID, secret, .generated⟩
  else if !truthy secret then ⟨enrollmentID, enrollmentSecret, .existed⟩
  else ⟨enrollmentID, enrollmentSecret, .assigned⟩

variable (gen : CryptoGen) (admin : User)

def registerIfNotExist (options : RegisterOptions) : CaM Registration := do
  let identityService : IdentityServiceWrapper := ⟨admin, gen.allowedType⟩
  let secret ← identityService.createIfNotExist ⟨options.enrollmentID, options.enrollmentSecret,
    options.affiliation, options.role, options.attrs, none, none⟩
  return report options.enrollmentID options.enrollmentSecret secret

def genOrderer (affiliationRoot : Option String) : CaM (Option User) := do
  let root := if truthy affiliationRoot then interpolate affiliationRoot else gen.orgName .orderer
  let exist : Bool ← send (.cryptoExistLocal (.node .orderer))
  if exist then return none
  else
    let enrollmentID := gen.hostName .orderer
    send (.toAdminCerts admin.certificate (.node .orderer))
    let registered ← gen.registerIfNotExist admin
      ⟨enrollmentID, gen.password, some (root ++ ".orderer"), some "orderer", none⟩
    let enrollmentSecret := registered.enrollmentSecret
    let result : Enrollment ← send (.enroll ⟨enrollmentID, enrollmentSecret, none⟩ [])
    send (.toMSP result (.node .orderer))
    -- etcdraft needs the TLS material always
    let dns := [gen.hostName .orderer, "localhost"]
    let tlsResult : Enrollment ← send (.enroll ⟨enrollmentID, enrollmentSecret, some "tls"⟩ dns)
    send (.toTLS tlsResult (.node .orderer))
    return some admin

def genPeer : CaM Unit := do
  let exist : Bool ← send (.cryptoExistLocal (.node .peer))
  if exist then return ()
  else
    let enrollmentID := gen.hostName .peer
    send (.toAdminCerts admin.certificate (.node .peer))
    let registered ← gen.registerIfNotExist admin
      ⟨enrollmentID, gen.password, some (gen.orgName .peer ++ ".peer"), some "peer", none⟩
    let enrollmentSecret := registered.enrollmentSecret
    let result : Enrollment ← send (.enroll ⟨enrollmentID, enrollmentSecret, none⟩ [])
    send (.toMSP result (.node .peer))
    if gen.TLS then
      let dns := [gen.hostName .peer, "localhost"]
      let tlsResult : Enrollment ← send (.enroll ⟨enrollmentID, enrollmentSecret, some "tls"⟩ dns)
      send (.toTLS tlsResult (.node .peer))
    else return ()

def genUser (nodeType : NodeType) : CaM (Option User) := do
  let user : Option User ← send (.loadFromLocal nodeType admin.mspId)
  match user with
  | some user => return some user
  | none =>
    let enrollmentID := gen.userHostName nodeType
    let registered ← gen.registerIfNotExist admin
      ⟨enrollmentID, gen.password, some (gen.orgName nodeType ++ ".user"), some "user", none⟩
    let enrollmentSecret := registered.enrollmentSecret
    let result : Enrollment ← send (.enroll ⟨enrollmentID, enrollmentSecret, none⟩ [])
    send (.toMSP result (.user nodeType))
    send (.loadFromLocal nodeType admin.mspId)

def genClientKeyPair (enrollmentID : String) (enrollmentSecret affiliationRoot : Option String) :
    CaM Enrollment := do
  let registered ← gen.registerIfNotExist admin
    ⟨enrollmentID, enrollmentSecret, some (interpolate affiliationRoot ++ ".client"),
      some "client", none⟩
  send (.enroll ⟨enrollmentID, registered.enrollmentSecret, some "tls"⟩ [])

end CryptoGen

end FabricCommon
