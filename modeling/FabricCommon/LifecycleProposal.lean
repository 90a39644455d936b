import FabricCommon.LifecycleHandlers
import FabricCommon.CollectionConfig
import FabricCommon.PanicRun
import FabricCommon.ProtoLong

namespace FabricCommon

open ProtoLong

abbrev Buffer := List UInt8

structure InstalledPackage where
  package_id : String
  label : String
  deriving DecidableEq, Repr

/-- For each channel the names and versions of the chaincodes that use a package. -/
abbrev References := List (String × List (String × String))

structure InstalledChaincode where
  package_id : String
  label : String
  references : References
  deriving DecidableEq, Repr

/-- The fields that a definition has in both of the results it is sent in, with its sequence and its
`validation_parameter` as they are on the wire or as a query leaves them. -/
structure DefinitionFields (Sequence Parameter : Type) where
  sequence : Sequence
  version : String
  endorsement_plugin : String
  validation_plugin : String
  validation_parameter : Parameter
  collections : Option (List StaticCollectionConfig)
  init_required : Bool

structure QueryChaincodeDefinitionResult where
  fields : DefinitionFields SLong Buffer
  approvals : List (String × Bool)

/-- An element of a `QueryChaincodeDefinitionsResult`. -/
structure ChaincodeDefinition where
  name : String
  fields : DefinitionFields SLong Buffer

/-- A sequence that a query has converted or left. -/
inductive QueriedSequence where
  | number (n : Int)
  | long (n : Long)
  deriving DecidableEq, Repr

/-- What a query gives of a definition: one with a name has `approvals`, one without has the
name. -/
structure QueriedDefinition where
  name : Option String
  fields : DefinitionFields QueriedSequence ApplicationPolicy
  approvals : Option (List (String × Bool))

/-- The generated protobuf classes, as far as a call uses them. -/
structure LifecycleProtos where
  encodeApplicationPolicy : ApplicationPolicy → Buffer
  decodeApplicationPolicy : Buffer → Except String ApplicationPolicy
  decodeInstallChaincodeResult : Buffer → Except String InstalledPackage
  decodeQueryInstalledChaincodeResult : Buffer → Except String InstalledChaincode
  decodeQueryInstalledChaincodesResult : Buffer → Except String (List InstalledChaincode)
  decodeCheckCommitReadinessResult : Buffer → Except String (List (String × Bool))
  decodeQueryChaincodeDefinitionResult : Buffer → Except String QueryChaincodeDefinitionResult
  decodeQueryChaincodeDefinitionsResult : Buffer → Except String (List ChaincodeDefinition)
  /-- `ChaincodeDefinition.decode` of an element that is decoded already. -/
  decodeChaincodeDefinition : ChaincodeDefinition → Except String ChaincodeDefinition

inductive LifecycleError where
  | thrown (err : JsError)
  | file (message : String)
  | transport (message : String)
  | intercepted (err : InterceptorError)
  | decode (message : String)
  | noLeader (status info : String)
  | finality (message : String)
  | unanswered
  deriving DecidableEq, Repr

structure DefinitionId where
  name : Option String
  version : String
  sequence : Nat
  deriving DecidableEq, Repr

/-- A definition as it is sent. A field that is not set on the message is `none`. -/
structure DefinitionArgs where
  id : DefinitionId
  endorsement_plugin : Option String
  init_required : Option Bool
  validation_plugin : Option String
  validation_parameter : Option Buffer
  collections : Option (List StaticCollectionConfig)

inductive LifecycleArgs where
  | install (chaincode_install_package : Buffer)
  | queryInstalled (package_id : Option String)
  | approve (definition : DefinitionArgs) (local_package : Option String)
  | definition (definition : DefinitionArgs)
  | queryDefinition (name : Option String)

structure LifecycleRequest where
  fcn : String
  args : LifecycleArgs

inductive CommitResultAssert where
  | null
  | CommitSuccess
  deriving DecidableEq, Repr

structure LifecycleProposal where
  init_required : Bool
  endorsement_plugin : Option String
  validation_plugin : Option String
  validation_parameter : Option Buffer
  collectionConfigPackage : Option (List StaticCollectionConfig)
  assertProposalResult : ResultHandler
  assertCommitResult : CommitResultAssert

/-- What one call leaves behind: the proposal object, what it has sent to the peers, its result. -/
structure LifecycleOutcome (α : Type) where
  proposal : LifecycleProposal
  request : Option LifecycleRequest
  result : Except LifecycleError α

def getResponses (result : ProposalResponse) : List PeerResponse :=
  result.responses.map (·.response)

namespace LifecycleProposal

/-- The constructor. -/
def fresh : LifecycleProposal where
  init_required := true
  endorsement_plugin := none
  validation_plugin := none
  validation_parameter := none
  collectionConfigPackage := none
  assertProposalResult := .EndorseALL
  assertCommitResult := .CommitSuccess

variable (protos : LifecycleProtos)

def setResultHandler (p : LifecycleProposal) (handler : ResultHandler) : LifecycleProposal :=
  { p with assertProposalResult := handler }

def setValidationParameter (p : LifecycleProposal) (applicationPolicy : ApplicationPolicy) :
    LifecycleProposal :=
  { p with validation_parameter := some (protos.encodeApplicationPolicy applicationPolicy) }

def setCollectionConfigPackage (p : LifecycleProposal)
    (collectionConfigs : List StaticCollectionConfig) : LifecycleProposal :=
  { p with collectionConfigPackage := some collectionConfigs }

/-- `ProposalManager.send` when the peers answer `peers`. -/
def send (p : LifecycleProposal) (peers : Except String ProposalResponse) :
    Except LifecycleError ProposalResponse :=
  match peers with
  | .error message => .error (.transport message)
  | .ok results =>
    match p.assertProposalResult.apply results with
    | .error err => .error (.intercepted err)
    | .ok _ => .ok results

/-- `ProposalManager.commit` when the orderer answers `answer`. -/
def commit (p : LifecycleProposal) (answer : Except String CommitResponse) :
    Except LifecycleError CommitResponse :=
  match answer, p.assertCommitResult with
  | .error message, _ => .error (.transport message)
  | .ok result, .null => .ok result
  | .ok result, .CommitSuccess =>
    match CommitSuccess result with
    | .error err => .error (.intercepted err)
    | .ok result => .ok result

def propertyAssign (p : LifecycleProposal) (id : DefinitionId) : DefinitionArgs where
  id := id
  endorsement_plugin := if truthy p.endorsement_plugin then p.endorsement_plugin else none
  init_required := if p.init_required then some true else none
  validation_plugin := if truthy p.validation_plugin then p.validation_plugin else none
  validation_parameter := p.validation_parameter
  collections := p.collectionConfigPackage

structure InstallResult where
  result : ProposalResponse
  installed : Bool
  queryResults : List InstalledPackage

def decoded {α : Type} (decode : Buffer → Except String α) (responses : List PeerResponse) :
    Except LifecycleError (List α) :=
  (responses.mapM fun response => decode response.payload).mapError .decode

def installChaincode (p : LifecycleProposal) (readFileSync : String → Except String Buffer)
    (packageTarGz : String) (packageId : Option String) (peers : Except String ProposalResponse) :
    LifecycleOutcome InstallResult :=
  match readFileSync packageTarGz with
  | .error message => ⟨p, none, .error (.file message)⟩
  | .ok fileContent =>
    let request : LifecycleRequest := ⟨"InstallChaincode", .install fileContent⟩
    let p := p.setResultHandler (.skipIfInstalled packageId)
    match p.send peers with
    | .error err => ⟨p, some request, .error err⟩
    | .ok result =>
      let responses := getResponses result
      let installed := responses.all (hasInstalled · packageId)
      match decoded protos.decodeInstallChaincodeResult responses with
      | .error err => ⟨p, some request, .error err⟩
      | .ok queryResults =>
        ⟨p.setResultHandler .EndorseALL, some request, .ok ⟨result, installed, queryResults⟩⟩

/-- One object for each peer, from package ids to their references. -/
def queryInstalledChaincodes (p : LifecycleProposal) (packageId : Option String)
    (peers : Except String ProposalResponse) :
    LifecycleOutcome (List (List (String × References))) :=
  let fcn := if truthy packageId then "QueryInstalledChaincode" else "QueryInstalledChaincodes"
  let package_id := if truthy packageId then packageId else none
  let entry (chaincode : InstalledChaincode) := (chaincode.package_id, chaincode.references)
  let decode payload :=
    if truthy packageId then
      (protos.decodeQueryInstalledChaincodeResult payload).map fun chaincode => [entry chaincode]
    else (protos.decodeQueryInstalledChaincodesResult payload).map (·.map entry)
  let request : LifecycleRequest := ⟨fcn, .queryInstalled package_id⟩
  match p.send peers with
  | .error err => ⟨p, some request, .error err⟩
  | .ok result => ⟨p, some request, decoded decode (getResponses result)⟩

structure ApproveResult where
  result : ProposalResponse
  noChange : Bool

def approveForMyOrg (p : LifecycleProposal) (id : DefinitionId) (PackageID : Option String)
    (peers : Except String ProposalResponse) : LifecycleOutcome ApproveResult :=
  let local_package := if truthy PackageID then PackageID else none
  let request : LifecycleRequest :=
    ⟨"ApproveChaincodeDefinitionForMyOrg", .approve (p.propertyAssign id) local_package⟩
  let p := p.setResultHandler (.skipIfNoChange id.name id.sequence)
  match p.send peers with
  | .error err => ⟨p, some request, .error err⟩
  | .ok result =>
    let noChange := (getResponses result).all (hasNoChange · id.name id.sequence)
    ⟨p, some request, .ok ⟨result, noChange⟩⟩

def checkCommitReadiness (p : LifecycleProposal) (id : DefinitionId)
    (peers : Except String ProposalResponse) :
    LifecycleOutcome (List (List (String × Bool))) :=
  let request : LifecycleRequest := ⟨"CheckCommitReadiness", .definition (p.propertyAssign id)⟩
  match p.send peers with
  | .error err => ⟨p, some request, .error err⟩
  | .ok result =>
    ⟨p, some request, decoded protos.decodeCheckCommitReadinessResult (getResponses result)⟩

def commitChaincodeDefinition (p : LifecycleProposal) (id : DefinitionId)
    (peers : Except String ProposalResponse) : LifecycleOutcome ProposalResponse :=
  ⟨p, some ⟨"CommitChaincodeDefinition", .definition (p.propertyAssign id)⟩, p.send peers⟩

structure QueryDefinitionResult where
  notFound : Bool
  queryResults : List (List QueriedDefinition)

def singleChaincodeDefinitionAmend (sequence : QueriedSequence)
    (chaincodeDefinition : DefinitionFields SLong Buffer) :
    Except String (DefinitionFields QueriedSequence ApplicationPolicy) := do
  let validation_parameter ←
    protos.decodeApplicationPolicy chaincodeDefinition.validation_parameter
  return { chaincodeDefinition with sequence, validation_parameter }

/-- One definition, its sequence converted. -/
def decodeNamed (payload : Buffer) : Except String QueriedDefinition := do
  let resultSingle ← protos.decodeQueryChaincodeDefinitionResult payload
  let sequence := QueriedSequence.number resultSingle.fields.sequence.val.toInt
  let fields ← singleChaincodeDefinitionAmend protos sequence resultSingle.fields
  return ⟨none, fields, some resultSingle.approvals⟩

/-- All definitions, their sequences as they were decoded. -/
def decodeListed (payload : Buffer) : Except String (List QueriedDefinition) := do
  let chaincode_definitions ← protos.decodeQueryChaincodeDefinitionsResult payload
  chaincode_definitions.mapM fun definition => do
    let resultSingle ← protos.decodeChaincodeDefinition definition
    let sequence := QueriedSequence.long resultSingle.fields.sequence.val
    let fields ← singleChaincodeDefinitionAmend protos sequence resultSingle.fields
    return ⟨some resultSingle.name, fields, none⟩

/-- With a name each peer gives one definition, without one the list of all. -/
def decodeDefinitions (name : Option String) (payload : Buffer) :
    Except String (List QueriedDefinition) :=
  if truthy name then (decodeNamed protos payload).map fun definition => [definition]
  else decodeListed protos payload

def queryChaincodeDefinition (p : LifecycleProposal) (name : Option String)
    (peers : Except String ProposalResponse) : LifecycleOutcome QueryDefinitionResult :=
  let fcn := if truthy name then "QueryChaincodeDefinition" else "QueryChaincodeDefinitions"
  let request : LifecycleRequest :=
    ⟨fcn, .queryDefinition (if truthy name then name else none)⟩
  let p := p.setResultHandler (.skipIfNoDefinition name)
  match p.send peers with
  | .error err => ⟨p, some request, .error err⟩
  | .ok result =>
    let responses := getResponses result
    let notFound := responses.all (hasNoDefinition · name)
    match decoded (decodeDefinitions protos name) responses with
    | .error err => ⟨p, some request, .error err⟩
    | .ok queryResults => ⟨p, some request, .ok ⟨notFound, queryResults⟩⟩

variable {protos : LifecycleProtos} {p : LifecycleProposal}

theorem send_eq_ok {result sent : ProposalResponse} :
    p.send (.ok result) = .ok sent ↔ sent = result ∧ result.errors = [] ∧
      ∀ r ∈ result.responses, r.Failed → p.assertProposalResult.tolerates r.response = true := by
  rw [← handler_apply_eq_ok]
  simp only [send]
  cases applied : p.assertProposalResult.apply result with
  | error err => simp
  | ok accepted =>
    obtain ⟨rfl, _⟩ := handler_apply_eq_ok.mp applied
    simp [eq_comm]

theorem decoded_eq_ok {α : Type} {decode : Buffer → Except String α}
    {responses : List PeerResponse} {values : List α} :
    decoded decode responses = .ok values ↔
      List.Forall₂ (fun response value => decode response.payload = .ok value)
        responses values := by
  rw [← PanicRun.mapM_eq_ok, decoded, PanicRun.mapError_eq_ok]

/-- A query over peers whose failures are all tolerated comes to what their payloads decode to. -/
theorem queryChaincodeDefinition_result {name : Option String} {result : ProposalResponse}
    (errors : result.errors = [])
    (tolerated : ∀ r ∈ result.responses, r.Failed →
      (ResultHandler.skipIfNoDefinition name).tolerates r.response = true) :
    (p.queryChaincodeDefinition protos name (.ok result)).result =
      (decoded (decodeDefinitions protos name) (getResponses result)).map
        (⟨(getResponses result).all (hasNoDefinition · name), ·⟩) := by
  have sent : (p.setResultHandler (.skipIfNoDefinition name)).send (.ok result) = .ok result :=
    send_eq_ok.mpr ⟨rfl, errors, tolerated⟩
  simp only [queryChaincodeDefinition, sent]
  cases decoded (decodeDefinitions protos name) (getResponses result) <;> rfl

theorem queryChaincodeDefinition_eq_ok {name : Option String} {result : ProposalResponse}
    {out : QueryDefinitionResult}
    (run : (p.queryChaincodeDefinition protos name (.ok result)).result = .ok out) :
    List.Forall₂ (fun response definitions =>
      decodeDefinitions protos name response.payload = .ok definitions)
      (getResponses result) out.queryResults := by
  cases sent : (p.setResultHandler (.skipIfNoDefinition name)).send (.ok result) with
  | error err =>
    simp only [queryChaincodeDefinition, sent] at run
    cases run
  | ok accepted =>
    obtain ⟨rfl, errors, tolerated⟩ := send_eq_ok.mp sent
    rw [queryChaincodeDefinition_result errors tolerated] at run
    obtain ⟨queryResults, all, rfl⟩ := PanicRun.map_eq_ok.mp run
    exact decoded_eq_ok.mp all

end LifecycleProposal

/-- Empty messages, as the classes decode an empty payload. -/
def emptyProtos : LifecycleProtos where
  encodeApplicationPolicy _ := []
  decodeApplicationPolicy _ := .ok ⟨none, none⟩
  decodeInstallChaincodeResult _ := .ok ⟨"", ""⟩
  decodeQueryInstalledChaincodeResult _ := .ok ⟨"", "", []⟩
  decodeQueryInstalledChaincodesResult _ := .ok []
  decodeCheckCommitReadinessResult _ := .ok []
  decodeQueryChaincodeDefinitionResult _ :=
    .ok ⟨⟨int64 0, "", "", "", [], none, false⟩, []⟩
  decodeQueryChaincodeDefinitionsResult _ := .ok []
  decodeChaincodeDefinition _ := .error "illegal buffer"

end FabricCommon
