import FabricCommon.LifecycleProposal
import Mathlib.Logic.Function.Basic

namespace FabricCommon

/-- The caller's config objects, which the operation holds by reference. -/
abbrev ConfigRef := Nat
abbrev ConfigHeap := ConfigRef → CollectionSetting

structure LifecycleOperation where
  endorsementPolicy : Option EndorsementPolicy
  collectionsConfig : Option (List (Text × ConfigRef))
  proposal : LifecycleProposal

structure LifecycleWorld where
  operation : LifecycleOperation
  heap : ConfigHeap

/-- The argument object of `approve`, `checkCommitReadiness` and `commitChaincodeDefinition`. -/
structure DefinitionRequest where
  name : Option String
  sequence : Nat
  version : Option String
  init_required : Option Bool
  deriving DecidableEq, Repr

/-- What the peers, the orderer (once for each broadcast) and the event hub answer to a call. -/
structure LifecycleEnv where
  peers : Except String ProposalResponse
  answers : List (Except String CommitResponse)
  finality : Except String Unit

inductive LifecycleEffect where
  | proposal (request : LifecycleRequest)
  | broadcast
  | sleep (ms : Nat)
  | waitForTx

structure OperationOutcome where
  world : LifecycleWorld
  effects : List LifecycleEffect
  result : Except LifecycleError Unit

def defaultVersion (sequence : Nat) : String := toString sequence

namespace LifecycleWorld

/-- A new operation object next to the caller's configs. -/
def fresh (heap : ConfigHeap) : LifecycleWorld := ⟨⟨none, none, .fresh⟩, heap⟩

def setProposal (w : LifecycleWorld) (p : LifecycleProposal) : LifecycleWorld :=
  { w with operation := { w.operation with proposal := p } }

def setEndorsementPolicy (w : LifecycleWorld) (endorsementPolicy : Option EndorsementPolicy) :
    LifecycleWorld :=
  { w with operation := { w.operation with endorsementPolicy := endorsementPolicy } }

def setCollectionsConfig (w : LifecycleWorld)
    (collectionsConfig : Option (List (Text × ConfigRef))) : LifecycleWorld :=
  { w with operation := { w.operation with collectionsConfig := collectionsConfig } }

end LifecycleWorld

/-- The `endorsement_policy` that is written to a config before it is translated. -/
def assignConfig (config : CollectionSetting) : Except JsError CollectionSetting :=
  match config.endorsementPolicy with
  | none => .ok config
  | some collectionEndorsementPolicy =>
    (applicationPolicyBuilder collectionEndorsementPolicy).map fun policy =>
      { config with endorsement_policy := some policy }

/-- The `map` over the entries of `collectionsConfig`, writing each config in place. -/
def assignCollections : List (Text × ConfigRef) → ConfigHeap →
    ConfigHeap × Except JsError (List StaticCollectionConfig)
  | [], heap => (heap, .ok [])
  | (name, ref) :: entries, heap =>
    match assignConfig (heap ref) with
    | .error err => (heap, .error err)
    | .ok config =>
      let (heap, configs) := assignCollections entries (Function.update heap ref config)
      (heap, configs.map (SideDB.buildCollectionConfig name config :: ·))

namespace LifecycleWorld

variable (protos : LifecycleProtos)

def assignPolicy (w : LifecycleWorld) : LifecycleWorld × Except LifecycleError Unit :=
  match w.operation.endorsementPolicy with
  | none => (w, .ok ())
  | some endorsementPolicy =>
    match applicationPolicyBuilder endorsementPolicy with
    | .error err => (w, .error (.thrown err))
    | .ok applicationPolicy =>
      (w.setProposal (w.operation.proposal.setValidationParameter protos applicationPolicy),
        .ok ())

def assignConfigs (w : LifecycleWorld) : LifecycleWorld × Except LifecycleError Unit :=
  match w.operation.collectionsConfig with
  | none => (w, .ok ())
  | some collectionsConfig =>
    match assignCollections collectionsConfig w.heap with
    | (heap, .error err) => ({ w with heap := heap }, .error (.thrown err))
    | (heap, .ok configs) =>
      ({ w with heap := heap }.setProposal
        (w.operation.proposal.setCollectionConfigPackage configs), .ok ())

def assign (w : LifecycleWorld) (init_required : Option Bool) :
    LifecycleWorld × Except LifecycleError Unit :=
  match w.assignPolicy protos with
  | (w, .error err) => (w, .error err)
  | (w, .ok ()) =>
    match w.assignConfigs with
    | (w, .error err) => (w, .error err)
    | (w, .ok ()) =>
      (w.setProposal { w.operation.proposal with init_required := init_required.getD false },
        .ok ())

/-- `_commit` of `approve`: one broadcast for each answer until a leader is elected. -/
def commitUntilLeader (p : LifecycleProposal) (waitForConsensus : Nat) :
    List (Except String CommitResponse) → List LifecycleEffect × Except LifecycleError Unit
  | [] => ([.broadcast], .error .unanswered)
  | answer :: answers =>
    match p.commit answer with
    | .error err => ([.broadcast], .error err)
    | .ok commitResult =>
      if commitResult.status = CommonResponseStatus.SERVICE_UNAVAILABLE ∧
          commitResult.info = "no Raft leader" then
        if waitForConsensus ≠ 0 then
          let (effects, result) := commitUntilLeader p waitForConsensus answers
          (.broadcast :: .sleep waitForConsensus :: effects, result)
        else ([.broadcast], .error (.noLeader commitResult.status commitResult.info))
      else
        match CommitSuccess commitResult with
        | .error err => ([.broadcast], .error (.intercepted err))
        | .ok _ => ([.broadcast], .ok ())

def waitForFinality (w : LifecycleWorld) (effects : List LifecycleEffect)
    (finality : Except String Unit) : OperationOutcome :=
  ⟨w, effects ++ [.waitForTx], finality.mapError .finality⟩

def approve (w : LifecycleWorld) (request : DefinitionRequest) (package_id : Option String)
    (waitForConsensus : Nat) (env : LifecycleEnv) : OperationOutcome :=
  let version :=
    if truthy request.version then interpolate request.version
    else defaultVersion request.sequence
  match w.assign protos request.init_required with
  | (w, .error err) => ⟨w, [], .error err⟩
  | (w, .ok ()) =>
    let outcome := w.operation.proposal.approveForMyOrg
      ⟨request.name, version, request.sequence⟩ package_id env.peers
    let w := w.setProposal outcome.proposal
    let sent := outcome.request.toList.map .proposal
    match outcome.result with
    | .error err => ⟨w, sent, .error err⟩
    | .ok result =>
      if result.noChange then ⟨w, sent, .ok ()⟩
      else
        let w := w.setProposal { w.operation.proposal with assertCommitResult := .null }
        match commitUntilLeader w.operation.proposal waitForConsensus env.answers with
        | (effects, .error err) => ⟨w, sent ++ effects, .error err⟩
        | (effects, .ok ()) => w.waitForFinality (sent ++ effects) env.finality

def checkCommitReadiness (w : LifecycleWorld) (request : DefinitionRequest)
    (env : LifecycleEnv) : OperationOutcome :=
  let version := request.version.getD (defaultVersion request.sequence)
  match w.assign protos request.init_required with
  | (w, .error err) => ⟨w, [], .error err⟩
  | (w, .ok ()) =>
    let outcome := w.operation.proposal.checkCommitReadiness protos
      ⟨request.name, version, request.sequence⟩ env.peers
    ⟨w.setProposal outcome.proposal, outcome.request.toList.map .proposal,
      outcome.result.map fun _ => ()⟩

def commitChaincodeDefinition (w : LifecycleWorld) (request : DefinitionRequest)
    (env : LifecycleEnv) : OperationOutcome :=
  let version := request.version.getD (defaultVersion request.sequence)
  match w.assign protos request.init_required with
  | (w, .error err) => ⟨w, [], .error err⟩
  | (w, .ok ()) =>
    let outcome := w.operation.proposal.commitChaincodeDefinition
      ⟨request.name, version, request.sequence⟩ env.peers
    let w := w.setProposal outcome.proposal
    let sent := outcome.request.toList.map .proposal
    match outcome.result with
    | .error err => ⟨w, sent, .error err⟩
    | .ok _ =>
      let sent := sent ++ [.broadcast]
      match env.answers with
      | [] => ⟨w, sent, .error .unanswered⟩
      | answer :: _ =>
        match w.operation.proposal.commit answer with
        | .error err => ⟨w, sent, .error err⟩
        | .ok _ => w.waitForFinality sent env.finality

def queryChaincodeDefinition (w : LifecycleWorld) (name : Option String) (env : LifecycleEnv) :
    OperationOutcome :=
  let outcome := w.operation.proposal.queryChaincodeDefinition protos name env.peers
  ⟨w.setProposal outcome.proposal, outcome.request.toList.map .proposal,
    outcome.result.map fun _ => ()⟩

end LifecycleWorld

/-- An assignment of the caller to one field of a config object. -/
inductive ConfigEdit where
  | identities (value : List Text)
  | required_peer_count (value : Nat)
  | maximum_peer_count (value : Option Nat)
  | block_to_live (value : Option Nat)
  | member_only_write (value : Option Bool)
  | member_only_read (value : Option Bool)
  | endorsementPolicy (value : Option EndorsementPolicy)
  | endorsement_policy (value : Option ApplicationPolicy)

def ConfigEdit.apply (config : CollectionSetting) : ConfigEdit → CollectionSetting
  | .identities value => { config with identities := value }
  | .required_peer_count value => { config with required_peer_count := value }
  | .maximum_peer_count value => { config with maximum_peer_count := value }
  | .block_to_live value => { config with block_to_live := value }
  | .member_only_write value => { config with member_only_write := value }
  | .member_only_read value => { config with member_only_read := value }
  | .endorsementPolicy value => { config with endorsementPolicy := value }
  | .endorsement_policy value => { config with endorsement_policy := value }

/-- What the caller does: change a setting or a config object, or call an operation. -/
inductive LifecycleStep where
  | setEndorsementPolicy (endorsementPolicy : Option EndorsementPolicy)
  | setCollectionsConfig (collectionsConfig : Option (List (Text × ConfigRef)))
  | editConfig (ref : ConfigRef) (edit : ConfigEdit)
  | approve (request : DefinitionRequest) (package_id : Option String) (waitForConsensus : Nat)
      (env : LifecycleEnv)
  | checkCommitReadiness (request : DefinitionRequest) (env : LifecycleEnv)
  | commitChaincodeDefinition (request : DefinitionRequest) (env : LifecycleEnv)
  | queryChaincodeDefinition (name : Option String) (env : LifecycleEnv)

namespace LifecycleWorld

variable (protos : LifecycleProtos)

def outcome (w : LifecycleWorld) : LifecycleStep → OperationOutcome
  | .setEndorsementPolicy endorsementPolicy =>
    ⟨w.setEndorsementPolicy endorsementPolicy, [], .ok ()⟩
  | .setCollectionsConfig collectionsConfig =>
    ⟨w.setCollectionsConfig collectionsConfig, [], .ok ()⟩
  | .editConfig ref edit =>
    ⟨{ w with heap := Function.update w.heap ref (edit.apply (w.heap ref)) }, [], .ok ()⟩
  | .approve request package_id waitForConsensus env =>
    w.approve protos request package_id waitForConsensus env
  | .checkCommitReadiness request env => w.checkCommitReadiness protos request env
  | .commitChaincodeDefinition request env => w.commitChaincodeDefinition protos request env
  | .queryChaincodeDefinition name env => w.queryChaincodeDefinition protos name env

def step (w : LifecycleWorld) (x : LifecycleStep) : LifecycleWorld := (w.outcome protos x).world

def after (w : LifecycleWorld) (xs : List LifecycleStep) : LifecycleWorld :=
  xs.foldl (step protos) w

end LifecycleWorld

/-- A caller that has no configs. -/
def emptyConfigs : ConfigHeap := fun _ => ⟨[], 0, none, none, none, none, none, none⟩

end FabricCommon
