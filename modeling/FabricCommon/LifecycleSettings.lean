import FabricCommon.LifecycleOperation
import FabricCommon.StepRun

namespace FabricCommon

open LifecycleWorld

/-- What the caller has set: the two settings and the configs as the caller wrote them. -/
structure LifecycleSettings where
  endorsementPolicy : Option EndorsementPolicy
  collectionsConfig : Option (List (Text × ConfigRef))
  heap : ConfigHeap

/-- A new operation object that holds only these settings. -/
def LifecycleSettings.world (g : LifecycleSettings) : LifecycleWorld :=
  ⟨⟨g.endorsementPolicy, g.collectionsConfig, .fresh⟩, g.heap⟩

/-- Only the caller's own steps change the settings in force. -/
def LifecycleSettings.step (g : LifecycleSettings) : LifecycleStep → LifecycleSettings
  | .setEndorsementPolicy endorsementPolicy => { g with endorsementPolicy := endorsementPolicy }
  | .setCollectionsConfig collectionsConfig => { g with collectionsConfig := collectionsConfig }
  | .editConfig ref edit =>
    { g with heap := Function.update g.heap ref (edit.apply (g.heap ref)) }
  | _ => g

def settingsAfter (heap : ConfigHeap) (xs : List LifecycleStep) : LifecycleSettings :=
  xs.foldl LifecycleSettings.step ⟨none, none, heap⟩

/-- The part of a definition that comes from the settings and the call. -/
structure SentSettings where
  validation_parameter : Option Buffer
  collections : Option (List StaticCollectionConfig)
  init_required : Option Bool

def DefinitionArgs.settings (definition : DefinitionArgs) : SentSettings :=
  ⟨definition.validation_parameter, definition.collections, definition.init_required⟩

def LifecycleEffect.settings : LifecycleEffect → Option SentSettings
  | .proposal ⟨_, .approve definition _⟩ => some definition.settings
  | .proposal ⟨_, .definition definition⟩ => some definition.settings
  | _ => none

/-- What a call has sent of the settings, when it got as far as sending its definition. -/
def OperationOutcome.settings (outcome : OperationOutcome) : Option SentSettings :=
  outcome.effects.findSome? LifecycleEffect.settings

/-- Two configs that differ at most in what the operation writes. -/
def Alike (config config' : CollectionSetting) : Prop :=
  { config with endorsement_policy := none } = { config' with endorsement_policy := none }

structure Follows (g : LifecycleSettings) (w : LifecycleWorld) : Prop where
  endorsementPolicy : w.operation.endorsementPolicy = g.endorsementPolicy
  collectionsConfig : w.operation.collectionsConfig = g.collectionsConfig
  heap : ∀ ref, Alike (w.heap ref) (g.heap ref)

section

variable {protos : LifecycleProtos} {g : LifecycleSettings} {w : LifecycleWorld}
  {config config' : CollectionSetting}

theorem Alike.edit (h : Alike config config') (edit : ConfigEdit) :
    Alike (edit.apply config) (edit.apply config') := by
  obtain ⟨_, _, _, _, _, _, _, _⟩ := config
  obtain ⟨_, _, _, _, _, _, _, _⟩ := config'
  simp only [Alike, CollectionSetting.mk.injEq, and_true] at h
  obtain ⟨rfl, rfl, rfl, rfl, rfl, rfl, rfl⟩ := h
  cases edit <;> rfl

theorem Alike.written (h : Alike config config') (policy : Option ApplicationPolicy) :
    Alike { config with endorsement_policy := policy } config' := h

theorem assignConfig_alike {assigned : CollectionSetting}
    (h : assignConfig config = .ok assigned) (alike : Alike config config') :
    Alike assigned config' := by
  unfold assignConfig at h
  split at h
  next => cases Except.ok.inj h; exact alike
  next policy _ =>
    cases built : applicationPolicyBuilder policy with
    | error err => simp [built, Except.map] at h
    | ok applicationPolicy =>
      simp only [built, Except.map, Except.ok.injEq] at h
      subst h
      exact alike.written _

theorem assignCollections_alike (entries : List (Text × ConfigRef)) {heap heap' : ConfigHeap}
    (h : ∀ ref, Alike (heap ref) (heap' ref)) :
    ∀ ref, Alike ((assignCollections entries heap).1 ref) (heap' ref) := by
  induction entries generalizing heap with
  | nil => exact h
  | cons entry entries ih =>
    obtain ⟨name, ref⟩ := entry
    simp only [assignCollections]
    split
    next => exact h
    next assigned eq =>
      apply ih
      intro ref'
      by_cases same : ref' = ref
      · subst same
        rw [Function.update_self]
        exact assignConfig_alike eq (h ref')
      · rw [Function.update_of_ne same]
        exact h ref'

theorem assign_follows (protos : LifecycleProtos) (h : Follows g w) (init_required : Option Bool) :
    Follows g (w.assign protos init_required).1 := by
  have policy : Follows g (w.assignPolicy protos).1 := by
    unfold assignPolicy
    split
    next => exact h
    next =>
      split
      next => exact h
      next => exact ⟨h.endorsementPolicy, h.collectionsConfig, h.heap⟩
  have configs : ∀ {w' : LifecycleWorld}, Follows g w' → Follows g w'.assignConfigs.1 := by
    intro w' h'
    unfold assignConfigs
    split
    next => exact h'
    next entries _ =>
      have alike := assignCollections_alike entries h'.heap
      split
      next heap err eq =>
        rw [eq] at alike
        exact ⟨h'.endorsementPolicy, h'.collectionsConfig, alike⟩
      next heap configs eq =>
        rw [eq] at alike
        exact ⟨h'.endorsementPolicy, h'.collectionsConfig, alike⟩
  unfold assign
  split
  next w' err eq => rw [eq] at policy; exact policy
  next w' eq =>
    rw [eq] at policy
    have after := configs policy
    split
    next w'' err eq' => rw [eq'] at after; exact after
    next w'' eq' =>
      rw [eq'] at after
      exact ⟨after.endorsementPolicy, after.collectionsConfig, after.heap⟩

theorem approveForMyOrg_request (p : LifecycleProposal) (id : DefinitionId)
    (PackageID : Option String) (peers : Except String ProposalResponse) :
    ∃ fcn source, (p.approveForMyOrg id PackageID peers).request =
      some ⟨fcn, .approve (p.propertyAssign id) source⟩ := by
  simp only [LifecycleProposal.approveForMyOrg]
  split <;> exact ⟨_, _, rfl⟩

theorem checkCommitReadiness_request (protos : LifecycleProtos) (p : LifecycleProposal)
    (id : DefinitionId) (peers : Except String ProposalResponse) :
    ∃ fcn, (p.checkCommitReadiness protos id peers).request =
      some ⟨fcn, .definition (p.propertyAssign id)⟩ := by
  simp only [LifecycleProposal.checkCommitReadiness]
  split <;> exact ⟨_, rfl⟩

theorem queryChaincodeDefinition_request (protos : LifecycleProtos) (p : LifecycleProposal)
    (name : Option String) (peers : Except String ProposalResponse) :
    ∃ fcn queried, (p.queryChaincodeDefinition protos name peers).request =
      some ⟨fcn, .queryDefinition queried⟩ := by
  simp only [LifecycleProposal.queryChaincodeDefinition]
  split
  next => exact ⟨_, _, rfl⟩
  next => split <;> exact ⟨_, _, rfl⟩

/-- What `assign` leaves on the proposal object, which is what is sent. -/
def sentBy : LifecycleWorld × Except LifecycleError Unit → Option SentSettings
  | (_, .error _) => none
  | (w, .ok ()) =>
    some (w.operation.proposal.propertyAssign ⟨none, "", 0⟩).settings

/-- The calls that send a definition, with their `init_required`. -/
def LifecycleStep.definition : LifecycleStep → Option (Option Bool)
  | .approve request _ _ _ => some request.init_required
  | .checkCommitReadiness request _ => some request.init_required
  | .commitChaincodeDefinition request _ => some request.init_required
  | _ => none

theorem approve_settings (request : DefinitionRequest) (package_id : Option String)
    (waitForConsensus : Nat) (env : LifecycleEnv) :
    (w.approve protos request package_id waitForConsensus env).settings =
      sentBy (w.assign protos request.init_required) := by
  unfold OperationOutcome.settings
  simp only [LifecycleWorld.approve]
  split
  next w' err eq => rw [eq]; rfl
  next w' eq =>
    rw [eq]
    obtain ⟨fcn, source, sent⟩ := approveForMyOrg_request w'.operation.proposal
      ⟨request.name, if truthy request.version then interpolate request.version
        else defaultVersion request.sequence, request.sequence⟩ package_id env.peers
    simp only [sent]
    split
    next => rfl
    next =>
      split
      next => rfl
      next => split <;> rfl

theorem checkCommitReadiness_settings (request : DefinitionRequest) (env : LifecycleEnv) :
    (w.checkCommitReadiness protos request env).settings =
      sentBy (w.assign protos request.init_required) := by
  unfold OperationOutcome.settings
  simp only [LifecycleWorld.checkCommitReadiness]
  split
  next w' err eq => rw [eq]; rfl
  next w' eq =>
    rw [eq]
    obtain ⟨fcn, sent⟩ := checkCommitReadiness_request protos w'.operation.proposal
      ⟨request.name, request.version.getD (defaultVersion request.sequence), request.sequence⟩
      env.peers
    simp only [sent]
    rfl

theorem commitChaincodeDefinition_settings (request : DefinitionRequest) (env : LifecycleEnv) :
    (w.commitChaincodeDefinition protos request env).settings =
      sentBy (w.assign protos request.init_required) := by
  unfold OperationOutcome.settings
  simp only [LifecycleWorld.commitChaincodeDefinition]
  split
  next w' err eq => rw [eq]; rfl
  next w' eq =>
    rw [eq]
    split
    next => rfl
    next =>
      split
      next => rfl
      next => split <;> rfl

theorem outcome_settings (x : LifecycleStep) :
    (w.outcome protos x).settings =
      x.definition.bind fun init_required => sentBy (w.assign protos init_required) := by
  cases x with
  | approve request package_id waitForConsensus env =>
    exact approve_settings request package_id waitForConsensus env
  | checkCommitReadiness request env => exact checkCommitReadiness_settings request env
  | commitChaincodeDefinition request env =>
    exact commitChaincodeDefinition_settings request env
  | queryChaincodeDefinition name env =>
    obtain ⟨fcn, queried, sent⟩ := queryChaincodeDefinition_request protos w.operation.proposal name
      env.peers
    simp only [LifecycleWorld.outcome, LifecycleWorld.queryChaincodeDefinition,
      OperationOutcome.settings, sent]
    rfl
  | setEndorsementPolicy endorsementPolicy => rfl
  | setCollectionsConfig collectionsConfig => rfl
  | editConfig ref edit => rfl

theorem Follows.setProposal (h : Follows g w) (p : LifecycleProposal) :
    Follows g (w.setProposal p) := ⟨h.endorsementPolicy, h.collectionsConfig, h.heap⟩

theorem editConfig_follows (h : Follows g w) (ref : ConfigRef) (edit : ConfigEdit) :
    Follows (g.step (.editConfig ref edit)) (w.step protos (.editConfig ref edit)) := by
  refine ⟨h.endorsementPolicy, h.collectionsConfig, fun ref' => ?_⟩
  by_cases same : ref' = ref
  · subst same
    simp only [LifecycleWorld.step, LifecycleWorld.outcome, LifecycleSettings.step,
      Function.update_self]
    exact (h.heap ref').edit edit
  · simp only [LifecycleWorld.step, LifecycleWorld.outcome, LifecycleSettings.step,
      Function.update_of_ne same]
    exact h.heap ref'

theorem approve_follows (h : Follows g w) (request : DefinitionRequest)
    (package_id : Option String) (waitForConsensus : Nat) (env : LifecycleEnv) :
    Follows g (w.approve protos request package_id waitForConsensus env).world := by
  have follows := assign_follows protos h request.init_required
  simp only [LifecycleWorld.approve]
  split
  next w' err eq => rw [eq] at follows; exact follows
  next w' eq =>
    rw [eq] at follows
    split
    next => exact follows.setProposal _
    next =>
      split
      next => exact follows.setProposal _
      next => split <;> exact (follows.setProposal _).setProposal _

theorem checkCommitReadiness_follows (h : Follows g w) (request : DefinitionRequest)
    (env : LifecycleEnv) : Follows g (w.checkCommitReadiness protos request env).world := by
  have follows := assign_follows protos h request.init_required
  simp only [LifecycleWorld.checkCommitReadiness]
  split
  next w' err eq => rw [eq] at follows; exact follows
  next w' eq =>
    rw [eq] at follows
    exact follows.setProposal _

theorem commitChaincodeDefinition_follows (h : Follows g w) (request : DefinitionRequest)
    (env : LifecycleEnv) : Follows g (w.commitChaincodeDefinition protos request env).world := by
  have follows := assign_follows protos h request.init_required
  simp only [LifecycleWorld.commitChaincodeDefinition]
  split
  next w' err eq => rw [eq] at follows; exact follows
  next w' eq =>
    rw [eq] at follows
    split
    next => exact follows.setProposal _
    next =>
      split
      next => exact follows.setProposal _
      next => split <;> exact follows.setProposal _

theorem step_follows (h : Follows g w) (x : LifecycleStep) :
    Follows (g.step x) (w.step protos x) := by
  cases x with
  | setEndorsementPolicy endorsementPolicy => exact ⟨rfl, h.collectionsConfig, h.heap⟩
  | setCollectionsConfig collectionsConfig => exact ⟨h.endorsementPolicy, rfl, h.heap⟩
  | editConfig ref edit => exact editConfig_follows h ref edit
  | approve request package_id waitForConsensus env =>
    exact approve_follows h request package_id waitForConsensus env
  | checkCommitReadiness request env => exact checkCommitReadiness_follows h request env
  | commitChaincodeDefinition request env => exact commitChaincodeDefinition_follows h request env
  | queryChaincodeDefinition name env => exact h.setProposal _

end

end FabricCommon
