import FabricCommon.LifecycleOperation
import FabricCommon.StepRun

namespace FabricCommon

open LifecycleWorld

/-- The check of commit answers that is in force. -/
def LifecycleWorld.commitAssert (w : LifecycleWorld) : CommitResultAssert :=
  w.operation.proposal.assertCommitResult

/-- The call gets past its endorsement, after which nothing keeps it from its broadcast. -/
def OperationOutcome.Broadcasts (outcome : OperationOutcome) : Prop :=
  LifecycleEffect.broadcast ∈ outcome.effects

section

variable {protos : LifecycleProtos} {w : LifecycleWorld}

theorem assignPolicy_commitAssert (protos : LifecycleProtos) (w : LifecycleWorld) :
    (w.assignPolicy protos).1.commitAssert = w.commitAssert := by
  unfold assignPolicy
  split
  next => rfl
  next =>
    split
    next => rfl
    next => rfl

theorem assignConfigs_commitAssert : w.assignConfigs.1.commitAssert = w.commitAssert := by
  unfold assignConfigs
  split
  next => rfl
  next =>
    split
    next => rfl
    next => rfl

theorem assign_commitAssert (protos : LifecycleProtos) (w : LifecycleWorld)
    (init_required : Option Bool) :
    (w.assign protos init_required).1.commitAssert = w.commitAssert := by
  have policy := assignPolicy_commitAssert protos w
  unfold assign
  split
  next w' err eq => rw [eq] at policy; exact policy
  next w' eq =>
    rw [eq] at policy
    have configs := assignConfigs_commitAssert (w := w')
    split
    next w'' err eq' => rw [eq'] at configs; exact configs.trans policy
    next w'' eq' => rw [eq'] at configs; exact configs.trans policy

theorem approveForMyOrg_commitAssert (p : LifecycleProposal) (id : DefinitionId)
    (PackageID : Option String) (peers : Except String ProposalResponse) :
    (p.approveForMyOrg id PackageID peers).proposal.assertCommitResult = p.assertCommitResult := by
  simp only [LifecycleProposal.approveForMyOrg]
  split <;> rfl

theorem checkCommitReadiness_commitAssert (protos : LifecycleProtos) (p : LifecycleProposal)
    (id : DefinitionId) (peers : Except String ProposalResponse) :
    (p.checkCommitReadiness protos id peers).proposal = p := by
  simp only [LifecycleProposal.checkCommitReadiness]
  split <;> rfl

theorem queryChaincodeDefinition_commitAssert (p : LifecycleProposal) (name : Option String)
    (peers : Except String ProposalResponse) :
    (p.queryChaincodeDefinition protos name peers).proposal.assertCommitResult =
      p.assertCommitResult := by
  simp only [LifecycleProposal.queryChaincodeDefinition]
  split
  next => rfl
  next => split <;> rfl

theorem commitUntilLeader_broadcasts {p : LifecycleProposal} {waitForConsensus : Nat}
    {answers : List (Except String CommitResponse)} {effects : List LifecycleEffect}
    {result : Except LifecycleError Unit}
    (h : commitUntilLeader p waitForConsensus answers = (effects, result)) :
    LifecycleEffect.broadcast ∈ effects := by
  have first : effects = (commitUntilLeader p waitForConsensus answers).1 := by rw [h]
  rw [first]
  cases answers with
  | nil => simp [commitUntilLeader]
  | cons answer answers =>
    simp only [commitUntilLeader]
    split
    next => simp
    next =>
      split
      next =>
        split
        next => simp
        next => simp
      next =>
        split
        next => simp
        next => simp

theorem proposal_silent (request : Option LifecycleRequest) :
    LifecycleEffect.broadcast ∉ request.toList.map LifecycleEffect.proposal := by
  intro h
  obtain ⟨_, _, eq⟩ := List.mem_map.mp h
  cases eq

/-- An approval that gets as far as its broadcast switches the check off, any other keeps it. -/
theorem approve_commitAssert (protos : LifecycleProtos) (w : LifecycleWorld)
    (request : DefinitionRequest) (package_id : Option String) (waitForConsensus : Nat)
    (env : LifecycleEnv) {outcome : OperationOutcome}
    (h : w.approve protos request package_id waitForConsensus env = outcome) :
    (outcome.Broadcasts ∧ outcome.world.commitAssert = .null) ∨
      (¬ outcome.Broadcasts ∧ outcome.world.commitAssert = w.commitAssert) := by
  have assigned := assign_commitAssert protos w request.init_required
  subst h
  simp only [LifecycleWorld.approve]
  split
  next w' err eq =>
    rw [eq] at assigned
    exact Or.inr ⟨List.not_mem_nil, assigned⟩
  next w' eq =>
    rw [eq] at assigned
    have approved := fun id => approveForMyOrg_commitAssert w'.operation.proposal id package_id
      env.peers
    split
    next err refused => exact Or.inr ⟨proposal_silent _, (approved _).trans assigned⟩
    next result endorsed =>
      split
      next => exact Or.inr ⟨proposal_silent _, (approved _).trans assigned⟩
      next =>
        split
        next effects err eq' =>
          have sent := commitUntilLeader_broadcasts eq'
          exact Or.inl ⟨List.mem_append_right _ sent, rfl⟩
        next effects eq' =>
          have sent := commitUntilLeader_broadcasts eq'
          exact Or.inl ⟨List.mem_append_left _ (List.mem_append_right _ sent), rfl⟩

theorem checkCommitReadiness_keeps (request : DefinitionRequest) (env : LifecycleEnv) :
    (w.checkCommitReadiness protos request env).world.commitAssert = w.commitAssert := by
  have assigned := assign_commitAssert protos w request.init_required
  simp only [LifecycleWorld.checkCommitReadiness]
  split
  next w' err eq => rw [eq] at assigned; exact assigned
  next w' eq =>
    rw [eq] at assigned
    have same := fun id =>
      checkCommitReadiness_commitAssert protos w'.operation.proposal id env.peers
    refine Eq.trans ?_ assigned
    simp only [commitAssert, setProposal, same]

theorem commitChaincodeDefinition_keeps (request : DefinitionRequest) (env : LifecycleEnv) :
    (w.commitChaincodeDefinition protos request env).world.commitAssert = w.commitAssert := by
  have assigned := assign_commitAssert protos w request.init_required
  simp only [LifecycleWorld.commitChaincodeDefinition]
  split
  next w' err eq => rw [eq] at assigned; exact assigned
  next w' eq =>
    rw [eq] at assigned
    split
    next => exact assigned
    next =>
      split
      next => exact assigned
      next =>
        split
        next => exact assigned
        next => exact assigned

/-- The step is an approval that gets past its endorsement. -/
def ApprovalBroadcasts (protos : LifecycleProtos) (w : LifecycleWorld) : LifecycleStep → Prop
  | .approve request package_id waitForConsensus env =>
    (w.approve protos request package_id waitForConsensus env).Broadcasts
  | _ => False

theorem step_commitAssert (protos : LifecycleProtos) (w : LifecycleWorld) (x : LifecycleStep) :
    (w.step protos x).commitAssert = .null ↔
      w.commitAssert = .null ∨ ApprovalBroadcasts protos w x := by
  have kept : ∀ {w' : LifecycleWorld}, w'.commitAssert = w.commitAssert →
      (w'.commitAssert = .null ↔ w.commitAssert = .null ∨ False) := by
    intro w' same
    rw [same, or_false]
  cases x with
  | approve request package_id waitForConsensus env =>
    rcases approve_commitAssert protos w request package_id waitForConsensus env rfl with
      ⟨broadcasts, off⟩ | ⟨silent, same⟩
    · exact ⟨fun _ => Or.inr broadcasts, fun _ => off⟩
    · exact ⟨fun off => Or.inl (same ▸ off), fun h => same.trans (h.resolve_right silent)⟩
  | setEndorsementPolicy endorsementPolicy => exact kept rfl
  | setCollectionsConfig collectionsConfig => exact kept rfl
  | editConfig ref edit => exact kept rfl
  | checkCommitReadiness request env => exact kept (checkCommitReadiness_keeps request env)
  | commitChaincodeDefinition request env =>
    exact kept (commitChaincodeDefinition_keeps request env)
  | queryChaincodeDefinition name env =>
    exact kept (queryChaincodeDefinition_commitAssert _ name env.peers)

/-- An earlier approval of the run has got past its endorsement. -/
def ApprovedBefore (protos : LifecycleProtos) (heap : ConfigHeap) (xs : List LifecycleStep) :
    Prop :=
  ∃ before x rest, xs = before ++ x :: rest ∧
    ApprovalBroadcasts protos ((fresh heap).after protos before) x

theorem after_commitAssert (protos : LifecycleProtos) (heap : ConfigHeap)
    (xs : List LifecycleStep) :
    ((fresh heap).after protos xs).commitAssert = .null ↔ ApprovedBefore protos heap xs := by
  have raised := StepRun.foldl_raised_iff (I := fun w : LifecycleWorld => w.commitAssert = .null)
    (step_commitAssert protos) (s := fresh heap) xs
  have on : ¬ (fresh heap).commitAssert = .null := by
    intro off
    cases off
  exact raised.trans (or_iff_right on)

theorem commit_answer (p : LifecycleProposal) (r : CommitResponse) :
    p.commit (.ok r) =
      if p.assertCommitResult = .CommitSuccess ∧ ¬ r.Accepted then
        .error (.intercepted (.COMMIT_ERROR r.status r.info))
      else .ok r := by
  cases assert : p.assertCommitResult with
  | null => simp [LifecycleProposal.commit, assert]
  | CommitSuccess =>
    by_cases accepted : r.Accepted
    · simp [LifecycleProposal.commit, assert, CommitSuccess_accepted, accepted]
    · simp [LifecycleProposal.commit, assert, CommitSuccess_refused, accepted]

/-- What a commit does with the answer to its broadcast. -/
theorem commitChaincodeDefinition_answer {request : DefinitionRequest} {env : LifecycleEnv}
    {outcome : OperationOutcome} (h : w.commitChaincodeDefinition protos request env = outcome)
    (broadcasts : outcome.Broadcasts) {r : CommitResponse}
    {answers : List (Except String CommitResponse)} (answered : env.answers = .ok r :: answers) :
    if w.commitAssert = .CommitSuccess ∧ ¬ r.Accepted then
      LifecycleEffect.waitForTx ∉ outcome.effects ∧
        outcome.result = .error (.intercepted (.COMMIT_ERROR r.status r.info))
    else LifecycleEffect.waitForTx ∈ outcome.effects := by
  have assigned := assign_commitAssert protos w request.init_required
  subst h
  unfold OperationOutcome.Broadcasts at broadcasts
  simp only [LifecycleWorld.commitChaincodeDefinition] at broadcasts ⊢
  obtain ⟨⟨w', result⟩, assign⟩ : ∃ assigned, w.assign protos request.init_required = assigned :=
    ⟨_, rfl⟩
  rw [assign] at assigned
  cases result with
  | error err =>
    simp only [assign] at broadcasts
    exact absurd broadcasts List.not_mem_nil
  | ok done =>
    simp only [assign] at broadcasts ⊢
    have same : w'.operation.proposal.assertCommitResult = w.commitAssert := assigned
    simp only [LifecycleProposal.commitChaincodeDefinition] at broadcasts ⊢
    cases sent : w'.operation.proposal.send env.peers with
    | error err =>
      simp only [sent] at broadcasts
      exact absurd broadcasts (proposal_silent _)
    | ok endorsed =>
      simp only [answered, setProposal, commit_answer, same]
      split
      next checked => simp
      next unchecked => simp [waitForFinality]

theorem waits_broadcasts {request : DefinitionRequest} {env : LifecycleEnv}
    (h : LifecycleEffect.waitForTx ∈
      (w.commitChaincodeDefinition protos request env).effects) :
    (w.commitChaincodeDefinition protos request env).Broadcasts ∧
      ∃ r answers, env.answers = .ok r :: answers := by
  have unheard (request : Option LifecycleRequest) :
      LifecycleEffect.waitForTx ∉ request.toList.map LifecycleEffect.proposal := by simp
  unfold OperationOutcome.Broadcasts
  simp only [LifecycleWorld.commitChaincodeDefinition] at h ⊢
  split
  next w' err eq => simp [eq] at h
  next w' eq =>
    simp only [eq, LifecycleProposal.commitChaincodeDefinition] at h ⊢
    cases sent : w'.operation.proposal.send env.peers with
    | error err =>
      simp only [sent] at h
      exact absurd h (unheard _)
    | ok endorsed =>
      simp only [sent] at h ⊢
      cases answered : env.answers with
      | nil =>
        simp only [answered] at h
        simp at h
      | cons answer answers =>
        cases answer with
        | error message =>
          simp only [answered, LifecycleProposal.commit] at h
          simp at h
        | ok r =>
          refine ⟨?_, r, answers, rfl⟩
          simp only
          split
          next => simp
          next => simp [waitForFinality]

end

/-- A commit goes on to wait for its transaction only on an accepted answer, and reports any other
answer to its broadcast. -/
def AnswerChecked (env : LifecycleEnv) (outcome : OperationOutcome) : Prop :=
  (LifecycleEffect.waitForTx ∈ outcome.effects →
    ∃ r answers, env.answers = .ok r :: answers ∧ r.Accepted) ∧
  ∀ r answers, env.answers = .ok r :: answers → outcome.Broadcasts → ¬ r.Accepted →
    outcome.result = .error (.intercepted (.COMMIT_ERROR r.status r.info))

/-- Every commit of a run on a new operation checks its answer. -/
def AnswersChecked (protos : LifecycleProtos) (heap : ConfigHeap) (xs : List LifecycleStep) :
    Prop :=
  ∀ before request env rest, xs = before ++ .commitChaincodeDefinition request env :: rest →
    AnswerChecked env
      (((fresh heap).after protos before).commitChaincodeDefinition protos request env)

theorem answerChecked_iff {protos : LifecycleProtos} {w : LifecycleWorld}
    (request : DefinitionRequest) (env : LifecycleEnv) :
    AnswerChecked env (w.commitChaincodeDefinition protos request env) ↔
      (w.commitAssert = .null → ∀ r answers, env.answers = .ok r :: answers →
        (w.commitChaincodeDefinition protos request env).Broadcasts → r.Accepted) := by
  constructor
  · rintro ⟨proceeds, _⟩ off r answers answered broadcasts
    have waits := commitChaincodeDefinition_answer rfl broadcasts answered
    rw [if_neg (by simp [off])] at waits
    obtain ⟨r', answers', answered', accepted⟩ := proceeds waits
    rw [answered] at answered'
    cases answered'
    exact accepted
  · intro checked
    constructor
    · intro waits
      obtain ⟨broadcasts, r, answers, answered⟩ := waits_broadcasts waits
      refine ⟨r, answers, answered, ?_⟩
      by_contra refused
      cases assert : w.commitAssert with
      | null => exact refused (checked assert r answers answered broadcasts)
      | CommitSuccess =>
        have stops := commitChaincodeDefinition_answer rfl broadcasts answered
        rw [if_pos ⟨assert, refused⟩] at stops
        exact stops.1 waits
    · intro r answers answered broadcasts refused
      cases assert : w.commitAssert with
      | null => exact absurd (checked assert r answers answered broadcasts) refused
      | CommitSuccess =>
        have stops := commitChaincodeDefinition_answer rfl broadcasts answered
        rw [if_pos ⟨assert, refused⟩] at stops
        exact stops.2

theorem answersChecked_iff (protos : LifecycleProtos) (heap : ConfigHeap)
    (xs : List LifecycleStep) :
    AnswersChecked protos heap xs ↔
      ∀ before request env rest, xs = before ++ .commitChaincodeDefinition request env :: rest →
        ApprovedBefore protos heap before →
        ∀ r answers, env.answers = .ok r :: answers →
          (((fresh heap).after protos before).commitChaincodeDefinition
            protos request env).Broadcasts → r.Accepted := by
  simp only [AnswersChecked, answerChecked_iff, after_commitAssert]

def definitionRequest : DefinitionRequest := ⟨some "cc", 1, none, none⟩

def endorsedBy (answer : CommitResponse) : LifecycleEnv :=
  ⟨.ok ⟨[], [⟨⟨200, "", []⟩, "peer0"⟩]⟩, [.ok answer], .ok ()⟩

/-- The orderer refuses the commit that follows an approval. -/
def refusedCommit : List LifecycleStep :=
  [.approve definitionRequest none 0 (endorsedBy ⟨"SUCCESS", ""⟩),
   .commitChaincodeDefinition definitionRequest (endorsedBy ⟨"BAD_REQUEST", "stale config"⟩)]

theorem commit_ignores_refusal_after_approve :
    ¬ AnswersChecked emptyProtos emptyConfigs refusedCommit := by
  intro checked
  have answer := checked [.approve definitionRequest none 0 (endorsedBy ⟨"SUCCESS", ""⟩)]
    definitionRequest (endorsedBy ⟨"BAD_REQUEST", "stale config"⟩) [] rfl
  obtain ⟨r, answers, answered, accepted⟩ := answer.1 (.tail _ (.tail _ (.head _)))
  cases answered
  exact absurd accepted (by decide)

end FabricCommon
