import FabricCommon.LifecycleVerdicts

namespace FabricCommon

/-- The handler in force after a call, from the one in force before it. -/
def LifecycleInput.leaves (protos : LifecycleProtos) (handler : ResultHandler)
    (input : LifecycleInput) : ResultHandler :=
  match input.call with
  | .installChaincode packageTarGz packageId =>
    match input.readFileSync packageTarGz, input.peers with
    | .error _, _ => handler
    | .ok _, .error _ => .skipIfInstalled packageId
    | .ok _, .ok result =>
      match ResultHandler.apply (.skipIfInstalled packageId) result,
        LifecycleProposal.decoded protos.decodeInstallChaincodeResult (getResponses result) with
      | .ok _, .ok _ => .EndorseALL
      | _, _ => .skipIfInstalled packageId
  | .approveForMyOrg id _ => .skipIfNoChange id.name id.sequence
  | .queryChaincodeDefinition name => .skipIfNoDefinition name
  | _ => handler

theorem step_handler (protos : LifecycleProtos) (p : LifecycleProposal) (input : LifecycleInput) :
    (input.step protos p).assertProposalResult = input.leaves protos p.assertProposalResult := by
  obtain ⟨call, readFileSync, peers⟩ := input
  cases call with
  | installChaincode packageTarGz packageId =>
    simp only [LifecycleInput.step, LifecycleInput.run, LifecycleProposal.installChaincode,
      LifecycleInput.leaves, LifecycleOutcome.judged]
    cases readFileSync packageTarGz with
    | error message => rfl
    | ok fileContent =>
      cases peers with
      | error message => rfl
      | ok result =>
        simp only [LifecycleProposal.send, LifecycleProposal.setResultHandler]
        cases ResultHandler.apply (.skipIfInstalled packageId) result with
        | error err => rfl
        | ok accepted =>
          simp only
          cases LifecycleProposal.decoded protos.decodeInstallChaincodeResult
            (getResponses result) with
          | error err => rfl
          | ok queryResults => rfl
  | queryInstalledChaincodes packageId =>
    simp only [LifecycleInput.step, LifecycleInput.run, LifecycleOutcome.judged,
      LifecycleProposal.queryInstalledChaincodes, LifecycleInput.leaves]
    split <;> rfl
  | approveForMyOrg id PackageID =>
    simp only [LifecycleInput.step, LifecycleInput.run, LifecycleOutcome.judged,
      LifecycleProposal.approveForMyOrg, LifecycleInput.leaves]
    split <;> rfl
  | checkCommitReadiness id =>
    simp only [LifecycleInput.step, LifecycleInput.run, LifecycleOutcome.judged,
      LifecycleProposal.checkCommitReadiness, LifecycleInput.leaves]
    split <;> rfl
  | commitChaincodeDefinition id => rfl
  | queryChaincodeDefinition name =>
    simp only [LifecycleInput.step, LifecycleInput.run, LifecycleOutcome.judged,
      LifecycleProposal.queryChaincodeDefinition, LifecycleInput.leaves]
    split
    next => rfl
    next => split <;> rfl

/-- The handler that a run of calls leaves in force. -/
def handlerAfter (protos : LifecycleProtos) (inputs : List LifecycleInput) : ResultHandler :=
  inputs.foldl (LifecycleInput.leaves protos) .EndorseALL

def proposalAfter (protos : LifecycleProtos) (inputs : List LifecycleInput) :
    LifecycleProposal :=
  inputs.foldl (LifecycleInput.step protos) .fresh

theorem proposalAfter_handler (protos : LifecycleProtos) (inputs : List LifecycleInput) :
    (proposalAfter protos inputs).assertProposalResult = handlerAfter protos inputs := by
  refine StepRun.foldl_simulates
    (R := fun (p : LifecycleProposal) handler => p.assertProposalResult = handler)
    (fun p handler input same => ?_) rfl inputs
  rw [step_handler, same]

/-- Every call of the run judges the answer of its peers as the same call on a fresh object. -/
def HistoryIndependent (protos : LifecycleProtos) (inputs : List LifecycleInput) : Prop :=
  ∀ before input after, inputs = before ++ input :: after →
    (input.run protos (proposalAfter protos before)).2 = (input.run protos .fresh).2

theorem same_verdict_iff (protos : LifecycleProtos) (p : LifecycleProposal)
    (input : LifecycleInput) (reads : input.call.setsHandler = none) :
    (input.run protos p).2 = (input.run protos .fresh).2 ↔
      ¬ Masked p.assertProposalResult input.peers := by
  have readable : input.readable = true := by
    obtain ⟨call, readFileSync, peers⟩ := input
    cases call <;> first | rfl | cases reads
  rw [run_verdict, run_verdict, reads, readable]
  exact judge_eq_iff

theorem verdicts_historyIndependent_iff (protos : LifecycleProtos)
    (inputs : List LifecycleInput) :
    HistoryIndependent protos inputs ↔
      ∀ before input after, inputs = before ++ input :: after →
        input.call.setsHandler = none → ¬ Masked (handlerAfter protos before) input.peers := by
  constructor
  · intro independent before input after eq reads
    have same := independent before input after eq
    rw [same_verdict_iff protos _ input reads, proposalAfter_handler] at same
    exact same
  · intro unmasked before input after eq
    cases sets : input.call.setsHandler with
    | none =>
      rw [same_verdict_iff protos _ input sets, proposalAfter_handler]
      exact unmasked before input after eq sets
    | some handler => rw [run_verdict, run_verdict, sets]; rfl

def notDefined : ProposalResponse :=
  ⟨[], [⟨⟨404, "namespace cc is not defined", []⟩, "peer0"⟩]⟩

/-- A query for `cc`, then a commit that the peer refuses for want of a definition. -/
def queryThenCommit : List LifecycleInput :=
  [⟨.queryChaincodeDefinition (some "cc"), fun _ => .error "ENOENT", .ok notDefined⟩,
   ⟨.commitChaincodeDefinition ⟨some "cc", "1", 1⟩, fun _ => .error "ENOENT", .ok notDefined⟩]

theorem commit_accepts_after_query : ¬ HistoryIndependent emptyProtos queryThenCommit := by
  intro independent
  have same := independent [⟨.queryChaincodeDefinition (some "cc"), fun _ => .error "ENOENT",
    .ok notDefined⟩] _ [] rfl
  exact absurd same (by decide)

end FabricCommon
