import FabricCommon.LifecycleProposal
import FabricCommon.StepRun

namespace FabricCommon

inductive LifecycleCall where
  | installChaincode (packageTarGz : String) (packageId : Option String)
  | queryInstalledChaincodes (packageId : Option String)
  | approveForMyOrg (id : DefinitionId) (PackageID : Option String)
  | checkCommitReadiness (id : DefinitionId)
  | commitChaincodeDefinition (id : DefinitionId)
  | queryChaincodeDefinition (name : Option String)

/-- A call with the files it can read and the answer of the peers. -/
structure LifecycleInput where
  call : LifecycleCall
  readFileSync : String → Except String Buffer
  peers : Except String ProposalResponse

inductive Verdict where
  | unreached
  | accepted
  | rejected
  deriving DecidableEq, Repr

/-- Only the interceptor rejects; a call that fails before it has no peer result to judge. -/
def LifecycleError.verdict : LifecycleError → Verdict
  | .intercepted _ => .rejected
  | .file _ => .unreached
  | .transport _ => .unreached
  | _ => .accepted

def LifecycleOutcome.verdict {α : Type} (outcome : LifecycleOutcome α) : Verdict :=
  match outcome.result with
  | .error err => err.verdict
  | .ok _ => .accepted

def LifecycleOutcome.judged {α : Type} (outcome : LifecycleOutcome α) :
    LifecycleProposal × Verdict := (outcome.proposal, outcome.verdict)

namespace LifecycleInput

variable (protos : LifecycleProtos)

def run (p : LifecycleProposal) (input : LifecycleInput) : LifecycleProposal × Verdict :=
  match input.call with
  | .installChaincode packageTarGz packageId =>
    (p.installChaincode protos input.readFileSync packageTarGz packageId input.peers).judged
  | .queryInstalledChaincodes packageId =>
    (p.queryInstalledChaincodes protos packageId input.peers).judged
  | .approveForMyOrg id PackageID => (p.approveForMyOrg id PackageID input.peers).judged
  | .checkCommitReadiness id => (p.checkCommitReadiness protos id input.peers).judged
  | .commitChaincodeDefinition id => (p.commitChaincodeDefinition id input.peers).judged
  | .queryChaincodeDefinition name => (p.queryChaincodeDefinition protos name input.peers).judged

def step (p : LifecycleProposal) (input : LifecycleInput) : LifecycleProposal :=
  (input.run protos p).1

end LifecycleInput

/-- The handler a call sets before it sends. -/
def LifecycleCall.setsHandler : LifecycleCall → Option ResultHandler
  | .installChaincode _ packageId => some (.skipIfInstalled packageId)
  | .approveForMyOrg id _ => some (.skipIfNoChange id.name id.sequence)
  | .queryChaincodeDefinition name => some (.skipIfNoDefinition name)
  | _ => none

/-- What a handler makes of the peers' answer. -/
def ResultHandler.judge (handler : ResultHandler) : Except String ProposalResponse → Verdict
  | .error _ => .unreached
  | .ok result =>
    match handler.apply result with
    | .error _ => .rejected
    | .ok _ => .accepted

/-- All that failed at the peers is something the handler lets pass. -/
def Masked (handler : ResultHandler) (peers : Except String ProposalResponse) : Prop :=
  ∃ result, peers = .ok result ∧ result.errors = [] ∧ (∃ r ∈ result.responses, r.Failed) ∧
    ∀ r ∈ result.responses, r.Failed → handler.tolerates r.response = true

/-- Whether the call gets as far as asking the peers. -/
def LifecycleInput.readable (input : LifecycleInput) : Bool :=
  match input.call with
  | .installChaincode packageTarGz _ =>
    match input.readFileSync packageTarGz with
    | .error _ => false
    | .ok _ => true
  | _ => true

section

variable {protos : LifecycleProtos} {p : LifecycleProposal}
  {peers : Except String ProposalResponse}

theorem send_rejected {err : LifecycleError} (h : p.send peers = .error err) :
    p.assertProposalResult.judge peers = err.verdict := by
  cases peers with
  | error message =>
    cases Except.error.inj h
    rfl
  | ok result =>
    cases judged : p.assertProposalResult.apply result with
    | error err' =>
      simp only [LifecycleProposal.send, judged, Except.error.injEq] at h
      subst h
      simp only [ResultHandler.judge, judged, LifecycleError.verdict]
    | ok accepted => simp [LifecycleProposal.send, judged] at h

theorem send_accepted {result : ProposalResponse} (h : p.send peers = .ok result) :
    p.assertProposalResult.judge peers = .accepted := by
  cases peers with
  | error message => cases h
  | ok result' =>
    cases judged : p.assertProposalResult.apply result' with
    | error err => simp [LifecycleProposal.send, judged] at h
    | ok accepted => simp only [ResultHandler.judge, judged]

theorem decoded_error {α : Type} {decode : Buffer → Except String α}
    {responses : List PeerResponse} {err : LifecycleError}
    (h : LifecycleProposal.decoded decode responses = .error err) : err.verdict = .accepted := by
  unfold LifecycleProposal.decoded at h
  cases all : responses.mapM fun response => decode response.payload with
  | error message =>
    rw [all] at h
    cases Except.error.inj h
    rfl
  | ok values =>
    rw [all] at h
    cases h

/-- Decoding comes after the verdict. -/
theorem decoded_verdict {α : Type} (p : LifecycleProposal) (request : Option LifecycleRequest)
    (decode : Buffer → Except String α) (responses : List PeerResponse) :
    (LifecycleOutcome.mk p request (LifecycleProposal.decoded decode responses)).verdict =
      .accepted := by
  cases all : LifecycleProposal.decoded decode responses with
  | error err => exact decoded_error all
  | ok values => rfl

theorem run_verdict (protos : LifecycleProtos) (p : LifecycleProposal) (input : LifecycleInput) :
    (input.run protos p).2 =
      if input.readable then
        (input.call.setsHandler.getD p.assertProposalResult).judge input.peers
      else .unreached := by
  obtain ⟨call, readFileSync, peers⟩ := input
  cases call with
  | installChaincode packageTarGz packageId =>
    cases file : readFileSync packageTarGz with
    | error message =>
      simp only [LifecycleInput.run, LifecycleProposal.installChaincode, file,
        LifecycleInput.readable]
      rfl
    | ok fileContent =>
      simp only [LifecycleInput.run, LifecycleProposal.installChaincode, file,
        LifecycleInput.readable, LifecycleOutcome.judged, if_true]
      split
      next err sent => exact (send_rejected sent).symm
      next result sent =>
        refine Eq.trans ?_ (send_accepted sent).symm
        split
        next err undecoded => exact decoded_error undecoded
        next => rfl
  | queryInstalledChaincodes packageId =>
    simp only [LifecycleInput.run, LifecycleProposal.queryInstalledChaincodes,
      LifecycleInput.readable, LifecycleOutcome.judged, if_true]
    split
    next err sent => exact (send_rejected sent).symm
    next result sent => exact (decoded_verdict ..).trans (send_accepted sent).symm
  | approveForMyOrg id PackageID =>
    simp only [LifecycleInput.run, LifecycleProposal.approveForMyOrg,
      LifecycleInput.readable, LifecycleOutcome.judged, if_true]
    split
    next err sent => exact (send_rejected sent).symm
    next result sent => exact (send_accepted sent).symm
  | checkCommitReadiness id =>
    simp only [LifecycleInput.run, LifecycleProposal.checkCommitReadiness,
      LifecycleInput.readable, LifecycleOutcome.judged, if_true]
    split
    next err sent => exact (send_rejected sent).symm
    next result sent => exact (decoded_verdict ..).trans (send_accepted sent).symm
  | commitChaincodeDefinition id =>
    simp only [LifecycleInput.run, LifecycleProposal.commitChaincodeDefinition,
      LifecycleInput.readable, LifecycleOutcome.judged, LifecycleOutcome.verdict, if_true]
    split
    next err sent => exact (send_rejected sent).symm
    next result sent => exact (send_accepted sent).symm
  | queryChaincodeDefinition name =>
    simp only [LifecycleInput.run, LifecycleProposal.queryChaincodeDefinition,
      LifecycleInput.readable, LifecycleOutcome.judged, if_true]
    split
    next err sent => exact (send_rejected sent).symm
    next result sent =>
      refine Eq.trans ?_ (send_accepted sent).symm
      split
      next err undecoded => exact decoded_error undecoded
      next => rfl

theorem judge_accepted (handler : ResultHandler) (result : ProposalResponse) :
    handler.judge (.ok result) = .accepted ↔ result.errors = [] ∧
      ∀ r ∈ result.responses, r.Failed → handler.tolerates r.response = true := by
  cases judged : handler.apply result with
  | error err =>
    have refused : ¬ (result.errors = [] ∧
        ∀ r ∈ result.responses, r.Failed → handler.tolerates r.response = true) := by
      intro h
      rw [handler_apply_eq_ok.mpr ⟨rfl, h⟩] at judged
      cases judged
    simp only [ResultHandler.judge, judged, reduceCtorEq, false_iff]
    exact refused
  | ok accepted =>
    simp only [ResultHandler.judge, judged, true_iff]
    exact (handler_apply_eq_ok.mp judged).2

theorem judge_ok (handler : ResultHandler) (result : ProposalResponse) :
    handler.judge (.ok result) = .accepted ∨ handler.judge (.ok result) = .rejected := by
  simp only [ResultHandler.judge]
  split
  next => exact Or.inr rfl
  next => exact Or.inl rfl

theorem judge_eq_iff {handler : ResultHandler} :
    handler.judge peers = ResultHandler.EndorseALL.judge peers ↔ ¬ Masked handler peers := by
  cases peers with
  | error message => simp [ResultHandler.judge, Masked]
  | ok result =>
    have tolerant := judge_accepted handler result
    have strict := judge_accepted .EndorseALL result
    simp only [ResultHandler.tolerates, Bool.false_eq_true, imp_false] at strict
    constructor
    · rintro same ⟨result', eq, errors, ⟨r, hr, failed⟩, masked⟩
      cases Except.ok.inj eq
      have accepted := tolerant.mpr ⟨errors, masked⟩
      rw [same] at accepted
      exact (strict.mp accepted).2 r hr failed
    · intro unmasked
      rcases judge_ok .EndorseALL result with accepted | rejected
      · obtain ⟨errors, none⟩ := strict.mp accepted
        rw [accepted]
        exact tolerant.mpr ⟨errors, fun r hr failed => absurd failed (none r hr)⟩
      · rw [rejected]
        rcases judge_ok handler result with accepted | rejected'
        · obtain ⟨errors, masked⟩ := tolerant.mp accepted
          refine absurd ⟨result, rfl, errors, ?_, masked⟩ unmasked
          by_contra none
          simp only [not_exists, not_and] at none
          rw [strict.mpr ⟨errors, none⟩] at rejected
          cases rejected
        · exact rejected'

end

end FabricCommon
