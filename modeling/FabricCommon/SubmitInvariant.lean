import FabricCommon.TransactionSubmit

namespace FabricCommon

open SubmitCall

section

variable {TxId : Type}

/-- The proposal is built and its endorsed action is not sent yet. -/
def SubmitCall.BeforeCommit (c : SubmitCall TxId) : Prop :=
  c.phase = .proposing ∨ c.phase = .endorsed

/-- The proposal is built and the transaction id is not read yet. -/
def SubmitCall.BeforeListen (c : SubmitCall TxId) : Prop :=
  c.BeforeCommit ∨ c.phase = .committing ∨ c.phase = .committed

instance [DecidableEq TxId] (c : SubmitCall TxId) : Decidable c.BeforeCommit :=
  inferInstanceAs (Decidable (_ ∨ _))

instance [DecidableEq TxId] (c : SubmitCall TxId) : Decidable c.BeforeListen :=
  inferInstanceAs (Decidable (_ ∨ _))

def SubmitAction.Builds : SubmitAction TxId → Bool
  | .propose _ _ => true
  | _ => false

def SubmitAction.Endorses : SubmitAction TxId → Bool
  | .endorse _ => true
  | _ => false

/-- The call sends the orderer the action of its own proposal with its own endorsements. -/
def SubmitCall.BroadcastsOwn (c : SubmitCall TxId) : Prop :=
  ∀ envelope, c.broadcast = some envelope →
    envelope.action = c.proposed ∧ c.proposed.isSome ∧
      c.endorsements = some envelope.proposalResponses

/-- The call waits for the id of its own proposal. -/
def SubmitCall.AwaitsOwn (c : SubmitCall TxId) : Prop :=
  ∀ id, c.awaited = some id → c.proposed.map (·.transactionId) = some id

def SubmitCall.ResolvesOwn (c : SubmitCall TxId) : Prop :=
  c.phase = .resolved → ∃ event action, c.reported = some event ∧ c.proposed = some action ∧
    event.transactionId = action.transactionId ∧ event.status = TxValidationCode.VALID

def SubmitCall.Isolated (c : SubmitCall TxId) : Prop :=
  c.BroadcastsOwn ∧ c.AwaitsOwn ∧ c.ResolvesOwn

/-- What a call relies on in the shared fields until its commit. -/
structure CommitInvariant (shared : SharedProposal TxId) (c : SubmitCall TxId) : Prop where
  built : c.phase ≠ .idle → c.proposed.isSome
  action : c.BeforeCommit → shared.action = c.proposed
  responses : c.phase = .endorsed → c.endorsements = some shared.proposalResponses
  unsent : c.phase = .idle ∨ c.BeforeCommit → c.broadcast = none
  sent : c.BroadcastsOwn

/-- What a call relies on in the shared fields until it listens. -/
structure ListenInvariant (shared : SharedProposal TxId) (c : SubmitCall TxId) : Prop where
  id : c.BeforeListen → shared.transactionId = c.proposed.map (·.transactionId)
  unheard : c.phase = .idle ∨ c.BeforeListen → c.awaited = none
  awaits : c.AwaitsOwn
  resolves : c.ResolvesOwn

variable {shared : SharedProposal TxId} {c : SubmitCall TxId}

/-- Past the commit only the phase and what the call hears changes. -/
theorem later_commitInvariant {c' : SubmitCall TxId} (h : CommitInvariant shared c)
    (started : c.phase ≠ .idle) (later : c'.phase ≠ .idle ∧ ¬ c'.BeforeCommit)
    (proposed : c'.proposed = c.proposed) (endorsements : c'.endorsements = c.endorsements)
    (broadcast : c'.broadcast = c.broadcast) : CommitInvariant shared c' := by
  refine ⟨fun _ => ?_, fun before => absurd before later.2, fun endorsed => ?_, ?_, ?_⟩
  · rw [proposed]
    exact h.built started
  · exact absurd (Or.inr endorsed) later.2
  · intro early
    rcases early with idle | before
    · exact absurd idle later.1
    · exact absurd before later.2
  · unfold BroadcastsOwn
    rw [proposed, endorsements, broadcast]
    exact h.sent

theorem reject_commitInvariant (h : CommitInvariant shared c) (started : c.phase ≠ .idle)
    (err : SubmitError TxId) : CommitInvariant shared (c.reject err) :=
  later_commitInvariant h started ⟨by simp [reject], by simp [reject, BeforeCommit]⟩ rfl rfl rfl

theorem propose_commitInvariant (h : CommitInvariant shared c) (idle : c.phase = .idle)
    (request : SubmitRequest) (id : TxId) :
    CommitInvariant (c.propose shared request id).1 (c.propose shared request id).2 := by
  have unsent : c.broadcast = none := h.unsent (Or.inl idle)
  refine ⟨fun _ => rfl, fun _ => rfl, fun endorsed => (by cases endorsed), fun _ => unsent, ?_⟩
  intro envelope sent
  rw [show (c.propose shared request id).2.broadcast = none from unsent] at sent
  cases sent

theorem endorse_commitInvariant (h : CommitInvariant shared c) (proposing : c.phase = .proposing)
    (result : ProposalResponse) :
    CommitInvariant (c.endorse shared result).1 (c.endorse shared result).2 := by
  have started : c.phase ≠ .idle := by simp [proposing]
  have unsent : c.broadcast = none := h.unsent (Or.inr (Or.inl proposing))
  have action : shared.action = c.proposed := h.action (Or.inl proposing)
  simp only [endorse]
  split
  next =>
    refine ⟨fun _ => h.built started, fun _ => action, fun _ => rfl, fun _ => unsent, ?_⟩
    intro envelope sent
    rw [unsent] at sent
    cases sent
  next err =>
    have stored : CommitInvariant { shared with proposalResponses := result.responses } c := by
      refine ⟨h.built, h.action, fun endorsed => ?_, h.unsent, h.sent⟩
      rw [proposing] at endorsed
      cases endorsed
    exact reject_commitInvariant stored started _

theorem commit_commitInvariant (h : CommitInvariant shared c) (endorsed : c.phase = .endorsed) :
    CommitInvariant shared (c.commit shared) := by
  have started : c.phase ≠ .idle := by simp [endorsed]
  have action : shared.action = c.proposed := h.action (Or.inr endorsed)
  refine ⟨fun _ => h.built started, fun before => ?_, fun again => (by cases again),
    fun before => ?_, ?_⟩
  · rcases before with before | before <;> cases before
  · rcases before with before | before | before <;> cases before
  · intro envelope sent
    cases Option.some.inj sent
    exact ⟨action, h.built started, h.responses endorsed⟩

/-- An action that leaves the id, the proposal and what was heard alone. -/
theorem later_listenInvariant {shared' : SharedProposal TxId} {c' : SubmitCall TxId}
    (h : ListenInvariant shared c) (id : shared'.transactionId = shared.transactionId)
    (before : c'.BeforeListen → c.BeforeListen) (started : c'.phase ≠ .idle)
    (open' : c'.phase ≠ .resolved) (proposed : c'.proposed = c.proposed)
    (awaited : c'.awaited = c.awaited) : ListenInvariant shared' c' := by
  refine ⟨fun now => ?_, fun now => ?_, ?_, fun resolved => absurd resolved open'⟩
  · rw [id, proposed]
    exact h.id (before now)
  · rw [awaited]
    rcases now with idle | now
    · exact absurd idle started
    · exact h.unheard (Or.inr (before now))
  · unfold AwaitsOwn
    rw [awaited, proposed]
    exact h.awaits

theorem unstarted_commitInvariant (shared : SharedProposal TxId) :
    CommitInvariant shared unstarted := by
  refine ⟨fun started => absurd rfl started, ?_, ?_, fun _ => rfl, ?_⟩
  · intro before
    rcases before with before | before <;> cases before
  · intro endorsed
    cases endorsed
  · intro envelope sent
    cases sent

theorem unstarted_listenInvariant (shared : SharedProposal TxId) :
    ListenInvariant shared unstarted := by
  refine ⟨?_, fun _ => rfl, ?_, fun resolved => (by cases resolved)⟩
  · intro before
    rcases before with (before | before) | before | before <;> cases before
  · intro id awaited
    cases awaited

variable [DecidableEq TxId]

/-- Everything one action can do to a call. -/
theorem advance_cases {P : SharedProposal TxId → SubmitCall TxId → Prop}
    (action : SubmitAction TxId) (same : P shared c)
    (propose : ∀ request id, c.phase = .idle →
      P (c.propose shared request id).1 (c.propose shared request id).2)
    (endorse : ∀ result, c.phase = .proposing →
      P (c.endorse shared result).1 (c.endorse shared result).2)
    (commit : c.phase = .endorsed → P shared (c.commit shared))
    (committed : c.phase = .committing → P shared { c with phase := .committed })
    (listen : c.phase = .committed → P shared (c.listen shared))
    (resolve : ∀ event, c.phase = .listening → c.awaited = some event.transactionId →
      event.status = TxValidationCode.VALID →
      P shared { c with phase := .resolved, reported := some event })
    (reject : ∀ err, c.Running → P shared (c.reject err)) :
    P (c.advance shared action).1 (c.advance shared action).2 := by
  cases action with
  | propose request id =>
    simp only [advance]
    split
    next idle => exact propose request id idle
    next => exact same
  | endorse result =>
    simp only [advance]
    split
    next proposing => exact endorse result proposing
    next => exact same
  | commit =>
    simp only [advance]
    split
    next endorsed => exact commit endorsed
    next => exact same
  | answer result =>
    simp only [advance]
    split
    next committing =>
      simp only [answer]
      split
      next => exact committed committing
      next => exact reject _ (by simp [Running, committing])
    next => exact same
  | listen =>
    simp only [advance]
    split
    next committed => exact listen committed
    next => exact same
  | report report =>
    simp only [advance]
    split
    next listening =>
      simp only [SubmitCall.report]
      split
      next hears =>
        split
        next event valid =>
          obtain ⟨rfl, status⟩ := EventHubQuery.onTxEvent_eq_ok.mp valid
          exact resolve event listening (by simpa [SubmitCall.hears] using hears) status
        next => exact reject _ (by simp [Running, listening])
      next => exact same
    next => exact same
  | abort message =>
    simp only [advance]
    split
    next running => exact reject _ running
    next => exact same

theorem advance_commitInvariant (h : CommitInvariant shared c) (action : SubmitAction TxId) :
    CommitInvariant (c.advance shared action).1 (c.advance shared action).2 := by
  apply advance_cases action h
  case propose => exact fun request id idle => propose_commitInvariant h idle request id
  case endorse => exact fun result proposing => endorse_commitInvariant h proposing result
  case commit => exact commit_commitInvariant h
  case committed =>
    intro committing
    exact later_commitInvariant h (by simp [committing]) (by simp [BeforeCommit]) rfl rfl rfl
  case listen =>
    intro committed
    exact later_commitInvariant h (by simp [committed]) (by simp [SubmitCall.listen, BeforeCommit])
      rfl rfl rfl
  case resolve =>
    intro event listening _ _
    exact later_commitInvariant h (by simp [listening]) (by simp [BeforeCommit]) rfl rfl rfl
  case reject =>
    intro err running
    have started : c.phase ≠ .idle := by
      intro idle
      simp [Running, idle] at running
    exact reject_commitInvariant h started err

theorem advance_listenInvariant (h : ListenInvariant shared c) (action : SubmitAction TxId) :
    ListenInvariant (c.advance shared action).1 (c.advance shared action).2 := by
  have rejected : ∀ shared' err, shared'.transactionId = shared.transactionId →
      ListenInvariant shared' (c.reject err) := by
    intro shared' err id
    exact later_listenInvariant h id (by simp [reject, BeforeListen, BeforeCommit])
      (by simp [reject]) (by simp [reject]) rfl rfl
  apply advance_cases action h
  case propose =>
    intro request id idle
    have unheard : c.awaited = none := h.unheard (Or.inl idle)
    refine ⟨fun _ => rfl, fun _ => unheard, ?_, fun resolved => by cases resolved⟩
    intro id' awaited
    rw [show (c.propose shared request id).2.awaited = none from unheard] at awaited
    cases awaited
  case endorse =>
    intro result proposing
    simp only [endorse]
    split
    next =>
      exact later_listenInvariant h rfl
        (fun _ => by simp [BeforeListen, BeforeCommit, proposing]) (by simp) (by simp) rfl rfl
    next err => exact rejected _ _ rfl
  case commit =>
    intro endorsed
    exact later_listenInvariant h rfl (fun _ => by simp [BeforeListen, BeforeCommit, endorsed])
      (by simp [commit]) (by simp [commit]) rfl rfl
  case committed =>
    intro committing
    exact later_listenInvariant h rfl (fun _ => by simp [BeforeListen, committing])
      (by simp) (by simp) rfl rfl
  case listen =>
    intro committed
    have id : shared.transactionId = c.proposed.map (·.transactionId) :=
      h.id (by simp [BeforeListen, committed])
    refine ⟨fun now => ?_, fun now => ?_, fun id' awaited => ?_,
      fun resolved => (by cases resolved)⟩
    · simp [SubmitCall.listen, BeforeListen, BeforeCommit] at now
    · simp [SubmitCall.listen, BeforeListen, BeforeCommit] at now
    · have own : shared.transactionId = some id' := by
        simpa [SubmitCall.listen, EventHubQuery.waitForTx] using awaited
      exact id.symm.trans own
  case resolve =>
    intro event listening awaited valid
    have own : c.proposed.map (·.transactionId) = some event.transactionId :=
      h.awaits _ awaited
    refine ⟨fun now => ?_, fun now => ?_, h.awaits, fun _ => ?_⟩
    · simp [BeforeListen, BeforeCommit] at now
    · simp [BeforeListen, BeforeCommit] at now
    · obtain ⟨action, proposed, same⟩ := Option.map_eq_some_iff.mp own
      exact ⟨event, action, rfl, proposed, same.symm, valid⟩
  case reject => exact fun err _ => rejected shared err rfl

/-- The only actions that write the shared fields. -/
theorem advance_shared (shared : SharedProposal TxId) (c : SubmitCall TxId)
    (action : SubmitAction TxId) :
    (c.advance shared action).1 = shared ∨ action.Builds ∨ action.Endorses ∧ ∃ responses,
      (c.advance shared action).1 = { shared with proposalResponses := responses } := by
  cases action with
  | propose request id => exact Or.inr (Or.inl rfl)
  | endorse result =>
    simp only [advance]
    split
    next => exact Or.inr (Or.inr ⟨rfl, result.responses, rfl⟩)
    next => exact Or.inl rfl
  | commit =>
    simp only [advance]
    split <;> exact Or.inl rfl
  | answer result =>
    simp only [advance]
    split <;> exact Or.inl rfl
  | listen =>
    simp only [advance]
    split <;> exact Or.inl rfl
  | report event =>
    simp only [advance]
    split <;> exact Or.inl rfl
  | abort message =>
    simp only [advance]
    split <;> exact Or.inl rfl

end

end FabricCommon
