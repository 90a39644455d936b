import FabricCommon.EventHubQuery

namespace FabricCommon

open ListenerRun

/-- The operations whose callback tests the error of a notification before it reads the event. -/
def HubOperation.TestsError : HubOperation → Prop
  | .getSingleBlock _ => False
  | .getLastBlock => False
  | _ => True

/-- An error that comes while the caller waits is what the promise is rejected with. -/
def ErrorReachesCaller (Data TxId : Type) (op : HubOperation)
    (ns : List (Except String (op.Event Data TxId))) : Prop :=
  ∀ before err after, ns = before ++ .error err :: after →
    ((op.listener Data TxId).run before).promise = .pending →
    ((op.listener Data TxId).run ns).promise = .rejected (.event err)

/-- The notifications on which no error goes by unheeded. The listener of `getSingleBlock` is gone
after its first block, so that only the wanted block helps, and only as the first one. -/
def HubOperation.Heeds {Data TxId : Type} : (op : HubOperation) →
    List (Except String (op.Event Data TxId)) → Prop
  | .getSingleBlock blockNumber, ns => (∀ err, .error err ∉ ns) ∨
      ∃ block after, ns = .ok block :: after ∧ block.number = blockNumber
  | .getLastBlock, ns => ∀ err after, ns ≠ .error err :: after
  | .waitUntilBlock _, _ => True
  | .waitForBlocks _, _ => True
  | .waitForTx, _ => True
  | .replayTx _ _, _ => True

section

variable {Data TxId : Type} {op : HubOperation} {ns : List (Except String (op.Event Data TxId))}

theorem rejects_error (tests : op.TestsError) (locals : op.Locals Data TxId) (err : String) :
    ((op.listener Data TxId).callback locals (.error err)).2 = [.reject (.event err)] ∨
      ((op.listener Data TxId).callback locals (.error err)).2 =
        [.unregister, .reject (.event err)] := by
  cases op with
  | getSingleBlock blockNumber => exact tests.elim
  | getLastBlock => exact tests.elim
  | waitUntilBlock targetHeight => exact Or.inl rfl
  | waitForBlocks futureSteps => exact Or.inl rfl
  | waitForTx => exact Or.inl rfl
  | replayTx MaxTxAmount endBlock => exact Or.inr rfl

/-- A callback that tests the error lets go of the listener only when it settles the promise. -/
theorem registered_or_settled (tests : op.TestsError)
    (s : State (op.Locals Data TxId) (EventHubQuery.Rejection TxId) (op.Value Data TxId))
    (n : Except String (op.Event Data TxId)) (h : s.registered = true ∨ s.promise ≠ .pending) :
    ((op.listener Data TxId).notify s n).registered = true ∨
      ((op.listener Data TxId).notify s n).promise ≠ .pending := by
  by_cases settled : s.promise ≠ .pending
  · exact .inr (by rwa [notify_settled settled])
  · have registered := h.resolve_right settled
    have pending := not_not.mp settled
    cases n with
    | error err =>
      have rejected := notify_error registered pending (rejects_error tests s.locals err)
      exact .inr (by simp [rejected])
    | ok event =>
      cases op with
      | getSingleBlock blockNumber => exact tests.elim
      | getLastBlock => exact tests.elim
      | waitUntilBlock targetHeight =>
        simp only [HubOperation.listener, EventHubQuery.waitUntilBlockListener, Listener.notify,
          registered, if_true]
        split <;> simp [State.perform, State.record, State.settle, pending]
      | waitForBlocks futureSteps =>
        simp only [HubOperation.listener, EventHubQuery.waitForBlocks, Listener.notify, registered,
          if_true]
        split <;> simp [State.perform, State.record, State.settle, pending]
      | waitForTx =>
        simp only [HubOperation.listener, EventHubQuery.waitForTxListener, Listener.notify,
          registered, if_true]
        split <;> simp [State.perform, State.record, State.settle, pending]
      | replayTx MaxTxAmount endBlock =>
        simp only [HubOperation.listener, EventHubQuery.replayTx, Listener.notify, registered,
          if_true]
        split <;> simp [State.perform, State.record, State.settle, pending]

theorem registered_of_pending (tests : op.TestsError)
    (pending : ((op.listener Data TxId).run ns).promise = .pending) :
    ((op.listener Data TxId).run ns).registered = true :=
  (StepRun.foldl_keeps (registered_or_settled tests) (.inl rfl) ns).resolve_right
    (not_not.mpr pending)

theorem errorReachesCaller_of_tests (tests : op.TestsError) :
    ErrorReachesCaller Data TxId op ns := by
  intro before err after split pending
  have registered := registered_of_pending tests pending
  have rejected := notify_error registered pending (rejects_error tests _ err)
  have settled : ((op.listener Data TxId).notify ((op.listener Data TxId).run before)
      (.error err)).promise ≠ .pending := by simp [rejected]
  rw [split, Listener.run_append, List.foldl_cons, foldl_settled settled, rejected]

/-- The first event settles `getLastBlock`. -/
theorem getLastBlock_settled (block : HubBlock Data) (ns : List (Except String (HubBlock Data))) :
    ((HubOperation.getLastBlock.listener Data TxId).run (.ok block :: ns)).promise ≠ .pending := by
  have first : ((HubOperation.getLastBlock.listener Data TxId).notify
      (HubOperation.getLastBlock.listener Data TxId).initial (.ok block)).promise =
        .resolved block := rfl
  have settled : ((HubOperation.getLastBlock.listener Data TxId).notify
      (HubOperation.getLastBlock.listener Data TxId).initial (.ok block)).promise ≠ .pending := by
    simp [first]
  rw [Listener.run, List.foldl_cons, foldl_settled settled]
  exact settled

/-- The first event settles `getSingleBlock` if it is the wanted block, and otherwise leaves the
caller waiting for ever. -/
theorem getSingleBlock_pending_iff (blockNumber : Nat) (block : HubBlock Data)
    (ns : List (Except String (HubBlock Data))) :
    (((HubOperation.getSingleBlock blockNumber).listener Data TxId).run
      (.ok block :: ns)).promise = .pending ↔ block.number ≠ blockNumber := by
  have gone : (((HubOperation.getSingleBlock blockNumber).listener Data TxId).notify
      ((HubOperation.getSingleBlock blockNumber).listener Data TxId).initial
        (.ok block)).registered = false := notify_once rfl block
  rw [Listener.run, List.foldl_cons, foldl_unregistered gone]
  by_cases wanted : block.number = blockNumber
  · simp [HubOperation.listener, EventHubQuery.getSingleBlock, Listener.notify, Listener.initial,
      State.perform, State.record, State.settle, wanted]
  · simp [HubOperation.listener, EventHubQuery.getSingleBlock, Listener.notify, Listener.initial,
      wanted]

theorem untested_never_rejects (op : HubOperation) (h : ¬ op.TestsError)
    {ns : List (Except String (op.Event Data TxId))} (err : EventHubQuery.Rejection TxId) :
    ((op.listener Data TxId).run ns).promise ≠ .rejected err := by
  refine run_not_rejected fun n hn locals => ?_
  cases op with
  | getSingleBlock blockNumber =>
    cases n with
    | error failure => simp [HubOperation.listener, EventHubQuery.getSingleBlock]
    | ok block =>
      simp only [HubOperation.listener, EventHubQuery.getSingleBlock]
      split <;> simp
  | getLastBlock =>
    cases n <;> simp [HubOperation.listener, EventHubQuery.getLastBlock]
  | _ => exact absurd trivial h

theorem getLastBlock_heeds_iff {ns : List (Except String (HubBlock Data))} :
    ErrorReachesCaller Data TxId .getLastBlock ns ↔
      @HubOperation.Heeds Data TxId .getLastBlock ns := by
  constructor
  · intro h err after first
    exact untested_never_rejects .getLastBlock id _ (h [] err after first rfl)
  · intro eventFirst before err after split pending
    cases before with
    | nil => exact absurd split (eventFirst err after)
    | cons n before =>
      cases n with
      | error other => exact absurd split (eventFirst other _)
      | ok block => exact absurd pending (getLastBlock_settled block before)

theorem getSingleBlock_heeds_iff {blockNumber : Nat}
    {ns : List (Except String (HubBlock Data))} :
    ErrorReachesCaller Data TxId (.getSingleBlock blockNumber) ns ↔
      @HubOperation.Heeds Data TxId (.getSingleBlock blockNumber) ns := by
  constructor
  · intro h
    have lost : ∀ before err after, ns = before ++ .error err :: after →
        (((HubOperation.getSingleBlock blockNumber).listener Data TxId).run before).promise ≠
          .pending := fun before err after split pending =>
      untested_never_rejects (.getSingleBlock blockNumber) id _
        (h before err after split pending)
    cases ns with
    | nil => exact .inl fun err => List.not_mem_nil
    | cons n ns =>
      cases n with
      | error err => exact absurd rfl (lost [] err ns rfl)
      | ok block =>
        by_cases wanted : block.number = blockNumber
        · exact .inr ⟨block, ns, rfl, wanted⟩
        · refine .inl fun err mem => ?_
          have later : (.error err : Except String (HubBlock Data)) ∈ ns := by simpa using mem
          obtain ⟨before, after, rfl⟩ := List.append_of_mem later
          exact lost (.ok block :: before) err after rfl
            ((getSingleBlock_pending_iff blockNumber block before).mpr wanted)
  · intro h before err after split pending
    rcases h with clean | ⟨block, rest, first, wanted⟩
    · exact absurd (by rw [split]; simp) (clean err)
    · cases before with
      | nil =>
        rw [first] at split
        cases split
      | cons n before =>
        rw [first] at split
        obtain ⟨rfl, _⟩ := List.cons.inj split
        exact absurd wanted ((getSingleBlock_pending_iff blockNumber block before).mp pending)

theorem hub_errors_reach_caller_iff (op : HubOperation)
    (ns : List (Except String (op.Event Data TxId))) :
    ErrorReachesCaller Data TxId op ns ↔ op.Heeds ns := by
  cases op with
  | getSingleBlock blockNumber => exact getSingleBlock_heeds_iff
  | getLastBlock => exact getLastBlock_heeds_iff
  | _ => exact iff_of_true (errorReachesCaller_of_tests trivial) trivial

/-- A failing stream leaves the caller of `getSingleBlock` and of `getLastBlock` waiting, that of
`getSingleBlock` also after a block that is not the wanted one. -/
theorem hub_error_is_lost :
    ¬ ErrorReachesCaller Unit Unit .getLastBlock [.error "UNAVAILABLE"] ∧
      ¬ ErrorReachesCaller Unit Unit (.getSingleBlock 4) [.error "UNAVAILABLE"] ∧
      ¬ ErrorReachesCaller Unit Unit (.getSingleBlock 3) [.ok ⟨2, ()⟩, .error "UNAVAILABLE"] := by
  refine ⟨fun h => ?_, fun h => ?_, fun h => ?_⟩
  · cases h [] "UNAVAILABLE" [] rfl rfl
  · cases h [] "UNAVAILABLE" [] rfl rfl
  · cases h [.ok ⟨2, ()⟩] "UNAVAILABLE" [] rfl rfl

end

end FabricCommon
