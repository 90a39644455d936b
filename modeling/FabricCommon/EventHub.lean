import FabricCommon.ResultInterceptors

namespace FabricCommon

inductive BlockEventFilterType where
  | FULL_BLOCK
  | FILTERED_BLOCK
  | PRIVATE_BLOCK
  deriving DecidableEq, Repr

/-- A `BlockNumberFilterType` or an integer. -/
inductive BlockNumber where
  | NEWEST
  | OLDEST
  | number (number : Nat)
  deriving DecidableEq, Repr

inductive SeekPosition where
  | oldest
  | newest
  | specified (number : Nat)
  deriving DecidableEq, Repr

inductive SeekBehavior where
  | BLOCK_UNTIL_READY
  | FAIL_IF_NOT_READY
  deriving DecidableEq, Repr

structure SeekInfo where
  start : SeekPosition
  stop : SeekPosition
  behavior : SeekBehavior
  deriving DecidableEq, Repr

/-- `Long.MAX_VALUE`. -/
def Long.MAX_VALUE : Nat := 0x7fffffffffffffff

/-- The payload that `EventHub.build` leaves on the event service: the id in the channel header and
the seek info, before they are encoded and signed. -/
structure SeekPayload (TxId : Type) where
  transactionId : TxId
  data : SeekInfo
  blockType : BlockEventFilterType

structure EventHubOptions where
  startBlock : Option BlockNumber
  endBlock : Option BlockNumber
  behavior : Bool
  blockType : BlockEventFilterType

namespace EventHub

variable {TxId : Type}

def seekStart : Option BlockNumber → SeekPosition
  | some .OLDEST => .oldest
  | some .NEWEST => .newest
  | some (.number startBlock) => .specified startBlock
  | none => .newest

def seekStop : Option BlockNumber → SeekPosition
  | some .OLDEST => .oldest
  | some .NEWEST => .newest
  | some (.number endBlock) => .specified endBlock
  | none => .specified Long.MAX_VALUE

def build (transactionId : TxId) (options : EventHubOptions) : SeekPayload TxId where
  transactionId := transactionId
  data :=
    { start := seekStart options.startBlock
      stop := seekStop options.endBlock
      behavior := if options.behavior then .FAIL_IF_NOT_READY else .BLOCK_UNTIL_READY }
  blockType := options.blockType

end EventHub

structure TxEvent (TxId : Type) where
  blockNumber : Nat
  transactionId : TxId
  status : String
  deriving DecidableEq, Repr

/-- `TxValidationCode['0']`. -/
def TxValidationCode.VALID : String := "VALID"

inductive TxWaitError (TxId : Type) where
  | event (message : String)
  | invalid (event : TxEvent TxId)
  deriving DecidableEq, Repr

namespace EventHubQuery

variable {TxId : Type}

/-- The id the listener is registered for and the request that is sent to the peer. -/
structure TxWait (TxId : Type) where
  transactionId : TxId
  payload : SeekPayload TxId

def waitForTx (transactionId : TxId) : TxWait TxId where
  transactionId := transactionId
  payload := EventHub.build transactionId ⟨some .NEWEST, none, false, .FULL_BLOCK⟩

/-- `callback` of the listener: what the promise of `waitForTx` settles with. -/
def onTxEvent : Except String (TxEvent TxId) → Except (TxWaitError TxId) (TxEvent TxId)
  | .error err => .error (.event err)
  | .ok event =>
    if event.status ≠ TxValidationCode.VALID then .error (.invalid event) else .ok event

/-- The request of `waitUntilBlock`. -/
def waitUntilBlock (transactionId : TxId) : SeekPayload TxId :=
  EventHub.build transactionId ⟨some .OLDEST, none, false, .FULL_BLOCK⟩

theorem onTxEvent_eq_ok {report : Except String (TxEvent TxId)} {event : TxEvent TxId} :
    onTxEvent report = .ok event ↔ report = .ok event ∧ event.status = TxValidationCode.VALID := by
  cases report with
  | error err => simp [onTxEvent]
  | ok reported =>
    simp only [onTxEvent, ne_eq, ite_not]
    split
    next valid =>
      simp only [Except.ok.injEq]
      exact ⟨fun eq => ⟨eq, eq ▸ valid⟩, fun h => h.1⟩
    next invalid =>
      simp only [reduceCtorEq, Except.ok.injEq, false_iff, not_and]
      exact fun eq valid => invalid (eq ▸ valid)

end EventHubQuery

end FabricCommon
