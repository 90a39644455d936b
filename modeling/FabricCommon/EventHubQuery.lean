import FabricCommon.EventHub
import FabricCommon.ListenerRun

namespace FabricCommon

open ListenerRun (Effect Listener)

/-- A block of a block event. `number` is `parseInt(block.header.number)`. -/
structure HubBlock (Data : Type) where
  number : Nat
  data : Data
  deriving DecidableEq, Repr

namespace EventHubQuery

variable {Data TxId : Type}

/-- What the promises of the queries are rejected with. -/
abbrev Rejection (TxId : Type) := TxWaitError TxId

abbrev BlockListener (Local Data TxId : Type) :=
  Listener Local String (HubBlock Data) (Rejection TxId) (HubBlock Data)

/-- The error of the notification is not looked at. -/
def getSingleBlock (blockNumber : Nat) : BlockListener Unit Data TxId where
  once := true
  start := ()
  callback _ notification := match notification with
    | .error _ => ((), [])
    | .ok block => ((), if block.number = blockNumber then [.resolve block] else [])

/-- A failing stream passes no second argument, which the parameter pattern takes apart before the
first line of the body runs. -/
def getLastBlock : BlockListener Unit Data TxId where
  once := true
  start := ()
  callback _ notification := match notification with
    | .error _ =>
      ((), [.threw "Cannot destructure property 'block' of 'undefined' as it is undefined."])
    | .ok block => ((), [.resolve block])

def waitUntilBlockListener (targetHeight : Nat) : BlockListener Unit Data TxId where
  once := false
  start := ()
  callback _ notification := match notification with
    | .error err => ((), [.reject (.event err)])
    | .ok block =>
      ((), if block.number = targetHeight then [.unregister, .resolve block] else [])

def waitForBlocks (futureSteps : Nat) : BlockListener (List (HubBlock Data)) Data TxId where
  once := false
  start := []
  callback futureBlocks notification := match notification with
    | .error err => (futureBlocks, [.reject (.event err)])
    | .ok block =>
      if futureBlocks.length < futureSteps then (futureBlocks ++ [block], [])
      else (futureBlocks, [.unregister, .resolve block])

def waitForTxListener : Listener Unit String (TxEvent TxId) (Rejection TxId) (TxEvent TxId) where
  once := true
  start := ()
  callback _ notification := match onTxEvent notification with
    | .error err => ((), [.reject err])
    | .ok event => ((), [.resolve event])

def replayTx (MaxTxAmount : Nat) : Listener (List (TxEvent TxId)) String (TxEvent TxId)
    (Rejection TxId) (List (TxEvent TxId)) where
  once := false
  start := []
  callback result notification := match notification with
    | .error err => (result, [.unregister, .reject (.event err)])
    | .ok event =>
      let result := result ++ [event]
      (result, if result.length ≥ MaxTxAmount then [.unregister, .resolve result] else [])

end EventHubQuery

/-- The six operations that wait for events. -/
inductive HubOperation where
  | getSingleBlock (blockNumber : Nat)
  | getLastBlock
  | waitUntilBlock (targetHeight : Nat)
  | waitForBlocks (futureSteps : Nat)
  | waitForTx
  | replayTx (MaxTxAmount : Nat) (endBlock : Option BlockNumber)
  deriving DecidableEq, Repr

namespace HubOperation

/-- What the operation passes to `eventHub.build`. -/
def options : HubOperation → EventHubOptions
  | .getSingleBlock blockNumber =>
    ⟨some (.number blockNumber), some (.number blockNumber), false, .FULL_BLOCK⟩
  | .getLastBlock => ⟨some .NEWEST, none, false, .FULL_BLOCK⟩
  | .waitUntilBlock _ => ⟨some .OLDEST, none, false, .FULL_BLOCK⟩
  | .waitForBlocks _ => ⟨some .NEWEST, none, false, .FULL_BLOCK⟩
  | .waitForTx => ⟨some .NEWEST, none, false, .FULL_BLOCK⟩
  | .replayTx _ endBlock => ⟨some .OLDEST, endBlock, false, .FULL_BLOCK⟩

abbrev Locals (Data TxId : Type) : HubOperation → Type
  | .waitForBlocks _ => List (HubBlock Data)
  | .replayTx _ _ => List (TxEvent TxId)
  | _ => Unit

abbrev Event (Data TxId : Type) : HubOperation → Type
  | .waitForTx => TxEvent TxId
  | .replayTx _ _ => TxEvent TxId
  | _ => HubBlock Data

abbrev Value (Data TxId : Type) : HubOperation → Type
  | .waitForTx => TxEvent TxId
  | .replayTx _ _ => List (TxEvent TxId)
  | _ => HubBlock Data

def listener (Data TxId : Type) : (op : HubOperation) →
    Listener (op.Locals Data TxId) String (op.Event Data TxId) (EventHubQuery.Rejection TxId)
      (op.Value Data TxId)
  | .getSingleBlock blockNumber => EventHubQuery.getSingleBlock blockNumber
  | .getLastBlock => EventHubQuery.getLastBlock
  | .waitUntilBlock targetHeight => EventHubQuery.waitUntilBlockListener targetHeight
  | .waitForBlocks futureSteps => EventHubQuery.waitForBlocks futureSteps
  | .waitForTx => EventHubQuery.waitForTxListener
  | .replayTx MaxTxAmount _ => EventHubQuery.replayTx MaxTxAmount

end HubOperation

end FabricCommon
