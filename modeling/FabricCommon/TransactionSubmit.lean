import FabricCommon.EventHub
import FabricCommon.StepRun
import Mathlib.Logic.Function.Basic

namespace FabricCommon

structure SubmitRequest where
  fcn : String
  args : List String
  transientMap : Option (List (String × List UInt8))
  init : Bool
  deriving DecidableEq, Repr

/-- What `submit` hands to `proposal.send`. -/
def SubmitRequest.proposed (request : SubmitRequest) : SubmitRequest :=
  if request.init then { request with fcn := "init" } else request

/-- The `_action` that `Proposal.build` leaves on the proposal. -/
structure ProposalAction (TxId : Type) where
  transactionId : TxId
  request : SubmitRequest
  deriving DecidableEq, Repr

/-- The fields of the one `ProposalManager` and the one `IdentityContext` that every call of a
`Transaction` reads and writes. -/
structure SharedProposal (TxId : Type) where
  transactionId : Option TxId
  action : Option (ProposalAction TxId)
  proposalResponses : List EndorsementResponse
  deriving DecidableEq, Repr

structure CommitEnvelope (TxId : Type) where
  action : Option (ProposalAction TxId)
  proposalResponses : List EndorsementResponse
  deriving DecidableEq, Repr

inductive SubmitError (TxId : Type) where
  | intercepted (err : InterceptorError)
  | event (err : TxWaitError TxId)
  | aborted (message : String)
  deriving DecidableEq, Repr

/-- The suspension point a call of `submit` is at. -/
inductive SubmitPhase (TxId : Type) where
  | idle
  | proposing
  | endorsed
  | committing
  | committed
  | listening
  | resolved
  | rejected (err : SubmitError TxId)
  deriving DecidableEq, Repr

/-- One call with what it has sent and received so far. -/
structure SubmitCall (TxId : Type) where
  phase : SubmitPhase TxId
  proposed : Option (ProposalAction TxId)
  endorsements : Option (List EndorsementResponse)
  broadcast : Option (CommitEnvelope TxId)
  awaited : Option TxId
  reported : Option (TxEvent TxId)
  deriving DecidableEq, Repr

inductive SubmitAction (TxId : Type) where
  | propose (request : SubmitRequest) (transactionId : TxId)
  | endorse (result : ProposalResponse)
  | commit
  | answer (result : CommitResponse)
  | listen
  | report (event : Except String (TxEvent TxId))
  | abort (message : String)

structure SubmitEvent (TxId : Type) where
  call : Nat
  action : SubmitAction TxId

structure SubmitState (TxId : Type) where
  shared : SharedProposal TxId
  calls : Nat → SubmitCall TxId

namespace SubmitCall

variable {TxId : Type}

def unstarted : SubmitCall TxId := ⟨.idle, none, none, none, none, none⟩

def Running (c : SubmitCall TxId) : Bool :=
  match c.phase with
  | .idle | .resolved | .rejected _ => false
  | _ => true

def reject (c : SubmitCall TxId) (err : SubmitError TxId) : SubmitCall TxId :=
  { c with phase := .rejected err }

/-- `proposal.send` up to its suspension: build, sign and send. -/
def propose (shared : SharedProposal TxId) (c : SubmitCall TxId) (request : SubmitRequest)
    (transactionId : TxId) : SharedProposal TxId × SubmitCall TxId :=
  let action : ProposalAction TxId := ⟨transactionId, request.proposed⟩
  ({ shared with transactionId := some transactionId, action := some action },
    { c with phase := .proposing, proposed := some action })

/-- The rest of `proposal.send`: the peers have answered. The SDK is taken to keep the whole list
of their answers in the proposal at this moment. -/
def endorse (shared : SharedProposal TxId) (c : SubmitCall TxId) (result : ProposalResponse) :
    SharedProposal TxId × SubmitCall TxId :=
  ({ shared with proposalResponses := result.responses },
    match EndorseALL result none with
    | .ok _ => { c with phase := .endorsed, endorsements := some result.responses }
    | .error err => c.reject (.intercepted err))

/-- `proposal.commit` up to its suspension. -/
def commit (shared : SharedProposal TxId) (c : SubmitCall TxId) : SubmitCall TxId :=
  { c with phase := .committing, broadcast := some ⟨shared.action, shared.proposalResponses⟩ }

def answer (c : SubmitCall TxId) (result : CommitResponse) : SubmitCall TxId :=
  match CommitSuccess result with
  | .ok _ => { c with phase := .committed }
  | .error err => c.reject (.intercepted err)

/-- `waitForTx` up to its suspension. -/
def listen (shared : SharedProposal TxId) (c : SubmitCall TxId) : SubmitCall TxId :=
  { c with
    phase := .listening
    awaited := shared.transactionId.map fun id => (EventHubQuery.waitForTx id).transactionId }

variable [DecidableEq TxId]

/-- The listener is only told of the transaction it was registered for. -/
def hears (c : SubmitCall TxId) : Except String (TxEvent TxId) → Bool
  | .error _ => true
  | .ok event => c.awaited = some event.transactionId

def report (c : SubmitCall TxId) (event : Except String (TxEvent TxId)) : SubmitCall TxId :=
  if c.hears event then
    match EventHubQuery.onTxEvent event with
    | .ok event => { c with phase := .resolved, reported := some event }
    | .error err => c.reject (.event err)
  else c

def advance (shared : SharedProposal TxId) (c : SubmitCall TxId) :
    SubmitAction TxId → SharedProposal TxId × SubmitCall TxId
  | .propose request transactionId =>
    if c.phase = .idle then c.propose shared request transactionId else (shared, c)
  | .endorse result => if c.phase = .proposing then c.endorse shared result else (shared, c)
  | .commit => if c.phase = .endorsed then (shared, c.commit shared) else (shared, c)
  | .answer result => if c.phase = .committing then (shared, c.answer result) else (shared, c)
  | .listen => if c.phase = .committed then (shared, c.listen shared) else (shared, c)
  | .report event => if c.phase = .listening then (shared, c.report event) else (shared, c)
  | .abort message => if c.Running then (shared, c.reject (.aborted message)) else (shared, c)

end SubmitCall

namespace SubmitState

variable {TxId : Type}

def initial : SubmitState TxId := ⟨⟨none, none, []⟩, fun _ => .unstarted⟩

variable [DecidableEq TxId]

def step (s : SubmitState TxId) (e : SubmitEvent TxId) : SubmitState TxId :=
  let (shared, c) := (s.calls e.call).advance s.shared e.action
  ⟨shared, Function.update s.calls e.call c⟩

/-- Any number of `submit` calls on one `Transaction`, their steps in the order of `es`. -/
def run (es : List (SubmitEvent TxId)) : SubmitState TxId := es.foldl step initial

end SubmitState

end FabricCommon
