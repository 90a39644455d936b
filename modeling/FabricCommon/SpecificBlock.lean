import FabricCommon.DeliverOutcome
import FabricCommon.EventHub
import FabricCommon.LifecycleProposal

namespace FabricCommon

open DeliverState

inductive SeekErrorResponse where
  | STRICT
  | BEST_EFFORT
  deriving DecidableEq, Repr

namespace protoTranslator

def HeaderType.CONFIG : Nat := 1
def HeaderType.DELIVER_SEEK_INFO : Nat := 5

structure ChannelHeader where
  type : Nat
  version : Nat
  channel_id : String
  tx_id : String
  timestamp : Nat
  deriving DecidableEq, Repr

structure Header where
  creator : Buffer
  nonce : Buffer
  channel_header : ChannelHeader
  deriving DecidableEq, Repr

/-- `orderer.SeekInfo` with all its fields. -/
structure DeliverSeekInfo extends SeekInfo where
  error_response : SeekErrorResponse
  deriving DecidableEq, Repr

/-- The payload of a deliver request, before it is encoded. -/
structure DeliverPayload where
  header : Header
  data : DeliverSeekInfo
  deriving DecidableEq, Repr

def buildChannelHeader (type : Nat) (ChannelId TxId : String) (timestamp : Nat) : ChannelHeader :=
  ⟨type, 1, ChannelId, TxId, timestamp⟩

def buildSeekPosition : BlockNumber → SeekPosition
  | .number heightFilter => .specified heightFilter
  | .NEWEST => .newest
  | .OLDEST => .oldest

def buildSeekInfo (start stop : SeekPosition) (behavior : SeekBehavior) : DeliverSeekInfo :=
  ⟨⟨start, stop, behavior⟩, .STRICT⟩

def buildSeekPayload (Creator Nonce : Buffer) (ChannelId TxId : String) (timestamp : Nat)
    (startHeight stopHeight : BlockNumber) (behavior : Option SeekBehavior) : DeliverPayload where
  header := ⟨Creator, Nonce,
    buildChannelHeader HeaderType.DELIVER_SEEK_INFO ChannelId TxId timestamp⟩
  data := buildSeekInfo (buildSeekPosition startHeight) (buildSeekPosition stopHeight)
    (behavior.getD .FAIL_IF_NOT_READY)

end protoTranslator

open protoTranslator

structure SigningIdentity where
  serialize : Buffer
  sign : DeliverPayload → Buffer

/-- What an identity context has calculated. -/
structure TransactionID where
  transactionId : String
  nonce : Buffer

structure DeliverEnvelope where
  signature : Buffer
  payload : DeliverPayload
  deriving DecidableEq, Repr

structure SpecificBlockOptions where
  waitIfUNAVAILABLE : Option Nat
  requestTimeout : Option Nat

/-- What the attempts of one `getSpecificBlock` share. `unsetIsNull` tells whether the library that
decodes the responses leaves `null` in the members that are not set. -/
structure SpecificBlock where
  envelope : DeliverEnvelope
  opts : SpecificBlockOptions
  unsetIsNull : Bool

def SigningIdentity.getSpecificBlock (signingIdentity : SigningIdentity) (id : TransactionID)
    (ChannelId : String) (blockHeight : BlockNumber) (opts : SpecificBlockOptions)
    (timestamp : Nat) (unsetIsNull : Bool) : SpecificBlock :=
  let payload := buildSeekPayload signingIdentity.serialize id.nonce ChannelId id.transactionId
    timestamp blockHeight blockHeight none
  ⟨⟨signingIdentity.sign payload, payload⟩, opts, unsetIsNull⟩

namespace SpecificBlock

def unavailable : DeliverStatus := .name "SERVICE_UNAVAILABLE"

/-- The `catch` of `sendTry`: an error is waited out when it is a status response. -/
def waitsOut (request : SpecificBlock) : DeliverError → Bool
  | .invalidStatus status =>
    request.opts.waitIfUNAVAILABLE.any (· ≠ 0) && status == unavailable && request.unsetIsNull
  | _ => false

end SpecificBlock

/-- One call of `sendDeliver`. -/
structure DeliverCall (Block : Type) where
  envelope : DeliverEnvelope
  requestTimeout : Option Nat
  stream : DeliverState Block

inductive FetchPhase (Block : Type) where
  | delivering
  | sleeping
  | settled (result : Except DeliverError (Option Block))

structure BlockFetch (Block : Type) where
  calls : List (DeliverCall Block)
  phase : FetchPhase Block

/-- An event on the stream of one of the calls, or the end of a `sleep`. -/
inductive FetchTurn (Block : Type) where
  | stream (call : Nat) (event : DeliverEvent Block)
  | awake

namespace SpecificBlock

variable {Block : Type} (request : SpecificBlock)

def sendDeliver : DeliverCall Block :=
  ⟨request.envelope, request.opts.requestTimeout, DeliverState.sent⟩

/-- `sendTry` after an event of the call it awaits: it goes on before the next event. -/
def goOn (stream : DeliverState Block) : FetchPhase Block :=
  match stream.promise with
  | .pending => .delivering
  | .resolved => .settled (.ok stream.responses.head?)
  | .rejected err => if request.waitsOut err then .sleeping else .settled (.error err)

def onStream (s : BlockFetch Block) (i : Nat) (event : DeliverEvent Block) : BlockFetch Block :=
  match s.calls[i]? with
  | none => s
  | some call =>
    let stream := call.stream.step event
    { calls := s.calls.set i { call with stream }
      phase :=
        match s.phase with
        | .delivering => if i + 1 = s.calls.length then request.goOn stream else .delivering
        | phase => phase }

def onAwake (s : BlockFetch Block) : BlockFetch Block :=
  match s.phase with
  | .sleeping => ⟨s.calls ++ [request.sendDeliver], .delivering⟩
  | _ => s

def step (s : BlockFetch Block) : FetchTurn Block → BlockFetch Block
  | .stream call event => request.onStream s call event
  | .awake => request.onAwake s

def start : BlockFetch Block := ⟨[request.sendDeliver], .delivering⟩

/-- `getSpecificBlock` after some turns of the event loop. -/
def run (turns : List (FetchTurn Block)) : BlockFetch Block :=
  turns.foldl request.step request.start

/-- No event so far has decided the call. -/
def Undecided (es : List (DeliverEvent Block)) : Prop :=
  StepRun.EachAfter (fun before e => ¬ e.Decides before) es

/-- The call was decided by `e`, after the events `es`; later events may have followed. -/
def DecidedBy (es : List (DeliverEvent Block)) (e : DeliverEvent Block)
    (stream : DeliverState Block) : Prop :=
  Undecided es ∧ e.Decides es ∧ ∃ later, stream = DeliverState.run (es ++ e :: later)

/-- The call was decided by a status response that is waited out. -/
def Unavailable (stream : DeliverState Block) : Prop :=
  ∃ es, DecidedBy es (.data (.status unavailable)) stream ∧
    request.waitsOut (.invalidStatus unavailable) = true

/-- What the promise of `getSpecificBlock` and the call it awaits have to do with one another. -/
def Follows (stream : DeliverState Block) : FetchPhase Block → Prop
  | .delivering => ∃ es, Undecided es ∧ stream = DeliverState.run es
  | .sleeping => request.Unavailable stream
  | .settled (.ok block) =>
    ∃ es e, DecidedBy es e stream ∧ e.verdict = .resolved ∧
      block = (es.filterMap DeliverEvent.block?).head?
  | .settled (.error err) =>
    ∃ es e, DecidedBy es e stream ∧ e.verdict = .rejected err ∧ request.waitsOut err = false

/-- Every call sends the same request, those before the last one were waited out, and the last one
is what the promise follows. -/
structure Tried (s : BlockFetch Block) : Prop where
  same : ∀ call ∈ s.calls, call.envelope = request.envelope
  last : ∃ earlier call, s.calls = earlier ++ [call] ∧
    (∀ call ∈ earlier, request.Unavailable call.stream) ∧ request.Follows call.stream s.phase

variable {request} {s : BlockFetch Block} {es : List (DeliverEvent Block)}
  {e event : DeliverEvent Block} {stream : DeliverState Block} {phase : FetchPhase Block}

theorem run_step (es : List (DeliverEvent Block)) (event : DeliverEvent Block) :
    (DeliverState.run es).step event = DeliverState.run (es ++ [event]) := by
  rw [run_append]
  rfl

theorem DecidedBy.later (h : DecidedBy es e stream) (event : DeliverEvent Block) :
    DecidedBy es e (stream.step event) := by
  obtain ⟨undecided, decides, later, rfl⟩ := h
  refine ⟨undecided, decides, later ++ [event], ?_⟩
  rw [run_step, List.append_assoc, List.cons_append]

theorem Unavailable.later (h : request.Unavailable stream) (event : DeliverEvent Block) :
    request.Unavailable (stream.step event) := by
  obtain ⟨es, decided, waits⟩ := h
  exact ⟨es, decided.later event, waits⟩

/-- Once decided, a call may hear more events without a change of its outcome. -/
theorem follows_later (settled : phase ≠ .delivering) (h : request.Follows stream phase)
    (event : DeliverEvent Block) : request.Follows (stream.step event) phase := by
  cases phase with
  | delivering => exact absurd rfl settled
  | sleeping => exact Unavailable.later h event
  | settled result =>
    cases result with
    | ok block =>
      obtain ⟨es, e, decided, resolved, first⟩ := h
      exact ⟨es, e, decided.later event, resolved, first⟩
    | error err =>
      obtain ⟨es, e, decided, rejected, final⟩ := h
      exact ⟨es, e, decided.later event, rejected, final⟩

/-- The only errors that are waited out come from a status response. -/
theorem status_of_waitsOut {err : DeliverError} (rejected : e.verdict = .rejected err)
    (waits : request.waitsOut err = true) :
    e = .data (.status unavailable) ∧ err = .invalidStatus unavailable := by
  cases err with
  | invalidStatus status =>
    have same : status = unavailable := by
      simp only [waitsOut, Bool.and_eq_true, beq_iff_eq] at waits
      exact waits.1.2
    cases e with
    | data response =>
      cases response with
      | status code =>
        simp only [DeliverEvent.verdict] at rejected
        split at rejected
        · cases rejected
        · cases rejected
          exact ⟨by rw [same], by rw [same]⟩
      | block block => cases rejected
      | other kind => cases rejected
    | _ => cases rejected
  | _ => cases waits

theorem goOn_follows (undecided : Undecided es) (event : DeliverEvent Block) :
    request.Follows (DeliverState.run (es ++ [event]))
      (request.goOn (DeliverState.run (es ++ [event]))) := by
  have pending := run_pending undecided
  by_cases decides : event.Decides es
  · have decided : DecidedBy es event (DeliverState.run (es ++ [event])) :=
      ⟨undecided, decides, [], rfl⟩
    have verdict := run_decides pending decides
    unfold goOn
    rw [verdict]
    cases outcome : event.verdict with
    | pending => exact absurd outcome (verdict_ne_pending decides.1)
    | resolved =>
      refine ⟨es, event, decided, outcome, ?_⟩
      obtain ⟨status, rfl⟩ := isStatus_of_verdict outcome
      rw [run_responses, List.filterMap_append]
      simp [DeliverEvent.block?]
    | rejected err =>
      dsimp only
      split
      next waits =>
        obtain ⟨rfl, rfl⟩ := status_of_waitsOut outcome waits
        exact ⟨es, decided, waits⟩
      next final => exact ⟨es, event, decided, outcome, by simpa using final⟩
  · have undecided' : Undecided (es ++ [event]) :=
      StepRun.eachAfter_concat.mpr ⟨undecided, decides⟩
    have waiting : request.goOn (DeliverState.run (es ++ [event])) = .delivering := by
      simp only [goOn, run_pending undecided']
    rw [waiting]
    exact ⟨es ++ [event], undecided', rfl⟩

theorem sent_follows : request.Follows (DeliverState.sent : DeliverState Block) .delivering :=
  ⟨[], StepRun.eachAfter_nil, rfl⟩

theorem start_tried : request.Tried (request.start : BlockFetch Block) where
  same call mem := by
    obtain rfl := List.mem_singleton.mp mem
    rfl
  last := ⟨[], request.sendDeliver, rfl, by simp, sent_follows⟩

theorem onAwake_tried (h : request.Tried s) : request.Tried (request.onAwake s) := by
  unfold onAwake
  split
  next asleep =>
    obtain ⟨earlier, call, calls, before, follows⟩ := h.last
    rw [asleep] at follows
    constructor
    · intro call' mem
      rcases List.mem_append.mp mem with old | new
      · exact h.same call' old
      · rw [List.mem_singleton.mp new]
        rfl
    · refine ⟨s.calls, request.sendDeliver, rfl, ?_, sent_follows⟩
      intro call' mem
      rw [calls, List.mem_append, List.mem_singleton] at mem
      rcases mem with old | rfl
      · exact before call' old
      · exact follows
  next => exact h

/-- The streams of the calls before the last one may go on, without effect. -/
theorem onStream_tried (h : request.Tried s) (i : Nat) (event : DeliverEvent Block) :
    request.Tried (request.onStream s i event) := by
  unfold onStream
  split
  next => exact h
  next call found =>
    obtain ⟨earlier, last, calls, before, follows⟩ := h.last
    dsimp only
    constructor
    · intro call' mem
      rcases List.mem_or_eq_of_mem_set mem with old | rfl
      · exact h.same call' old
      · exact h.same call (List.mem_of_getElem? found)
    · by_cases isLast : i = earlier.length
      · have awaited : i + 1 = s.calls.length := by simp [calls, isLast]
        have eq : call = last := by
          rw [calls, isLast] at found
          simpa using found.symm
        subst eq
        refine ⟨earlier, { call with stream := call.stream.step event }, ?_, before, ?_⟩
        · simp [calls, isLast]
        simp only [if_pos awaited]
        split
        next delivering =>
          rw [delivering] at follows
          obtain ⟨es, undecided, stream⟩ := follows
          rw [stream, run_step]
          exact goOn_follows undecided event
        next settled => exact follows_later settled follows event
      · have short : i < earlier.length := by
          obtain ⟨bound, _⟩ := List.getElem?_eq_some_iff.mp found
          rw [calls, List.length_append, List.length_singleton] at bound
          omega
        refine ⟨earlier.set i { call with stream := call.stream.step event }, last, ?_, ?_, ?_⟩
        · simp only [calls, List.set_append_left _ _ short]
        · have one : call ∈ earlier := by
            rw [calls, List.getElem?_append_left short] at found
            exact List.mem_of_getElem? found
          intro call' mem
          rcases List.mem_or_eq_of_mem_set mem with old | rfl
          · exact before call' old
          · exact (before call one).later event
        · have other : ¬ i + 1 = s.calls.length := by
            rw [calls, List.length_append, List.length_singleton]
            omega
          simp only [if_neg other]
          split
          next delivering => rwa [delivering] at follows
          next => exact follows

theorem run_tried (turns : List (FetchTurn Block)) : request.Tried (request.run turns) := by
  have kept : ∀ (s : BlockFetch Block) (turn : FetchTurn Block), request.Tried s →
      request.Tried (request.step s turn) := by
    intro s turn h
    cases turn with
    | stream call event => exact onStream_tried h call event
    | awake => exact onAwake_tried h
  exact StepRun.foldl_keeps kept start_tried turns

end SpecificBlock

/-- In any order of turns, `getSpecificBlock` repeats one signed request, each time after a status
response `SERVICE_UNAVAILABLE`, and its promise follows the last of the calls. -/
theorem getSpecificBlock_follows_last_attempt {Block : Type} (signingIdentity : SigningIdentity)
    (id : TransactionID) (ChannelId : String) (blockHeight : BlockNumber)
    (opts : SpecificBlockOptions) (timestamp : Nat) (unsetIsNull : Bool)
    (turns : List (FetchTurn Block)) :
    let request := signingIdentity.getSpecificBlock id ChannelId blockHeight opts timestamp
      unsetIsNull
    let s := request.run turns
    (∀ call ∈ s.calls, call.envelope = request.envelope) ∧
      ∃ earlier last, s.calls = earlier ++ [last] ∧
        (∀ call ∈ earlier, request.Unavailable call.stream) ∧
        request.Follows last.stream s.phase := by
  intro request s
  have tried : request.Tried s := SpecificBlock.run_tried turns
  exact ⟨tried.same, tried.last⟩

end FabricCommon
