import FabricCommon.EventListening

namespace FabricCommon.Golang

namespace Peer

structure BlockAndPrivateData where
  block : Option Common.Block
  privateDataMap : List (UInt64 × Bytes)

/-- What a `DeliverResponse` holds in its `Type`. -/
inductive DeliverResponse
  | status (status : Common.Status)
  | block (block : Option Common.Block)
  | filteredBlock (filteredBlock : Option FilteredBlock)
  | blockAndPrivateData (value : BlockAndPrivateData)
  | unset

/-- What `Send` and `Recv` come to on a stream: `recvErr` is the error that follows the responses,
which is `io.EOF` when there is none. -/
structure DeliverStream where
  sendErr : Option String
  responses : List DeliverResponse
  recvErr : Option String

structure DeliverClient where
  deliverWithPrivateData : Except String DeliverStream
  deliverFiltered : Except String DeliverStream

end Peer

/-- A call of one of the caller's functions, by its place among them. -/
structure ContinueCall where
  index : Nat
  this : DeliverResponseType
  deliverResponses : List DeliverResponseType

/-- Go code that calls functions of the caller, each call on record. -/
abbrev Recorded := StateT (List ContinueCall) GoM

/-- A function of the caller. It is called at most once with each history, so that what it answers
is a function of its arguments even where it keeps a state of its own. -/
abbrev UserFcn (β : Type) := DeliverResponseType → List DeliverResponseType → Bool × Option β

def recorded {β : Type} (index : Nat) (fcn : UserFcn β) : ContinueFcnOf Recorded β :=
  fun this all => do
    modify (· ++ [⟨index, this, all⟩])
    return fcn this all

/-- The functions in the order they are passed. -/
def recordedFrom {β : Type} : Nat → List (UserFcn β) → List (ContinueFcnOf Recorded β)
  | _, [] => []
  | index, fcn :: fcns => recorded index fcn :: recordedFrom (index + 1) fcns

structure Eventer (β : Type) where
  deliverClient : Peer.DeliverClient
  stream : Option Peer.DeliverStream
  Continue : Option (ContinueFcnOf Recorded β)

def newEventer {β : Type} (deliverClient : Peer.DeliverClient) : Eventer β :=
  ⟨deliverClient, none, none⟩

section

variable (goutils : Goutils) (protos : Protos) {β : Type} (text : String → β)

/-- `client, err := …` and `goutils.PanicError(err)`. -/
def opened : Except String Peer.DeliverStream → GoM (Option Peer.DeliverStream)
  | .ok stream => do
    goutils.panicError none
    return some stream
  | .error err => do
    goutils.panicError (some err)
    return none

def newBlockEventer (eventer : Eventer β) (continueFcns : List (ContinueFcnOf Recorded β)) :
    GoM (Eventer β) := do
  let client ← opened goutils eventer.deliverClient.deliverWithPrivateData
  return { eventer with
    stream := client
    Continue := some (continueBuilder protos text continueFcns) }

def newSimpleBlockEventer (eventer : Eventer β) : GoM (Eventer β) := do
  let client ← opened goutils eventer.deliverClient.deliverFiltered
  return { eventer with stream := client }

def translate : Peer.DeliverResponse → DeliverResponseType
  | .status status => ⟨some status, none, none, []⟩
  | .block block => ⟨none, block, none, []⟩
  | .filteredBlock filteredBlock => ⟨none, none, filteredBlock, []⟩
  | .blockAndPrivateData fullBlock => ⟨none, fullBlock.block, none, fullBlock.privateDataMap⟩
  | .unset => ⟨none, none, none, []⟩

/-- The loop of `SendRecv`. -/
def receive (Continue : Option (ContinueFcnOf Recorded β)) (recvErr : Option String) :
    List Peer.DeliverResponse → Option β → List DeliverResponseType →
      Recorded (Option β × List DeliverResponseType)
  | [], receiptData, deliverResponses =>
    match recvErr with
    | none => return (receiptData, deliverResponses)
    | some err => throw err
  | response :: rest, _, deliverResponses => do
    let translated := translate response
    let deliverResponses := deliverResponses ++ [translated]
    let next ← StateT.lift (deref Continue)
    let (toContinue, receiptData) ← next translated deliverResponses
    if toContinue then receive Continue recvErr rest receiptData deliverResponses
    else return (receiptData, deliverResponses)

def Eventer.sendRecv (eventer : Eventer β) : Recorded (Option β × List DeliverResponseType) := do
  let stream ← StateT.lift (deref eventer.stream)
  StateT.lift (goutils.panicError stream.sendErr)
  receive eventer.Continue stream.recvErr stream.responses none []

end

section

variable (protos : Protos) {β : Type} (text : String → β) (fcns : List (UserFcn β))

/-- What ends the stream at a response with the history up to it: a status, or the first function
that says stop. -/
def stopResult (this : DeliverResponseType) (all : List DeliverResponseType) :
    Option (Option β) :=
  match this.status with
  | some status => some (some (text (protos.statusString status)))
  | none => (fcns.find? fun fcn => !(fcn this all).1).map fun fcn => (fcn this all).2

/-- The calls of the functions from the given place on. -/
def asked (this : DeliverResponseType) (all : List DeliverResponseType) :
    Nat → List (UserFcn β) → List ContinueCall
  | _, [] => []
  | index, fcn :: fcns =>
    ⟨index, this, all⟩ :: if (fcn this all).1 then asked this all (index + 1) fcns else []

/-- The calls at one response. -/
def callsAt (this : DeliverResponseType) (all : List DeliverResponseType) : List ContinueCall :=
  match this.status with
  | some _ => []
  | none => asked this all 0 fcns

/-- What ends the stream at the `i`-th of the responses that follow a history. -/
def stopAt (history responses : List DeliverResponseType) (i : Nat) : Option (Option β) := do
  let this ← responses[i]?
  stopResult protos text fcns this (history ++ responses.take (i + 1))

/-- The result and the calls of a loop over the responses that follow a history: it takes all of
them, or those up to the first one that ends the stream. -/
structure Followed (history responses : List DeliverResponseType) (receiptData : Option β)
    (deliverResponses : List DeliverResponseType) (calls : List ContinueCall) : Prop where
  unstopped : (∀ i, stopAt protos text fcns history responses i = none) →
    deliverResponses = history ++ responses ∧ receiptData = none
  stopped : ∀ i result, stopAt protos text fcns history responses i = some result →
    (∀ j < i, stopAt protos text fcns history responses j = none) →
      deliverResponses = history ++ responses.take (i + 1) ∧ receiptData = result
  called : ∀ call ∈ calls, call.this.status = none ∧
    ∃ i, deliverResponses[i]? = some call.this ∧
      call.deliverResponses = deliverResponses.take (i + 1)

/-- The status responses that the built-in check knows. -/
def KnownStatus (this : DeliverResponseType) : Prop :=
  ∀ status, this.status = some status →
    status = Common.Status.SUCCESS ∨ status = Common.Status.NOT_FOUND

end

section

variable {protos : Protos} {β : Type} {text : String → β} {fcns : List (UserFcn β)}
  {this : DeliverResponseType} {all : List DeliverResponseType}

theorem continueAll_recorded (index : Nat) (fcn : UserFcn β)
    (rest : List (ContinueFcnOf Recorded β)) (log : List ContinueCall) :
    continueAll (recorded index fcn :: rest) this all log =
      if (fcn this all).1 then continueAll rest this all (log ++ [⟨index, this, all⟩])
      else .ok ((false, (fcn this all).2), log ++ [⟨index, this, all⟩]) := by
  cases proceeds : (fcn this all).1 with
  | true =>
    show (if (fcn this all).1 then continueAll rest this all
      else pure ((fcn this all).1, (fcn this all).2)) (log ++ [⟨index, this, all⟩]) = _
    rw [proceeds]
    rfl
  | false =>
    show (if (fcn this all).1 then continueAll rest this all
      else pure ((fcn this all).1, (fcn this all).2)) (log ++ [⟨index, this, all⟩]) = _
    rw [proceeds]
    rfl

theorem continueAll_recordedFrom (index : Nat) (log : List ContinueCall) :
    continueAll (recordedFrom index fcns) this all log =
      .ok ((((fcns.find? fun fcn => !(fcn this all).1).map fun fcn => (fcn this all).2).isNone,
        ((fcns.find? fun fcn => !(fcn this all).1).map fun fcn => (fcn this all).2).join),
        log ++ asked this all index fcns) := by
  induction fcns generalizing index log with
  | nil =>
    rw [asked, List.append_nil]
    rfl
  | cons fcn fcns ih =>
    rw [recordedFrom, continueAll_recorded]
    cases proceeds : (fcn this all).1 with
    | true => simp [ih, asked, proceeds]
    | false => simp [asked, proceeds]

theorem mem_asked {index : Nat} {call : ContinueCall} (member : call ∈ asked this all index fcns) :
    call.this = this ∧ call.deliverResponses = all := by
  induction fcns generalizing index with
  | nil => cases member
  | cons fcn fcns ih =>
    rcases List.mem_cons.mp member with rfl | member
    · exact ⟨rfl, rfl⟩
    · split at member
      next => exact ih member
      next => cases member

variable (protos text fcns all) in
theorem continueBuilder_recorded (known : KnownStatus this) (log : List ContinueCall) :
    continueBuilder protos text (recordedFrom 0 fcns) this all log =
      .ok (((stopResult protos text fcns this all).isNone,
        (stopResult protos text fcns this all).join), log ++ callsAt fcns this all) := by
  cases given : this.status with
  | none =>
    have passed : statusContinue protos text this all = (pure (true, none) : Recorded _) := by
      simp only [statusContinue, given]
    simp only [continueBuilder, continueAll, passed, stopResult, callsAt, given]
    exact continueAll_recordedFrom 0 log
  | some status =>
    have stopped : statusContinue protos text this all =
        (pure (false, some (text (protos.statusString status))) : Recorded _) := by
      simp only [statusContinue, given, known status given, if_true]
    simp only [continueBuilder, continueAll, stopped, stopResult, callsAt, given, List.append_nil]
    rfl

section Receive

variable {next : ContinueFcnOf Recorded β} {recvErr : Option String}
  {response : Peer.DeliverResponse} {rest : List Peer.DeliverResponse}
  {receiptData result : Option β}
  {history : List DeliverResponseType} {log log' : List ContinueCall}

theorem receive_cons :
    receive (some next) recvErr (response :: rest) receiptData history log =
      (next (translate response) (history ++ [translate response]) log >>= fun out =>
        (if out.1.1 then
          receive (some next) recvErr rest out.1.2 (history ++ [translate response])
        else pure (out.1.2, history ++ [translate response])) out.2) := rfl

theorem receive_proceeds
    (h : next (translate response) (history ++ [translate response]) log =
      .ok ((true, result), log')) :
    receive (some next) recvErr (response :: rest) receiptData history log =
      receive (some next) recvErr rest result (history ++ [translate response]) log' := by
  rw [receive_cons, h]
  rfl

theorem receive_stops
    (h : next (translate response) (history ++ [translate response]) log =
      .ok ((false, result), log')) :
    receive (some next) recvErr (response :: rest) receiptData history log =
      .ok ((result, history ++ [translate response]), log') := by
  rw [receive_cons, h]
  rfl

end Receive

section Followed

variable {history responses deliverResponses : List DeliverResponseType} {receiptData : Option β}
  {calls : List ContinueCall} {result : Option β}

theorem stopAt_succ (i : Nat) :
    stopAt protos text fcns history (this :: responses) (i + 1) =
      stopAt protos text fcns (history ++ [this]) responses i := by
  simp [stopAt]

theorem mem_callsAt {call : ContinueCall} (member : call ∈ callsAt fcns this all) :
    call.this = this ∧ call.deliverResponses = all ∧ this.status = none := by
  cases given : this.status with
  | some status =>
    simp only [callsAt, given] at member
    cases member
  | none =>
    simp only [callsAt, given] at member
    obtain ⟨same, history⟩ := mem_asked member
    exact ⟨same, history, rfl⟩

theorem Followed.nil : Followed protos text fcns history [] none history [] where
  unstopped _ := ⟨(List.append_nil _).symm, rfl⟩
  stopped i result stops _ := by
    cases stops
  called call member := by
    cases member

theorem Followed.stop
    (stops : stopResult protos text fcns this (history ++ [this]) = some result) :
    Followed protos text fcns history (this :: responses) result (history ++ [this])
      (callsAt fcns this (history ++ [this])) where
  unstopped none := by
    cases (none 0).symm.trans stops
  stopped i result' stops' before := by
    cases i with
    | zero =>
      cases stops.symm.trans stops'
      exact ⟨rfl, rfl⟩
    | succ i => cases (before 0 (Nat.succ_pos i)).symm.trans stops
  called call member := by
    obtain ⟨same, held, status⟩ := mem_callsAt member
    rw [same, held]
    exact ⟨status, history.length, by simp, (List.take_of_length_le (by simp)).symm⟩

theorem Followed.proceed
    (proceeds : stopResult protos text fcns this (history ++ [this]) = none)
    (extends_ : history ++ [this] <+: deliverResponses)
    (rest : Followed protos text fcns (history ++ [this]) responses receiptData deliverResponses
      calls) :
    Followed protos text fcns history (this :: responses) receiptData deliverResponses
      (callsAt fcns this (history ++ [this]) ++ calls) where
  unstopped none := by
    obtain ⟨all, receipt⟩ := rest.unstopped fun i => (stopAt_succ i).symm.trans (none (i + 1))
    exact ⟨all.trans (by simp), receipt⟩
  stopped i result stops before := by
    cases i with
    | zero => cases proceeds.symm.trans stops
    | succ i =>
      obtain ⟨all, receipt⟩ := rest.stopped i result ((stopAt_succ i).symm.trans stops)
        fun j earlier => (stopAt_succ j).symm.trans (before (j + 1) (by omega))
      exact ⟨all.trans (by simp), receipt⟩
  called call member := by
    rcases List.mem_append.mp member with member | member
    · obtain ⟨same, held, status⟩ := mem_callsAt member
      obtain ⟨later, rfl⟩ := extends_
      rw [same, held]
      exact ⟨status, history.length, by simp, (List.take_left' (by simp)).symm⟩
    · exact rest.called call member

end Followed

theorem receive_followed (responses : List Peer.DeliverResponse)
    (known : ∀ response ∈ responses, KnownStatus (translate response)) :
    ∀ history log, ∃ receiptData deliverResponses calls,
      receive (some (continueBuilder protos text (recordedFrom 0 fcns))) none responses none history
        log = .ok ((receiptData, deliverResponses), log ++ calls) ∧
      Followed protos text fcns history (responses.map translate) receiptData deliverResponses
        calls ∧
      history <+: deliverResponses := by
  induction responses with
  | nil =>
    intro history log
    exact ⟨none, history, [], by rw [List.append_nil]; rfl, .nil, List.prefix_refl history⟩
  | cons response responses ih =>
    intro history log
    have consulted := continueBuilder_recorded protos text fcns
      (history ++ [translate response]) (known response List.mem_cons_self) log
    cases stops : stopResult protos text fcns (translate response)
        (history ++ [translate response]) with
    | some result =>
      rw [stops] at consulted
      exact ⟨result, _, _, receive_stops consulted, .stop stops, List.prefix_append ..⟩
    | none =>
      rw [stops] at consulted
      obtain ⟨receiptData, deliverResponses, calls, run, rest, extended⟩ :=
        ih (fun response member => known response (List.mem_cons_of_mem _ member))
          (history ++ [translate response])
          (log ++ callsAt fcns (translate response) (history ++ [translate response]))
      refine ⟨receiptData, deliverResponses, _, ?_, .proceed stops extended rest,
        (List.prefix_append ..).trans extended⟩
      rw [receive_proceeds consulted, ← List.append_assoc]
      exact run

end

/-- The constructors of a `BlockEventer`. -/
inductive BlockEventer (β : Type)
  | NewBlockEventer (continueFcns : List (UserFcn β))
  | NewSimpleBlockEventer

namespace BlockEventer

variable (goutils : Goutils) (protos : Protos) {β : Type} (text : String → β)

def fcns : BlockEventer β → List (UserFcn β)
  | NewBlockEventer continueFcns => continueFcns
  | NewSimpleBlockEventer => []

def make (deliverClient : Peer.DeliverClient) : BlockEventer β → GoM (Eventer β)
  | NewBlockEventer continueFcns =>
    newBlockEventer goutils protos text (newEventer deliverClient) (recordedFrom 0 continueFcns)
  | NewSimpleBlockEventer => newSimpleBlockEventer goutils (newEventer deliverClient)

/-- The stream that the constructor opens. -/
def opens (deliverClient : Peer.DeliverClient) : BlockEventer β → Except String Peer.DeliverStream
  | NewBlockEventer _ => deliverClient.deliverWithPrivateData
  | NewSimpleBlockEventer => deliverClient.deliverFiltered

/-- `SendRecv` on the eventer returns what the status check and the functions make of the stream. -/
def FollowsContinue (c : BlockEventer β) (deliverClient : Peer.DeliverClient)
    (responses : List Peer.DeliverResponse) : Prop :=
  ∃ eventer receiptData deliverResponses calls,
    c.make goutils protos text deliverClient = .ok eventer ∧
    eventer.sendRecv goutils [] = .ok ((receiptData, deliverResponses), calls) ∧
    Followed protos text c.fcns [] (responses.map translate) receiptData deliverResponses calls

variable {goutils protos text} {deliverClient : Peer.DeliverClient} {stream : Peer.DeliverStream}

theorem opened_ok (stream : Peer.DeliverStream) :
    opened goutils (.ok stream) = .ok (some stream) := by
  simp only [opened, (goutils.panicError_ok none).mpr rfl]
  rfl

theorem sendRecv_eq {eventer : Eventer β} (held : eventer.stream = some stream)
    (sends : stream.sendErr = none) (log : List ContinueCall) :
    eventer.sendRecv goutils log =
      receive eventer.Continue stream.recvErr stream.responses none [] log := by
  have returned : goutils.panicError stream.sendErr = .ok () := (goutils.panicError_ok _).mpr sends
  obtain ⟨client, _, next⟩ := eventer
  cases held
  show ((goutils.panicError stream.sendErr >>= fun done => pure (done, log)) >>= fun out =>
    receive next stream.recvErr stream.responses none [] out.2) = _
  rw [returned]
  rfl

theorem make_NewBlockEventer (opens : deliverClient.deliverWithPrivateData = .ok stream)
    (continueFcns : List (UserFcn β)) :
    (NewBlockEventer continueFcns).make goutils protos text deliverClient =
      .ok ⟨deliverClient, some stream,
        some (continueBuilder protos text (recordedFrom 0 continueFcns))⟩ := by
  simp only [make, newBlockEventer, newEventer, opens, opened_ok]
  rfl

theorem make_NewSimpleBlockEventer (opens : deliverClient.deliverFiltered = .ok stream) :
    (NewSimpleBlockEventer : BlockEventer β).make goutils protos text deliverClient =
      .ok ⟨deliverClient, some stream, none⟩ := by
  simp only [make, newSimpleBlockEventer, newEventer, opens, opened_ok]
  rfl

theorem followsContinue_iff (c : BlockEventer β) (deliverClient : Peer.DeliverClient)
    (stream : Peer.DeliverStream) (opens : c.opens deliverClient = .ok stream)
    (sends : stream.sendErr = none) (ends : stream.recvErr = none)
    (known : ∀ response ∈ stream.responses, KnownStatus (translate response)) :
    c.FollowsContinue goutils protos text deliverClient stream.responses ↔
      c ≠ NewSimpleBlockEventer ∨ stream.responses = [] := by
  cases c with
  | NewBlockEventer continueFcns =>
    refine iff_of_true ?_ (.inl nofun)
    obtain ⟨receiptData, deliverResponses, calls, run, followed, _⟩ :=
      receive_followed stream.responses known [] []
    refine ⟨_, receiptData, deliverResponses, calls, make_NewBlockEventer opens continueFcns, ?_,
      followed⟩
    rw [sendRecv_eq rfl sends, ends]
    exact run
  | NewSimpleBlockEventer =>
    constructor
    · intro h
      obtain ⟨eventer, receiptData, deliverResponses, calls, made, run, _⟩ := h
      cases (make_NewSimpleBlockEventer opens).symm.trans made
      rw [sendRecv_eq rfl sends] at run
      cases received : stream.responses with
      | nil => exact .inr rfl
      | cons response responses =>
        rw [received] at run
        cases run
    · intro h
      have empty : stream.responses = [] := h.resolve_left (not_not.mpr rfl)
      refine ⟨_, none, [], [], make_NewSimpleBlockEventer opens, ?_, ?_⟩
      · rw [sendRecv_eq rfl sends, ends, empty]
        rfl
      · rw [empty]
        exact .nil

/-- A peer that sends one block, then the status. -/
def replayStream : Peer.DeliverStream :=
  ⟨none, [.block (some ⟨some ⟨0⟩, none, none⟩), .status Common.Status.SUCCESS], none⟩

def replayClient : Peer.DeliverClient := ⟨.ok replayStream, .ok replayStream⟩

theorem knownStatus_replay :
    ∀ response ∈ replayStream.responses, KnownStatus (translate response) := by
  intro response member status held
  rcases List.mem_cons.mp member with rfl | member
  · cases held
  · rw [List.mem_singleton.mp member] at held
    cases held
    exact .inl rfl

theorem followsContinue_iff_replay :
    (NewBlockEventer [fun _ _ => (true, none)]).FollowsContinue assertions (invocationProtos []) id
        replayClient replayStream.responses ↔
      NewBlockEventer [fun _ _ => (true, none)] ≠ (NewSimpleBlockEventer : BlockEventer String) ∨
        replayStream.responses = [] :=
  followsContinue_iff (NewBlockEventer [fun _ _ => (true, none)]) replayClient replayStream rfl rfl
    rfl knownStatus_replay

theorem not_followsContinue_simple :
    ¬ (NewSimpleBlockEventer : BlockEventer String).FollowsContinue assertions
      (invocationProtos []) id replayClient replayStream.responses := by
  intro h
  obtain ⟨eventer, receiptData, deliverResponses, calls, made, run, _⟩ := h
  have opens : replayClient.deliverFiltered = .ok replayStream := rfl
  cases (make_NewSimpleBlockEventer opens).symm.trans made
  rw [sendRecv_eq rfl rfl] at run
  cases run

end BlockEventer

end FabricCommon.Golang