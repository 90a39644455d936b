import FabricCommon.EventHubQuery

namespace FabricCommon

/-- The payload that one operation on a hub has built, the operations counted from zero. -/
structure SeekRequest (TxId : Type) where
  operation : Nat
  payload : SeekPayload TxId

/-- The calls of the event service that a hub makes: `sign` with a signature of the payload, and
`send`. -/
inductive HubAction (TxId : Type) where
  | sign (request : SeekRequest TxId)
  | send (request : SeekRequest TxId)

/-- `awaiting` are the payloads of the `build` calls that are suspended on the signing callback. -/
structure SigningHub (TxId : Type) where
  signFunction : Bool
  awaiting : List (SeekRequest TxId)
  started : Nat
  trace : List (HubAction TxId)

/-- A turn of the event loop that concerns the hub. -/
inductive HubTurn (TxId : Type) where
  | signingProcess
  | start (op : HubOperation) (transactionId : TxId)
  | signatureResolved (index : Nat)

namespace SigningHub

variable {TxId : Type}

def opened : SigningHub TxId := ⟨false, [], 0, []⟩

/-- `build` up to its first suspension. -/
def build (s : SigningHub TxId) (request : SeekRequest TxId) : SigningHub TxId :=
  if s.signFunction then { s with awaiting := s.awaiting ++ [request] }
  else { s with trace := s.trace ++ [.sign request] }

def connect (s : SigningHub TxId) (request : SeekRequest TxId) : SigningHub TxId :=
  { s with trace := s.trace ++ [.send request] }

def request (s : SigningHub TxId) (op : HubOperation) (transactionId : TxId) : SeekRequest TxId :=
  ⟨s.started, EventHub.build transactionId op.options⟩

/-- An operation builds, registers its listener and connects, all in one turn. -/
def start (s : SigningHub TxId) (op : HubOperation) (transactionId : TxId) : SigningHub TxId :=
  let request := s.request op transactionId
  (({ s with started := s.started + 1 } : SigningHub TxId).build request).connect request

/-- A promise of the signing callback resolves and the `build` that awaits it goes on. -/
def signatureResolved (s : SigningHub TxId) (index : Nat) : SigningHub TxId :=
  match s.awaiting[index]? with
  | some request =>
    { s with awaiting := s.awaiting.eraseIdx index, trace := s.trace ++ [.sign request] }
  | none => s

def step (s : SigningHub TxId) : HubTurn TxId → SigningHub TxId
  | .signingProcess => { s with signFunction := true }
  | .start op transactionId => s.start op transactionId
  | .signatureResolved index => s.signatureResolved index

def run (turns : List (HubTurn TxId)) : SigningHub TxId := turns.foldl step opened

end SigningHub

open SigningHub

/-- No payload is sent before it has been signed. -/
def SignedBeforeSent {TxId : Type} (trace : List (HubAction TxId)) : Prop :=
  StepRun.EachAfter
    (fun before action => ∀ request, action = .send request → .sign request ∈ before) trace

section

variable {TxId : Type} {trace : List (HubAction TxId)} {request : SeekRequest TxId}
  {s : SigningHub TxId} {turn : HubTurn TxId}

theorem signedBeforeSent_sign : SignedBeforeSent (trace ++ [.sign request]) ↔
    SignedBeforeSent trace := by
  rw [SignedBeforeSent, StepRun.eachAfter_concat]
  simp [SignedBeforeSent]

theorem signedBeforeSent_send : SignedBeforeSent (trace ++ [.send request]) ↔
    SignedBeforeSent trace ∧ .sign request ∈ trace := by
  rw [SignedBeforeSent, StepRun.eachAfter_concat]
  simp [SignedBeforeSent]

/-- Every payload that is signed, now or later, was built by an operation that has started. -/
structure SigningHub.Numbered (s : SigningHub TxId) : Prop where
  signed : ∀ request, .sign request ∈ s.trace → request.operation < s.started
  awaiting : ∀ request ∈ s.awaiting, request.operation < s.started

theorem start_started (op : HubOperation) (transactionId : TxId) :
    (s.start op transactionId).started = s.started + 1 := by
  unfold SigningHub.start build connect
  split <;> rfl

theorem start_numbered (h : s.Numbered) (op : HubOperation) (transactionId : TxId) :
    (s.start op transactionId).Numbered := by
  have later : ∀ request : SeekRequest TxId, request.operation < s.started →
      request.operation < s.started + 1 := fun _ bound => Nat.lt_succ_of_lt bound
  have own : (s.request op transactionId).operation < s.started + 1 := Nat.lt_succ_self _
  constructor
  · intro request signed
    have cases : .sign request ∈ s.trace ∨ request = s.request op transactionId := by
      cases offline : s.signFunction
      · simpa [SigningHub.start, build, connect, offline] using signed
      · exact Or.inl (by simpa [SigningHub.start, build, connect, offline] using signed)
    rw [start_started]
    rcases cases with old | rfl
    · exact later request (h.signed request old)
    · exact own
  · intro request waits
    have cases : request ∈ s.awaiting ∨ request = s.request op transactionId := by
      cases offline : s.signFunction
      · exact Or.inl (by simpa [SigningHub.start, build, connect, offline] using waits)
      · simpa [SigningHub.start, build, connect, offline] using waits
    rw [start_started]
    rcases cases with old | rfl
    · exact later request (h.awaiting request old)
    · exact own

theorem signatureResolved_numbered (h : s.Numbered) (index : Nat) :
    (s.signatureResolved index).Numbered := by
  unfold SigningHub.signatureResolved
  split
  next resolved found =>
    constructor
    · intro request signed
      rcases List.mem_append.mp signed with old | new
      · exact h.signed request old
      · have eq : request = resolved := by simpa using new
        rw [eq]
        exact h.awaiting resolved (List.mem_of_getElem? found)
    · intro request waits
      exact h.awaiting request (List.mem_of_mem_eraseIdx waits)
  next => exact h

theorem step_numbered (h : s.Numbered) : (s.step turn).Numbered := by
  cases turn with
  | signingProcess => exact ⟨h.signed, h.awaiting⟩
  | start op transactionId => exact start_numbered h op transactionId
  | signatureResolved index => exact signatureResolved_numbered h index

theorem run_numbered (turns : List (HubTurn TxId)) : (run turns).Numbered :=
  StepRun.foldl_keeps (fun _ _ => step_numbered) ⟨by simp [opened], by simp [opened]⟩ turns

theorem start_signedBeforeSent (numbered : s.Numbered) (op : HubOperation)
    (transactionId : TxId) : SignedBeforeSent (s.start op transactionId).trace ↔
      SignedBeforeSent s.trace ∧ s.signFunction = false := by
  cases offline : s.signFunction with
  | true =>
    have sent : (s.start op transactionId).trace =
        s.trace ++ [.send (s.request op transactionId)] := by
      simp [SigningHub.start, build, connect, offline]
    have unsigned : .sign (s.request op transactionId) ∉ s.trace := fun signed =>
      Nat.lt_irrefl _ (numbered.signed _ signed)
    rw [sent, signedBeforeSent_send]
    simp [unsigned]
  | false =>
    have sent : (s.start op transactionId).trace = s.trace ++
        [.sign (s.request op transactionId)] ++ [.send (s.request op transactionId)] := by
      simp [SigningHub.start, build, connect, offline]
    rw [sent, signedBeforeSent_send, signedBeforeSent_sign]
    simp

theorem step_signFunction :
    (s.step turn).signFunction = true ↔ s.signFunction = true ∨ turn = .signingProcess := by
  cases turn with
  | signingProcess => simp [step]
  | start op transactionId =>
    cases offline : s.signFunction <;> simp [step, SigningHub.start, build, connect, offline]
  | signatureResolved index =>
    simp only [step, SigningHub.signatureResolved, reduceCtorEq, or_false]
    split <;> rfl

theorem run_concat (turns : List (HubTurn TxId)) (turn : HubTurn TxId) :
    run (turns ++ [turn]) = (run turns).step turn := List.foldl_append

theorem run_signFunction (turns : List (HubTurn TxId)) :
    (run turns).signFunction = true ↔ .signingProcess ∈ turns := by
  induction turns using List.reverseRecOn with
  | nil => simp [run, opened]
  | append_singleton turns turn ih =>
    rw [run_concat, step_signFunction, ih, List.mem_append, List.mem_singleton]
    exact or_congr_right eq_comm

theorem step_signedBeforeSent (numbered : s.Numbered) :
    SignedBeforeSent (s.step turn).trace ↔ SignedBeforeSent s.trace ∧
      ∀ op transactionId, turn = .start op transactionId → s.signFunction = false := by
  cases turn with
  | signingProcess => simp [step]
  | start op transactionId =>
    rw [step, start_signedBeforeSent numbered]
    simp
  | signatureResolved index =>
    simp only [step, SigningHub.signatureResolved, reduceCtorEq, false_implies, implies_true,
      and_true]
    split
    next request found => exact signedBeforeSent_sign
    next => rfl

end

/-- Every request of a run is signed before it is sent exactly when no operation starts on the hub
after a signing callback has been installed. -/
theorem seeks_signed_before_sent_iff {TxId : Type} (turns : List (HubTurn TxId)) :
    SignedBeforeSent (run turns).trace ↔
      StepRun.EachAfter (fun before turn => ∀ op transactionId, turn = .start op transactionId →
        .signingProcess ∉ before) turns := by
  induction turns using List.reverseRecOn with
  | nil => exact ⟨fun _ => StepRun.eachAfter_nil, fun _ => StepRun.eachAfter_nil⟩
  | append_singleton turns turn ih =>
    rw [run_concat, step_signedBeforeSent (run_numbered turns), ih, StepRun.eachAfter_concat]
    simp only [← run_signFunction, Bool.not_eq_true]

/-- With a callback installed, the newest block is asked for before the callback has answered. -/
theorem seek_is_sent_unsigned :
    ¬ SignedBeforeSent (run [.signingProcess, .start .getLastBlock 7,
      .signatureResolved 0] : SigningHub Nat).trace := by
  intro h
  have signed := h [] _ [.sign ⟨0, EventHub.build 7 HubOperation.getLastBlock.options⟩] rfl _ rfl
  cases signed

end FabricCommon
