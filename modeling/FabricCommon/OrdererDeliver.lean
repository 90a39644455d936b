import FabricCommon.StepRun
import Mathlib.Data.List.Induction

namespace FabricCommon

/-- `response.status`: the name of the code or its number. -/
inductive DeliverStatus where
  | name (status : String)
  | code (status : Nat)
  deriving DecidableEq, Repr

/-- A deliver response by its `Type`; `Type` names the member that is set. -/
inductive DeliverResponse (Block : Type) where
  | block (block : Block)
  | status (status : DeliverStatus)
  | other (kind : String)

/-- What the stream and the timer report to the handlers of one `sendDeliver` call. -/
inductive DeliverEvent (Block : Type) where
  | data (response : DeliverResponse Block)
  | status (metadata : String)
  | streamEnd
  | error (code : Int) (message : String)
  | timeout

inductive DeliverError where
  | timeout (error_msg : String)
  | invalidStatus (status : DeliverStatus)
  | systemError
  | stream (code : Int) (message : String)
  deriving DecidableEq, Repr

/-- The promise resolves with the array `responses` itself, so its value is that field. -/
inductive DeliverPromise where
  | pending
  | resolved
  | rejected (err : DeliverError)
  deriving DecidableEq, Repr

inductive DeliverTimer where
  | armed
  | fired
  | cleared
  deriving DecidableEq, Repr

structure DeliverState (Block : Type) where
  responses : List Block
  error_msg : String
  promise : DeliverPromise
  timer : DeliverTimer
  ended : Bool
  cancelled : Bool

namespace DeliverState

variable {Block : Type}

/-- The timer is set and no request is written yet. -/
def opened : DeliverState Block :=
  ⟨[], "SYSTEM_TIMEOUT", .pending, .armed, false, false⟩

/-- After `stream.write`; the handlers run from here on. -/
def sent : DeliverState Block := { opened with error_msg := "REQUEST_TIMEOUT" }

/-- Only the first settlement of a promise counts. -/
def settle (s : DeliverState Block) (outcome : DeliverPromise) : DeliverState Block :=
  { s with promise := if s.promise = .pending then outcome else s.promise }

def endStream (s : DeliverState Block) : DeliverState Block := { s with ended := true }

def onData (s : DeliverState Block) : DeliverResponse Block → DeliverState Block
  | .block block => { s with responses := s.responses ++ [block] }
  | .status status =>
    if status = .name "SUCCESS" ∨ status = .code 200 then s.endStream.settle .resolved
    else s.endStream.settle (.rejected (.invalidStatus status))
  | .other _ => s.endStream.settle (.rejected .systemError)

def onEnd (s : DeliverState Block) : DeliverState Block :=
  { s with timer := .cleared, cancelled := true }

def onError (s : DeliverState Block) (code : Int) (message : String) : DeliverState Block :=
  s.endStream.settle
    (.rejected (.stream code (if code = 14 then "SERVICE_UNAVAILABLE" else message)))

/-- The callback of `setTimeout`, which a timer that is cleared or has fired never runs. -/
def onTimeout (s : DeliverState Block) : DeliverState Block :=
  match s.timer with
  | .armed => { s.endStream.settle (.rejected (.timeout s.error_msg)) with timer := .fired }
  | _ => s

def step (s : DeliverState Block) : DeliverEvent Block → DeliverState Block
  | .data response => s.onData response
  | .status _ => s
  | .streamEnd => s.onEnd
  | .error code message => s.onError code message
  | .timeout => s.onTimeout

def Settled (s : DeliverState Block) : Prop := s.promise ≠ .pending

/-- `sendDeliver` after the events `es`. -/
def run (es : List (DeliverEvent Block)) : DeliverState Block := es.foldl step sent

end DeliverState

/-- Events on which some handler settles the promise. -/
def DeliverEvent.Deciding {Block : Type} : DeliverEvent Block → Prop
  | .data (.block _) => False
  | .data _ => True
  | .status _ => False
  | .streamEnd => False
  | .error _ _ => True
  | .timeout => True

def DeliverEvent.IsStatus {Block : Type} (e : DeliverEvent Block) : Prop :=
  ∃ status, e = .data (.status status)

namespace DeliverState

section

variable {Block : Type} {s : DeliverState Block} {e : DeliverEvent Block}

theorem settle_pending {outcome : DeliverPromise} (h : s.promise = .pending) :
    (s.settle outcome).promise = outcome := by simp [settle, h]

theorem settle_settled {outcome : DeliverPromise} (h : s.Settled) :
    (s.settle outcome).promise = s.promise := by
  simp only [settle, if_neg h]

theorem settle_settles {outcome : DeliverPromise} (h : outcome ≠ .pending) :
    (s.settle outcome).Settled := by
  by_cases pending : s.promise = .pending
  · rw [Settled, settle_pending pending]
    exact h
  · rw [Settled, settle_settled pending]
    exact pending

theorem step_settled (h : s.Settled) : (s.step e).promise = s.promise := by
  have ended : s.endStream.promise ≠ .pending := h
  cases e with
  | data response =>
    cases response with
    | block block => rfl
    | status status =>
      simp only [step, onData]
      split <;> exact settle_settled ended
    | other kind => exact settle_settled ended
  | status metadata => rfl
  | streamEnd => rfl
  | error code message => exact settle_settled ended
  | timeout =>
    simp only [step, onTimeout]
    split
    next => exact settle_settled ended
    next => rfl

theorem step_undecided (h : ¬ e.Deciding) : (s.step e).promise = s.promise := by
  cases e with
  | data response =>
    cases response with
    | block block => rfl
    | status status => exact absurd trivial h
    | other kind => exact absurd trivial h
  | status metadata => rfl
  | streamEnd => rfl
  | error code message => exact absurd trivial h
  | timeout => exact absurd trivial h

theorem step_keeps_settled (h : s.Settled) : (s.step e).Settled := by
  rw [Settled, step_settled h]
  exact h

theorem step_decided (armed : s.timer = .armed) (h : e.Deciding) : (s.step e).Settled := by
  cases e with
  | data response =>
    cases response with
    | block block => exact h.elim
    | status status =>
      simp only [step, onData]
      split <;> exact settle_settles (by simp)
    | other kind => exact settle_settles (by simp)
  | status metadata => exact h.elim
  | streamEnd => exact h.elim
  | error code message => exact settle_settles (by simp)
  | timeout =>
    have settled : (s.endStream.settle (.rejected (.timeout s.error_msg))).Settled :=
      settle_settles (by simp)
    simpa only [Settled, step, onTimeout, armed] using settled

theorem step_resolved (h : (s.step e).promise = .resolved) :
    s.promise = .resolved ∨ e.IsStatus := by
  by_cases pending : s.promise = .pending
  · have ended : s.endStream.promise = .pending := pending
    cases e with
    | data response =>
      cases response with
      | block block => exact Or.inl h
      | status status => exact Or.inr ⟨status, rfl⟩
      | other kind => simp [step, onData, settle_pending ended] at h
    | status metadata => exact Or.inl h
    | streamEnd => exact Or.inl h
    | error code message => simp [step, onError, settle_pending ended] at h
    | timeout =>
      simp only [step, onTimeout] at h
      split at h
      next => simp [settle_pending ended] at h
      next => exact Or.inl h
  · exact Or.inl (step_settled pending ▸ h)

theorem step_timer (h : (s.step e).timer ≠ s.timer) :
    (e = .streamEnd ∧ (s.step e).timer = .cleared) ∨
      (e = .timeout ∧ s.timer = .armed ∧ (s.step e).timer = .fired) := by
  cases e with
  | data response =>
    cases response with
    | block block => exact absurd rfl h
    | status status =>
      refine absurd ?_ h
      simp only [step, onData]
      split <;> rfl
    | other kind => exact absurd rfl h
  | status metadata => exact absurd rfl h
  | streamEnd => exact Or.inl ⟨rfl, rfl⟩
  | error code message => exact absurd rfl h
  | timeout =>
    simp only [step, onTimeout] at h ⊢
    split at h
    next armed => simp [armed]
    next => exact absurd rfl h

/-- A timer that has fired has settled the promise. -/
def FiredSettled (s : DeliverState Block) : Prop := s.timer = .fired → s.Settled

theorem step_firedSettled (h : FiredSettled s) : FiredSettled (s.step e) := by
  intro fired
  by_cases same : (s.step e).timer = s.timer
  · exact step_keeps_settled (h (same ▸ fired))
  · rcases step_timer same with ⟨_, cleared⟩ | ⟨rfl, armed, _⟩
    · rw [cleared] at fired
      cases fired
    · exact step_decided armed trivial

theorem foldl_settled (h : s.Settled) (es : List (DeliverEvent Block)) :
    (es.foldl step s).Settled := StepRun.foldl_keeps (fun _ _ hs => step_keeps_settled hs) h es

end

section

variable {Block : Type} {es pre post : List (DeliverEvent Block)} {e : DeliverEvent Block}

theorem run_append (es more : List (DeliverEvent Block)) :
    run (es ++ more) = more.foldl step (run es) := List.foldl_append

theorem run_firedSettled (es : List (DeliverEvent Block)) : FiredSettled (run es) :=
  StepRun.foldl_keeps (fun _ _ => step_firedSettled) (fun h => by cases h) es

theorem run_undecided (h : ∀ e ∈ es, ¬ e.Deciding) : (run es).promise = .pending := by
  induction es using List.reverseRecOn with
  | nil => rfl
  | append_singleton es e ih =>
    rw [run_append, List.foldl_cons, List.foldl_nil, step_undecided (h e (by simp))]
    exact ih fun e' he => h e' (by simp [he])

theorem run_resolved (h : (run es).promise = .resolved) : ∃ e ∈ es, e.IsStatus := by
  have status := StepRun.foldl_raised (I := fun s : DeliverState Block => s.promise = .resolved)
    (fun s e => step_resolved) h
  rcases status with first | ⟨before, e, after, rfl, status⟩
  · cases first
  · exact ⟨e, by simp, status⟩

theorem run_cleared (h : (run es).timer = .cleared) : DeliverEvent.streamEnd ∈ es := by
  have clears : ∀ (s : DeliverState Block) (e : DeliverEvent Block),
      (s.step e).timer = .cleared → s.timer = .cleared ∨ e = .streamEnd := by
    intro s e cleared
    by_cases same : (s.step e).timer = s.timer
    · exact Or.inl (same ▸ cleared)
    · rcases step_timer same with ⟨ended, _⟩ | ⟨_, _, fired⟩
      · exact Or.inr ended
      · rw [fired] at cleared
        cases cleared
  have cleared := StepRun.foldl_raised (I := fun s : DeliverState Block => s.timer = .cleared)
    clears h
  rcases cleared with first | ⟨before, e, after, rfl, rfl⟩
  · cases first
  · simp

/-- A deciding event that comes before the end of the stream settles the promise for good. -/
theorem run_decided (he : e ∈ es) (h : e.Deciding) (open' : DeliverEvent.streamEnd ∉ es) :
    (run es).Settled := by
  obtain ⟨before, after, rfl⟩ := List.append_of_mem he
  rw [run_append, List.foldl_cons]
  refine foldl_settled ?_ after
  cases timer : (run before).timer with
  | armed => exact step_decided timer h
  | fired => exact step_keeps_settled (run_firedSettled before timer)
  | cleared => exact absurd (List.mem_append_left _ (run_cleared timer)) open'

end

end DeliverState

open DeliverState

/-- With the timer gone, the caller has its answer. -/
def NeverStranded {Block : Type} (s : DeliverState Block) : Prop :=
  s.timer = .cleared → s.Settled

/-- No state the events lead through strands the caller, and an end of the stream without a status
response before it leaves a rejection. -/
def SettlesCaller {Block : Type} (es : List (DeliverEvent Block)) : Prop :=
  (∀ pre, pre <+: es → NeverStranded (run pre)) ∧
    ∀ pre, pre ++ [.streamEnd] <+: es → (∀ e ∈ pre, ¬ e.IsStatus) →
      ∃ err, (run (pre ++ [.streamEnd])).promise = .rejected err

theorem sendDeliver_settles_iff {Block : Type} (es : List (DeliverEvent Block)) :
    SettlesCaller es ↔
      ∀ pre post, es = pre ++ .streamEnd :: post → ∃ e ∈ pre, e.Deciding := by
  constructor
  · rintro ⟨stranded, _⟩ pre post rfl
    by_contra undecided
    simp only [not_exists, not_and] at undecided
    have reached : pre ++ [.streamEnd] <+: pre ++ .streamEnd :: post := ⟨post, by simp⟩
    have settled := stranded _ reached
    rw [run_append] at settled
    exact settled rfl (run_undecided undecided)
  · intro h
    have settled : ∀ pre, pre <+: es → NeverStranded (run pre) := by
      rintro pre ⟨post, rfl⟩ cleared
      obtain ⟨before, after, rfl, open'⟩ := List.eq_append_cons_of_mem (run_cleared cleared)
      obtain ⟨e, he, hd⟩ := h before (after ++ post) (by simp)
      rw [run_append]
      exact foldl_settled (run_decided he hd open') _
    refine ⟨settled, fun pre reached silent => ?_⟩
    have cleared : (run (pre ++ [.streamEnd])).timer = .cleared := by rw [run_append]; rfl
    have answer := settled _ reached cleared
    cases outcome : (run (pre ++ [.streamEnd])).promise with
    | pending => exact absurd outcome answer
    | rejected err => exact ⟨err, rfl⟩
    | resolved =>
      obtain ⟨e, he, status⟩ := run_resolved outcome
      rcases List.mem_append.mp he with he | he
      · exact absurd status (silent e he)
      · obtain ⟨_, eq⟩ := status
        rw [List.mem_singleton.mp he] at eq
        cases eq

/-- The stream ends at once: the timer is cleared and nothing ever settles the promise. -/
theorem sendDeliver_strands_on_end :
    (run [(DeliverEvent.streamEnd : DeliverEvent Nat)]).promise = .pending ∧
      ¬ SettlesCaller [(DeliverEvent.streamEnd : DeliverEvent Nat)] := by
  refine ⟨rfl, ?_⟩
  intro h
  obtain ⟨stranded, _⟩ := h
  exact stranded _ (List.prefix_refl _) rfl rfl

end FabricCommon
