import FabricCommon.StepRun
import Mathlib.Data.List.Induction

namespace ListenerRun

/-- What a callback does, in order; an exception that leaves it is caught by the notifier. -/
inductive Effect (Err Value : Type) where
  | unregister
  | resolve (value : Value)
  | reject (err : Err)
  | threw (message : String)
  deriving DecidableEq, Repr

inductive Outcome (Err Value : Type) where
  | pending
  | resolved (value : Value)
  | rejected (err : Err)
  deriving DecidableEq, Repr

/-- A callback over the variables it closes over. A listener that is registered `once` is dropped
after its first event. -/
structure Listener (Local Failure Event Err Value : Type) where
  once : Bool
  start : Local
  callback : Local → Except Failure Event → Local × List (Effect Err Value)

structure State (Local Err Value : Type) where
  registered : Bool
  locals : Local
  promise : Outcome Err Value
  trace : List (Effect Err Value)
  deriving DecidableEq, Repr

variable {Local Failure Event Err Value : Type}

/-- Only the first settlement of a promise counts. -/
def State.settle (s : State Local Err Value) (outcome : Outcome Err Value) :
    State Local Err Value :=
  match s.promise with
  | .pending => { s with promise := outcome }
  | _ => s

def State.record (s : State Local Err Value) (effect : Effect Err Value) :
    State Local Err Value :=
  { s with trace := s.trace ++ [effect] }

def State.perform (s : State Local Err Value) (effect : Effect Err Value) :
    State Local Err Value :=
  match effect with
  | .unregister => { s.record effect with registered := false }
  | .resolve value => (s.record effect).settle (.resolved value)
  | .reject err => (s.record effect).settle (.rejected err)
  | .threw _ => s.record effect

def Listener.initial (l : Listener Local Failure Event Err Value) : State Local Err Value :=
  ⟨true, l.start, .pending, []⟩

/-- One notification; a listener that is not registered is not called. -/
def Listener.notify (l : Listener Local Failure Event Err Value) (s : State Local Err Value)
    (notification : Except Failure Event) : State Local Err Value :=
  if s.registered then
    let (locals, effects) := l.callback s.locals notification
    let s := effects.foldl State.perform { s with locals := locals }
    match notification with
    | .ok _ => { s with registered := s.registered && !l.once }
    | .error _ => s
  else s

def Listener.run (l : Listener Local Failure Event Err Value)
    (notifications : List (Except Failure Event)) : State Local Err Value :=
  notifications.foldl l.notify l.initial

variable {l : Listener Local Failure Event Err Value} {s : State Local Err Value}

theorem Listener.run_append (ns more : List (Except Failure Event)) :
    l.run (ns ++ more) = more.foldl l.notify (l.run ns) := List.foldl_append

theorem Listener.run_concat (ns : List (Except Failure Event)) (n : Except Failure Event) :
    l.run (ns ++ [n]) = l.notify (l.run ns) n := l.run_append ns [n]

theorem notify_unregistered (h : s.registered = false) (n : Except Failure Event) :
    l.notify s n = s := by
  simp [Listener.notify, h]

/-- Nothing reaches a listener that is gone. -/
theorem foldl_unregistered (h : s.registered = false) (ns : List (Except Failure Event)) :
    ns.foldl l.notify s = s := by
  induction ns with
  | nil => rfl
  | cons n ns ih => rw [List.foldl_cons, notify_unregistered h, ih]

theorem settle_settled (h : s.promise ≠ .pending) (outcome : Outcome Err Value) :
    (s.settle outcome).promise = s.promise := by
  unfold State.settle
  split
  next pending => exact absurd pending h
  next => rfl

theorem perform_settled (h : s.promise ≠ .pending) (effect : Effect Err Value) :
    (s.perform effect).promise = s.promise := by
  have recorded : (s.record effect).promise ≠ .pending := h
  cases effect with
  | unregister => rfl
  | resolve value => exact settle_settled recorded (.resolved value)
  | reject err => exact settle_settled recorded (.rejected err)
  | threw message => rfl

theorem foldl_perform_settled (h : s.promise ≠ .pending) (effects : List (Effect Err Value)) :
    (effects.foldl State.perform s).promise = s.promise := by
  have kept : ∀ t : State Local Err Value, ∀ effect, t.promise = s.promise →
      (t.perform effect).promise = s.promise := by
    intro t effect same
    have settled : t.promise ≠ .pending := fun pending => h (same ▸ pending)
    rw [perform_settled settled, same]
  exact StepRun.foldl_keeps kept rfl effects

theorem notify_settled (h : s.promise ≠ .pending) (n : Except Failure Event) :
    (l.notify s n).promise = s.promise := by
  unfold Listener.notify
  split
  next =>
    have same := foldl_perform_settled (s := { s with locals := (l.callback s.locals n).1 }) h
      (l.callback s.locals n).2
    cases n with
    | ok event => exact same
    | error err => exact same
  next => rfl

/-- A settled promise stays as it is, whatever is notified later. -/
theorem foldl_settled (h : s.promise ≠ .pending) (ns : List (Except Failure Event)) :
    (ns.foldl l.notify s).promise = s.promise := by
  have kept : ∀ t : State Local Err Value, ∀ n, t.promise = s.promise →
      (l.notify t n).promise = s.promise := by
    intro t n same
    have settled : t.promise ≠ .pending := fun pending => h (same ▸ pending)
    rw [notify_settled settled, same]
  exact StepRun.foldl_keeps kept rfl ns

theorem settle_rejected {outcome : Outcome Err Value} {err : Err}
    (h : (s.settle outcome).promise = .rejected err) :
    s.promise = .rejected err ∨ outcome = .rejected err := by
  unfold State.settle at h
  split at h
  next => exact Or.inr h
  next => exact Or.inl h

theorem perform_rejected {effect : Effect Err Value} {err : Err}
    (h : (s.perform effect).promise = .rejected err) :
    s.promise = .rejected err ∨ effect = .reject err := by
  cases effect with
  | unregister => exact Or.inl h
  | resolve value =>
    have resolved := settle_rejected h
    simpa [State.record] using resolved
  | reject other =>
    have rejected := settle_rejected h
    simpa [State.record] using rejected
  | threw message => exact Or.inl h

theorem foldl_perform_rejected {effects : List (Effect Err Value)} {err : Err}
    (h : (effects.foldl State.perform s).promise = .rejected err) :
    s.promise = .rejected err ∨ .reject err ∈ effects := by
  induction effects generalizing s with
  | nil => exact Or.inl h
  | cons effect effects ih =>
    rcases ih h with first | later
    · rcases perform_rejected first with before | eq
      · exact Or.inl before
      · exact Or.inr (eq ▸ List.mem_cons_self)
    · exact Or.inr (List.mem_cons_of_mem effect later)

theorem notify_rejected {n : Except Failure Event} {err : Err}
    (h : (l.notify s n).promise = .rejected err) :
    s.promise = .rejected err ∨ .reject err ∈ (l.callback s.locals n).2 := by
  unfold Listener.notify at h
  split at h
  next =>
    have performed : ((l.callback s.locals n).2.foldl State.perform
        { s with locals := (l.callback s.locals n).1 }).promise = .rejected err := by
      cases n with
      | ok event => exact h
      | error failure => exact h
    rcases foldl_perform_rejected performed with before | now
    · exact Or.inl before
    · exact Or.inr now
  next => exact Or.inl h

/-- A promise that none of the notifications rejects is not rejected. -/
theorem run_not_rejected {ns : List (Except Failure Event)} {err : Err}
    (h : ∀ n ∈ ns, ∀ locals, .reject err ∉ (l.callback locals n).2) :
    (l.run ns).promise ≠ .rejected err := by
  intro rejected
  have caused := StepRun.foldl_raised
    (I := fun s : State Local Err Value => s.promise = .rejected err)
    (fun s n => notify_rejected) rejected
  rcases caused with first | ⟨before, n, after, rfl, now⟩
  · cases first
  · exact h n (by simp) _ now

theorem notify_once (once : l.once = true) (event : Event) :
    (l.notify s (.ok event)).registered = false := by
  unfold Listener.notify
  split
  next => simp [once]
  next gone => simpa using gone

/-- A registered listener whose callback answers a failure with a rejection. -/
theorem notify_error (registered : s.registered = true) (pending : s.promise = .pending)
    {failure : Failure} {err : Err}
    (h : (l.callback s.locals (.error failure)).2 = [.reject err] ∨
      (l.callback s.locals (.error failure)).2 = [.unregister, .reject err]) :
    (l.notify s (.error failure)).promise = .rejected err := by
  rcases h with effects | effects <;>
    simp [Listener.notify, registered, effects, State.perform, State.record, State.settle, pending]

end ListenerRun
