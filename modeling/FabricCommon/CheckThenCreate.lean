import FabricCommon.RequestRun

namespace CheckThenCreate

open RequestRun StepRun

variable {Q : Type} {R : Q → Type} {S α ε ι : Type}

/-- A call that looks an entry up and creates it when the lookup finds none. `held` is how the
call ends when the lookup has not missed, and `refused` an error that stops it after a miss. -/
structure Attempt (Q : Type) (R : Q → Type) (ε α : Type) where
  lookup : Q
  create : Q
  held : R lookup → Option (Except ε α)
  refused : Option ε
  finish : R create → Except ε α

namespace Attempt

variable (a : Attempt Q R ε α)

/-- What is left of the call while its create request is under way. -/
def creating : Proc Q R (Except ε α) := .ask a.create fun reply => .done (a.finish reply)

def missed : Proc Q R (Except ε α) :=
  match a.refused with
  | some err => .done (.error err)
  | none => a.creating

def looked (reply : R a.lookup) : Proc Q R (Except ε α) :=
  match a.held reply with
  | some result => .done result
  | none => a.missed

def program : Proc Q R (Except ε α) := .ask a.lookup a.looked

/-- Where a client is in its call. -/
def Underway (p : Proc Q R (Except ε α)) : Prop :=
  p = a.program ∨ (a.refused = none ∧ p = a.creating) ∨ ∃ result, p = .done result

variable {a}

theorem missed_of_refused {err : ε} (h : a.refused = some err) :
    a.missed = .done (.error err) := by
  simp [missed, h]

theorem missed_of_allowed (h : a.refused = none) : a.missed = a.creating := by
  simp [missed, h]

theorem looked_of_held {reply : R a.lookup} {result : Except ε α}
    (h : a.held reply = some result) : a.looked reply = .done result := by
  simp [looked, h]

theorem looked_of_missed {reply : R a.lookup} (h : a.held reply = none) :
    a.looked reply = a.missed := by
  simp [looked, h]

theorem missed_cases :
    (a.refused = none ∧ a.missed = a.creating) ∨ ∃ result, a.missed = .done result := by
  cases refused : a.refused with
  | some err => exact Or.inr ⟨.error err, missed_of_refused refused⟩
  | none => exact Or.inl ⟨rfl, missed_of_allowed refused⟩

theorem looked_cases (reply : R a.lookup) :
    (a.refused = none ∧ a.looked reply = a.creating) ∨ ∃ result, a.looked reply = .done result := by
  cases held : a.held reply with
  | some result => exact Or.inr ⟨result, looked_of_held held⟩
  | none =>
    rw [looked_of_missed held]
    exact missed_cases

theorem program_within : a.program.Within 2 := by
  intro reply
  rcases looked_cases reply with ⟨-, next⟩ | ⟨result, ended⟩
  · rw [next]
    exact fun reply => Proc.within_done 0 (a.finish reply)
  · rw [ended]
    exact Proc.within_done 1 result

section Alone

variable {serve : (q : Q) → S → R q × S} {s : S}

theorem exec_held {result : Except ε α} (held : a.held (serve a.lookup s).1 = some result) :
    a.program.exec serve s =
      ⟨(serve a.lookup s).2, [⟨a.lookup, (serve a.lookup s).1⟩], result⟩ := by
  rw [program, exec_ask, looked_of_held held]
  rfl

theorem exec_refused {err : ε} (missing : a.held (serve a.lookup s).1 = none)
    (refused : a.refused = some err) :
    a.program.exec serve s =
      ⟨(serve a.lookup s).2, [⟨a.lookup, (serve a.lookup s).1⟩], .error err⟩ := by
  rw [program, exec_ask, looked_of_missed missing, missed_of_refused refused]
  rfl

theorem exec_created (missing : a.held (serve a.lookup s).1 = none)
    (allowed : a.refused = none) :
    a.program.exec serve s =
      let asked := (serve a.lookup s).2
      ⟨(serve a.create asked).2,
        [⟨a.lookup, (serve a.lookup s).1⟩, ⟨a.create, (serve a.create asked).1⟩],
        a.finish (serve a.create asked).1⟩ := by
  rw [program, exec_ask, looked_of_missed missing, missed_of_allowed allowed]
  rfl

variable (a serve s) in
theorem exec_exchanges :
    (a.program.exec serve s).exchanges = [⟨a.lookup, (serve a.lookup s).1⟩] ∨
      (a.program.exec serve s).exchanges = [⟨a.lookup, (serve a.lookup s).1⟩,
        ⟨a.create, (serve a.create (serve a.lookup s).2).1⟩] := by
  cases held : a.held (serve a.lookup s).1 with
  | some result => exact Or.inl (by rw [exec_held held])
  | none =>
    cases refused : a.refused with
    | some err => exact Or.inl (by rw [exec_refused held refused])
    | none => exact Or.inr (by rw [exec_created held refused])

end Alone

/-- What the server promises of the entry: a lookup finds it iff it is there, and only the
creation of an absent entry succeeds. -/
structure Lawful (a : Attempt Q R ε α) (serve : (q : Q) → S → R q × S) (present : S → Bool)
    (isCreation : Sigma R → Bool) : Prop where
  distinct : a.lookup ≠ a.create
  lookup_present : ∀ s, present s = true → ∃ v, a.held (serve a.lookup s).1 = some (.ok v)
  lookup_absent : ∀ s, present s = false → a.held (serve a.lookup s).1 = none
  lookup_keeps : ∀ s, present (serve a.lookup s).2 = present s
  lookup_silent : ∀ s, isCreation ⟨a.lookup, (serve a.lookup s).1⟩ = false
  create_absent : a.refused = none → ∀ s, present s = false →
    (∃ v, a.finish (serve a.create s).1 = .ok v) ∧ present (serve a.create s).2 = true ∧
      isCreation ⟨a.create, (serve a.create s).1⟩ = true
  create_present : ∀ s, present s = true →
    (∃ e, a.finish (serve a.create s).1 = .error e) ∧ present (serve a.create s).2 = true ∧
      isCreation ⟨a.create, (serve a.create s).1⟩ = false

end Attempt

variable (serve : (q : Q) → S → R q × S) (present : S → Bool) (isCreation : Sigma R → Bool)
  (attempt : ι → Attempt Q R ε α)

/-- Every client is about to make its call. -/
def start (s : S) : System S ι R (Except ε α) := ⟨s, fun i => (attempt i).program, []⟩

/-- What client `i` sends next cannot fail: no other call has created the entry since its own
lookup, and a lookup that misses is not of a call that is refused. -/
def Timely (c : System S ι R (Except ε α)) (i : ι) : Prop :=
  ((c.clients i).pending = some (attempt i).create → present c.state = false) ∧
    ((c.clients i).pending = some (attempt i).lookup → present c.state = false →
      (attempt i).refused = none)

def creations (c : System S ι R (Except ε α)) : Nat := c.exchanges.countP isCreation

/-- After a schedule in which client `i` has had `turns i` turns: no call has failed, the calls
with two turns have returned, and once one has, the entry has been created `n` times. -/
structure CreatedTimes (n : Nat) (c : System S ι R (Except ε α)) (turns : ι → Nat) : Prop where
  no_failure : ∀ i e, c.clients i ≠ .done (.error e)
  returns : ∀ i, 2 ≤ turns i → ∃ v, c.clients i = .done (.ok v)
  bounded : creations isCreation c ≤ n
  created : ∀ i v, c.clients i = .done (.ok v) → creations isCreation c = n

variable [DecidableEq ι]

/-- A turn leaves client `i` with the program `p` and the entry there or not. -/
structure Moves (c : System S ι R (Except ε α)) (i : ι) (p : Proc Q R (Except ε α))
    (there : Bool) (created : Nat) : Prop where
  clients : (c.step serve i).clients = Function.update c.clients i p
  present : present (c.step serve i).state = there
  creations : creations isCreation (c.step serve i) = creations isCreation c + created

variable {serve present isCreation attempt} {c : System S ι R (Except ε α)} {i : ι}

theorem lookup_moves {a : Attempt Q R ε α} (lawful : a.Lawful serve present isCreation)
    (asks : c.clients i = a.program) :
    Moves serve present isCreation c i (a.looked (serve a.lookup c.state).1)
      (present c.state) 0 := by
  have stepped : c.step serve i = _ := step_ask asks
  refine ⟨by rw [stepped], ?_, ?_⟩
  · rw [stepped]
    exact lawful.lookup_keeps c.state
  · simp [stepped, creations, lawful.lookup_silent]

theorem create_moves_absent {a : Attempt Q R ε α} (lawful : a.Lawful serve present isCreation)
    (allowed : a.refused = none) (asks : c.clients i = a.creating)
    (absent : present c.state = false) :
    ∃ v, Moves serve present isCreation c i (.done (.ok v)) true 1 := by
  have stepped : c.step serve i = _ := step_ask asks
  obtain ⟨⟨v, made⟩, there, counts⟩ := lawful.create_absent allowed c.state absent
  refine ⟨v, by rw [stepped, made], ?_, ?_⟩
  · rw [stepped]
    exact there
  · simp [stepped, creations, counts]

theorem create_moves_present {a : Attempt Q R ε α} (lawful : a.Lawful serve present isCreation)
    (asks : c.clients i = a.creating) (there : present c.state = true) :
    ∃ e, Moves serve present isCreation c i (.done (.error e)) true 0 := by
  have stepped : c.step serve i = _ := step_ask asks
  obtain ⟨⟨e, clash⟩, stays, counts⟩ := lawful.create_present c.state there
  refine ⟨e, by rw [stepped, clash], ?_, ?_⟩
  · rw [stepped]
    exact stays
  · simp [stepped, creations, counts]

theorem create_moves {a : Attempt Q R ε α} (lawful : a.Lawful serve present isCreation)
    (allowed : a.refused = none) (asks : c.clients i = a.creating) :
    ∃ result created, Moves serve present isCreation c i (.done result) true created := by
  cases there : present c.state with
  | true =>
    obtain ⟨e, moved⟩ := create_moves_present lawful asks there
    exact ⟨_, _, moved⟩
  | false =>
    obtain ⟨v, moved⟩ := create_moves_absent lawful allowed asks there
    exact ⟨_, _, moved⟩

theorem Moves.client {p : Proc Q R (Except ε α)} {there : Bool} {n : Nat}
    (moved : Moves serve present isCreation c i p there n) : (c.step serve i).clients i = p := by
  rw [moved.clients, Function.update_self]

theorem Moves.others {p : Proc Q R (Except ε α)} {there : Bool} {n : Nat} {j : ι}
    (moved : Moves serve present isCreation c i p there n) (other : j ≠ i) :
    (c.step serve i).clients j = c.clients j := by
  rw [moved.clients, Function.update_of_ne other]

theorem step_underway (lawful : ∀ j, (attempt j).Lawful serve present isCreation)
    (h : ∀ j, (attempt j).Underway (c.clients j)) (i j : ι) :
    (attempt j).Underway ((c.step serve i).clients j) := by
  rcases h i with looking | ⟨allowed, creating⟩ | ⟨result, ended⟩
  · have moved := lookup_moves (lawful i) looking
    by_cases same : j = i
    · rw [same, moved.client]
      exact Or.inr (Attempt.looked_cases _)
    · rw [moved.others same]
      exact h j
  · obtain ⟨result, created, moved⟩ := create_moves (lawful i) allowed creating
    by_cases same : j = i
    · rw [same, moved.client]
      exact Or.inr (Or.inr ⟨result, rfl⟩)
    · rw [moved.others same]
      exact h j
  · rw [step_done ended]
    exact h j

variable (present isCreation attempt) in
/-- The invariant of a run all of whose turns are timely: the creations still to come and those
that have been make `n`. -/
structure Sound (n : Nat) (c : System S ι R (Except ε α)) : Prop where
  underway : ∀ i, (attempt i).Underway (c.clients i)
  no_failure : ∀ i e, c.clients i ≠ .done (.error e)
  settled : ∀ i v, c.clients i = .done (.ok v) → present c.state = true
  tally : creations isCreation c + (!present c.state).toNat = n

theorem Moves.sound {p : Proc Q R (Except ε α)} {there : Bool} {created n : Nat}
    (moved : Moves serve present isCreation c i p there created)
    (h : Sound present isCreation attempt n c)
    (underway : ∀ j, (attempt j).Underway ((c.step serve i).clients j))
    (ends : ∀ e, p ≠ .done (.error e)) (there_of_ended : ∀ v, p = .done (.ok v) → there = true)
    (stays : present c.state = true → there = true)
    (balance : created + (!there).toNat = (!present c.state).toNat) :
    Sound present isCreation attempt n (c.step serve i) := by
  refine ⟨underway, ?_, ?_, ?_⟩
  · intro j e
    by_cases same : j = i
    · rw [same, moved.client]
      exact ends e
    · rw [moved.others same]
      exact h.no_failure j e
  · intro j v ended
    rw [moved.present]
    by_cases same : j = i
    · rw [same, moved.client] at ended
      exact there_of_ended v ended
    · rw [moved.others same] at ended
      exact stays (h.settled j v ended)
  · have tally := h.tally
    rw [moved.creations, moved.present]
    omega

theorem step_sound {n : Nat} (lawful : ∀ j, (attempt j).Lawful serve present isCreation)
    (h : Sound present isCreation attempt n c) (timely : Timely present attempt c i) :
    Sound present isCreation attempt n (c.step serve i) := by
  have underway := step_underway lawful h.underway i
  rcases h.underway i with looking | ⟨allowed, creating⟩ | ⟨result, ended⟩
  · have moved := lookup_moves (lawful i) looking
    have pending : (c.clients i).pending = some (attempt i).lookup := by
      rw [looking]
      rfl
    cases there : present c.state with
    | true =>
      obtain ⟨v, held⟩ := (lawful i).lookup_present c.state there
      rw [Attempt.looked_of_held held, there] at moved
      exact moved.sound h underway (by simp) (by simp) (by simp) (by simp [there])
    | false =>
      have allowed := timely.2 pending there
      rw [Attempt.looked_of_missed ((lawful i).lookup_absent c.state there),
        Attempt.missed_of_allowed allowed, there] at moved
      exact moved.sound h underway (by simp [Attempt.creating]) (by simp [Attempt.creating])
        (by simp [there]) (by simp [there])
  · have pending : (c.clients i).pending = some (attempt i).create := by
      rw [creating]
      rfl
    have absent := timely.1 pending
    obtain ⟨v, moved⟩ := create_moves_absent (lawful i) allowed creating absent
    exact moved.sound h underway (by simp) (by simp) (by simp) (by simp [absent])
  · rw [step_done ended]
    exact h

/-- A turn that is not timely ends its call with an error. -/
theorem untimely_fails (lawful : (attempt i).Lawful serve present isCreation)
    (underway : (attempt i).Underway (c.clients i)) (late : ¬ Timely present attempt c i) :
    ∃ e, (c.step serve i).clients i = .done (.error e) := by
  rcases underway with looking | ⟨-, creating⟩ | ⟨result, ended⟩
  · have moved := lookup_moves lawful looking
    have pending : (c.clients i).pending = some (attempt i).lookup := by
      rw [looking]
      rfl
    have missed : present c.state = false ∧ (attempt i).refused ≠ none := by
      by_contra fine
      refine late ⟨fun asks => ?_, fun _ absent => ?_⟩
      · exact absurd (Option.some.inj (pending.symm.trans asks)) lawful.distinct
      · by_contra refused
        exact fine ⟨absent, refused⟩
    obtain ⟨err, refused⟩ := Option.ne_none_iff_exists'.mp missed.2
    rw [Attempt.looked_of_missed (lawful.lookup_absent c.state missed.1),
      Attempt.missed_of_refused refused] at moved
    exact ⟨err, moved.client⟩
  · have pending : (c.clients i).pending = some (attempt i).create := by
      rw [creating]
      rfl
    have there : present c.state = true := by
      by_contra absent
      refine late ⟨fun _ => by simpa using absent, fun asks => ?_⟩
      exact absurd (Option.some.inj (asks.symm.trans pending)) lawful.distinct
    obtain ⟨e, moved⟩ := create_moves_present lawful creating there
    exact ⟨e, moved.client⟩
  · refine absurd ⟨?_, ?_⟩ late
    · simp [ended, Proc.pending]
    · simp [ended, Proc.pending]

section Runs

variable (lawful : ∀ j, (attempt j).Lawful serve present isCreation) (s : S)

omit [DecidableEq ι] in
theorem start_sound : Sound present isCreation attempt (!present s).toNat (start attempt s) :=
  ⟨fun _ => Or.inl rfl, by simp [start, Attempt.program], by simp [start, Attempt.program],
    by simp [start, creations]⟩

include lawful

theorem run_underway (schedule : List ι) (i : ι) :
    (attempt i).Underway (((start attempt s).run serve schedule).clients i) := by
  have all : ∀ j, (attempt j).Underway (((start attempt s).run serve schedule).clients j) :=
    foldl_keeps
      (I := fun d : System S ι R (Except ε α) => ∀ j, (attempt j).Underway (d.clients j))
      (fun _ j h => step_underway lawful h j) (fun _ => Or.inl rfl) schedule
  exact all i

theorem run_sound {schedule : List ι}
    (timely : EachStep (System.step serve) (Timely present attempt) (start attempt s) schedule) :
    Sound present isCreation attempt (!present s).toNat
      ((start attempt s).run serve schedule) :=
  timely.keeps (fun _ _ h timely => step_sound lawful h timely) (start_sound s)

theorem run_createdTimes {schedule : List ι}
    (timely : EachStep (System.step serve) (Timely present attempt) (start attempt s) schedule) :
    CreatedTimes isCreation (!present s).toNat ((start attempt s).run serve schedule)
      schedule.count := by
  have sound := run_sound lawful s timely
  refine ⟨sound.no_failure, ?_, ?_, ?_⟩
  · intro i turns
    have first : ∀ j, ((start attempt s).clients j).Within 2 := fun j => Attempt.program_within
    have within : (((start attempt s).run serve schedule).clients i).Within
        (2 - schedule.count i) := within_run (n := fun _ => 2) first schedule i
    rw [Nat.sub_eq_zero_of_le turns] at within
    obtain ⟨result, ended⟩ := Proc.within_zero within
    cases result with
    | ok v => exact ⟨v, ended⟩
    | error e => exact absurd ended (sound.no_failure i e)
  · have tally := sound.tally
    omega
  · intro i v ended
    have tally := sound.tally
    simpa [sound.settled i v ended] using tally

/-- Every run of the calls creates the entry once iff each of its turns is timely. -/
theorem createdTimes_iff (schedule : List ι) :
    (∀ before, before <+: schedule →
      CreatedTimes isCreation (!present s).toNat ((start attempt s).run serve before)
        before.count) ↔
      EachStep (System.step serve) (Timely present attempt) (start attempt s) schedule := by
  rw [eachStep_iff]
  constructor
  · intro h before i after split
    by_contra late
    obtain ⟨e, failed⟩ := untimely_fails (lawful i) (run_underway lawful s before i) late
    have upto : before ++ [i] <+: schedule := ⟨after, by simp [split]⟩
    refine (h (before ++ [i]) upto).no_failure i e ?_
    rw [run_concat]
    exact failed
  · intro h before upto
    obtain ⟨after, rfl⟩ := upto
    refine run_createdTimes lawful s (eachStep_iff.mpr ?_)
    intro first i rest split
    exact h first i (rest ++ after) (by simp [split])

end Runs

end CheckThenCreate
