import FabricCommon.StepRun
import Mathlib.Logic.Function.Basic

namespace RequestRun

variable {Q : Type} {R : Q → Type} {S α β ε ι : Type}

/-- A program that sends requests and goes on with the reply to each. -/
inductive Proc (Q : Type) (R : Q → Type) (α : Type) where
  | done (value : α)
  | ask (q : Q) (next : R q → Proc Q R α)

namespace Proc

def bind : Proc Q R α → (α → Proc Q R β) → Proc Q R β
  | .done value, f => f value
  | .ask q next, f => .ask q fun reply => (next reply).bind f

instance : Monad (Proc Q R) where
  pure := .done
  bind := .bind

/-- The request that the program sends next. -/
def pending : Proc Q R α → Option Q
  | .done _ => none
  | .ask q _ => some q

/-- The program ends after at most `n` requests, whatever the replies. -/
def Within : Nat → Proc Q R α → Prop
  | _, .done _ => True
  | 0, .ask _ _ => False
  | n + 1, .ask _ next => ∀ reply, (next reply).Within n

@[simp] theorem within_done (n : Nat) (value : α) :
    (Proc.done value : Proc Q R α).Within n := by
  cases n <;> trivial

/-- The program at a server with more requests. -/
def lift {Q' : Type} {R' : Q' → Type} (inj : Q → Q') :
    Proc Q (fun q => R' (inj q)) α → Proc Q' R' α
  | .done value => .done value
  | .ask q next => .ask (inj q) fun reply => (next reply).lift inj

theorem within_zero {p : Proc Q R α} (h : p.Within 0) : ∃ value, p = .done value := by
  cases p with
  | done value => exact ⟨value, rfl⟩
  | ask q next => exact h.elim

theorem within_pred {p : Proc Q R α} {n : Nat} {q : Q} {next : R q → Proc Q R α}
    (h : p.Within n) (asks : p = .ask q next) (reply : R q) : (next reply).Within (n - 1) := by
  subst asks
  cases n with
  | zero => exact h.elim
  | succ n => exact h reply

end Proc

/-- What the run of one program leaves. -/
structure Ran (S : Type) (R : Q → Type) (α : Type) where
  state : S
  exchanges : List (Sigma R)
  value : α

section Alone

variable (serve : (q : Q) → S → R q × S)

/-- The run of a program that is the server's only client. -/
def Proc.exec : Proc Q R α → S → Ran S R α
  | .done value, s => ⟨s, [], value⟩
  | .ask q next, s =>
    let (reply, s) := serve q s
    let rest := (next reply).exec s
    { rest with exchanges := ⟨q, reply⟩ :: rest.exchanges }

variable {serve} {s : S}

theorem exec_ask (q : Q) (next : R q → Proc Q R α) (s : S) :
    (Proc.ask q next).exec serve s =
      let rest := (next (serve q s).1).exec serve (serve q s).2
      ⟨rest.state, ⟨q, (serve q s).1⟩ :: rest.exchanges, rest.value⟩ := rfl

theorem exec_bind (p : Proc Q R α) (f : α → Proc Q R β) (s : S) :
    (p >>= f).exec serve s =
      let first := p.exec serve s
      let rest := (f first.value).exec serve first.state
      ⟨rest.state, first.exchanges ++ rest.exchanges, rest.value⟩ := by
  induction p generalizing s with
  | done value => rfl
  | ask q next ih =>
    show (Proc.ask q fun reply => next reply >>= f).exec serve s = _
    simp only [exec_ask, ih, List.cons_append]

/-- `P` holds of each exchange of the run and the ones before it, `before` being older ones. -/
def Sends (serve : (q : Q) → S → R q × S) (P : List (Sigma R) → Sigma R → Prop)
    (before : List (Sigma R)) (x : ExceptT ε (Proc Q R) α) (s : S) : Prop :=
  StepRun.EachAfter (fun earlier => P (before ++ earlier)) (x.run.exec serve s).exchanges

variable {x : ExceptT ε (Proc Q R) α} {f : α → ExceptT ε (Proc Q R) β}
  {P : List (Sigma R) → Sigma R → Prop} {before : List (Sigma R)}

theorem exec_bind_ok {a : α} (h : (x.run.exec serve s).value = .ok a) :
    (x >>= f).run.exec serve s =
      let first := x.run.exec serve s
      let rest := (f a).run.exec serve first.state
      ⟨rest.state, first.exchanges ++ rest.exchanges, rest.value⟩ := by
  refine (exec_bind x.run _ s).trans ?_
  simp only [h]
  rfl

theorem exec_bind_error {e : ε} (h : (x.run.exec serve s).value = .error e) :
    (x >>= f).run.exec serve s =
      ⟨(x.run.exec serve s).state, (x.run.exec serve s).exchanges, .error e⟩ := by
  refine (exec_bind x.run _ s).trans ?_
  simp only [h]
  exact congrArg (fun exchanges => Ran.mk _ exchanges _) (List.append_nil _)

/-- A sequence that ends normally is the run of its first part and then of the rest. -/
theorem exec_bind_inv {b : β} (h : ((x >>= f).run.exec serve s).value = .ok b) :
    ∃ a, (x.run.exec serve s).value = .ok a ∧
      ((f a).run.exec serve (x.run.exec serve s).state).value = .ok b ∧
      ((x >>= f).run.exec serve s).state =
        ((f a).run.exec serve (x.run.exec serve s).state).state := by
  cases ended : (x.run.exec serve s).value with
  | error e =>
    rw [exec_bind_error ended] at h
    cases h
  | ok a =>
    rw [exec_bind_ok ended] at h ⊢
    exact ⟨a, rfl, h, rfl⟩

theorem exec_map (x : ExceptT ε (Proc Q R) α) (g : α → β) (s : S) :
    (do return g (← x) : ExceptT ε (Proc Q R) β).run.exec serve s =
      ⟨(x.run.exec serve s).state, (x.run.exec serve s).exchanges,
        (x.run.exec serve s).value.map g⟩ := by
  cases ended : (x.run.exec serve s).value with
  | error e => exact exec_bind_error ended
  | ok a =>
    refine (exec_bind_ok ended).trans ?_
    exact congrArg (fun exchanges => Ran.mk _ exchanges _) (List.append_nil _)

theorem exec_lift {Q' : Type} {R' : Q' → Type} (inj : Q → Q')
    (serve' : (q : Q') → S → R' q × S) (p : Proc Q (fun q => R' (inj q)) α) (s : S) :
    (p.lift inj).exec serve' s =
      let ran := p.exec (fun q => serve' (inj q)) s
      ⟨ran.state, ran.exchanges.map fun exchange => ⟨inj exchange.1, exchange.2⟩, ran.value⟩ := by
  induction p generalizing s with
  | done value => rfl
  | ask q next ih =>
    show (Proc.ask (inj q) fun reply => (next reply).lift inj).exec serve' s = _
    simp only [exec_ask, ih, List.map_cons]

theorem sends_pure (a : α) :
    Sends serve P before (pure a : ExceptT ε (Proc Q R) α) s := StepRun.eachAfter_nil

theorem sends_ask {q : Q} {k : R q → Except ε α} :
    Sends serve P before (ExceptT.mk (.ask q fun reply => .done (k reply))) s ↔
      P before ⟨q, (serve q s).1⟩ := by
  show StepRun.EachAfter _ ([] ++ [_]) ↔ _
  rw [StepRun.eachAfter_concat, List.append_nil]
  exact and_iff_right StepRun.eachAfter_nil

/-- A sequence sends what its first part does, and after a normal end what the rest does. -/
theorem sends_bind :
    Sends serve P before (x >>= f) s ↔ Sends serve P before x s ∧
      ∀ a, (x.run.exec serve s).value = .ok a →
        Sends serve P (before ++ (x.run.exec serve s).exchanges) (f a)
          (x.run.exec serve s).state := by
  unfold Sends
  cases ended : (x.run.exec serve s).value with
  | error e =>
    rw [exec_bind_error ended]
    simp
  | ok a =>
    rw [exec_bind_ok ended]
    simp [StepRun.eachAfter_append]

end Alone

section Together

/-- Any number of clients of one server, each with the rest of its program. -/
structure System (S ι : Type) (R : Q → Type) (α : Type) where
  state : S
  clients : ι → Proc Q R α
  exchanges : List (Sigma R)

variable [DecidableEq ι] (serve : (q : Q) → S → R q × S)

/-- Client `i` gets its next request served. -/
def System.step (c : System S ι R α) (i : ι) : System S ι R α :=
  match c.clients i with
  | .done _ => c
  | .ask q next =>
    let (reply, s) := serve q c.state
    ⟨s, Function.update c.clients i (next reply), c.exchanges ++ [⟨q, reply⟩]⟩

/-- One interleaving: a schedule names the client whose request is next. -/
def System.run (c : System S ι R α) (schedule : List ι) : System S ι R α :=
  schedule.foldl (System.step serve) c

variable {serve} {c : System S ι R α} {i : ι}

theorem step_done {value : α} (h : c.clients i = .done value) : c.step serve i = c := by
  simp only [System.step, h]

theorem step_ask {q : Q} {next : R q → Proc Q R α} (h : c.clients i = .ask q next) :
    c.step serve i =
      ⟨(serve q c.state).2, Function.update c.clients i (next (serve q c.state).1),
        c.exchanges ++ [⟨q, (serve q c.state).1⟩]⟩ := by
  simp only [System.step, h]

theorem run_concat (schedule : List ι) :
    c.run serve (schedule ++ [i]) = (c.run serve schedule).step serve i := by
  simp [System.run]

theorem within_step {n : ι → Nat} (h : ∀ j, (c.clients j).Within (n j)) (i j : ι) :
    ((c.step serve i).clients j).Within (n j - [i].count j) := by
  cases asks : c.clients i with
  | done value =>
    rw [step_done asks]
    by_cases same : i = j
    · rw [← same, asks]
      exact Proc.within_done _ value
    · simpa [List.count_singleton, same] using h j
  | ask q next =>
    rw [step_ask asks]
    by_cases same : i = j
    · subst same
      simpa using Proc.within_pred (h i) asks (serve q c.state).1
    · simpa [List.count_singleton, Ne.symm same, same] using h j

/-- A client that has had as many turns as its program takes is done. -/
theorem within_run {n : ι → Nat} (h : ∀ j, (c.clients j).Within (n j)) (schedule : List ι)
    (j : ι) : ((c.run serve schedule).clients j).Within (n j - schedule.count j) := by
  induction schedule generalizing c n with
  | nil => simpa [System.run] using h j
  | cons i schedule ih =>
    have first : ∀ j, ((c.step serve i).clients j).Within (n j - [i].count j) := within_step h i
    have later := ih first
    rw [Nat.sub_sub, ← List.count_append] at later
    exact later

end Together

end RequestRun
