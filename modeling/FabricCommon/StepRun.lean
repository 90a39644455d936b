import Mathlib.Data.List.Basic
import Mathlib.Data.List.Induction

namespace StepRun

variable {σ τ ι : Type*}

/-- `P` holds at every step of the run that feeds `xs` to `step` from `s`. -/
def EachStep (step : σ → ι → σ) (P : σ → ι → Prop) : σ → List ι → Prop
  | _, [] => True
  | s, x :: xs => P s x ∧ EachStep step P (step s x) xs

variable {step : σ → ι → σ} {P : σ → ι → Prop} {I : σ → Prop}

instance decidableEachStep [∀ s x, Decidable (P s x)] :
    ∀ s xs, Decidable (EachStep step P s xs)
  | _, [] => isTrue trivial
  | s, x :: xs => @instDecidableAnd _ _ _ (decidableEachStep (step s x) xs)

theorem foldl_keeps (keep : ∀ s x, I s → I (step s x)) {s : σ} (h : I s) (xs : List ι) :
    I (xs.foldl step s) := by
  induction xs generalizing s with
  | nil => exact h
  | cons x xs ih => exact ih (keep s x h)

/-- An invariant that each step keeps while `P` holds of it. -/
theorem EachStep.keeps {s : σ} {xs : List ι} (run : EachStep step P s xs)
    (keep : ∀ s x, I s → P s x → I (step s x)) (h : I s) : I (xs.foldl step s) := by
  induction xs generalizing s with
  | nil => exact h
  | cons x xs ih => exact ih run.2 (keep s x h run.1)

/-- The same, said of each step of the run and the run before it. -/
theorem eachStep_iff {s : σ} {xs : List ι} :
    EachStep step P s xs ↔
      ∀ before x after, xs = before ++ x :: after → P (before.foldl step s) x := by
  induction xs generalizing s with
  | nil => simp [EachStep]
  | cons y ys ih =>
    constructor
    · intro h before x after split
      cases before with
      | nil =>
        obtain ⟨rfl, -⟩ := List.cons.inj split
        exact h.1
      | cons z before =>
        obtain ⟨rfl, rest⟩ := List.cons.inj split
        exact ih.mp h.2 before x after rest
    · intro h
      refine ⟨h [] y ys rfl, ih.mpr fun before x after split => ?_⟩
      exact h (y :: before) x after (by rw [split, List.cons_append])

/-- Forward simulation between two deterministic runs over the same inputs. -/
theorem foldl_simulates {step' : τ → ι → τ} {R : σ → τ → Prop}
    (simulate : ∀ s t x, R s t → R (step s x) (step' t x)) {s : σ} {t : τ} (h : R s t)
    (xs : List ι) : R (xs.foldl step s) (xs.foldl step' t) := by
  induction xs generalizing s t with
  | nil => exact h
  | cons x xs ih => exact ih (simulate s t x h)

/-- What holds at the end of a run held at its start, or a step of the run brought it about. -/
theorem foldl_raised {raises : σ → ι → Prop} (cause : ∀ s x, I (step s x) → I s ∨ raises s x)
    {s : σ} {xs : List ι} (h : I (xs.foldl step s)) :
    I s ∨ ∃ before x after, xs = before ++ x :: after ∧ raises (before.foldl step s) x := by
  induction xs generalizing s with
  | nil => exact Or.inl h
  | cons x xs ih =>
    rcases ih h with now | ⟨before, y, after, rfl, later⟩
    · rcases cause s x now with first | raised
      · exact Or.inl first
      · exact Or.inr ⟨[], x, xs, rfl, raised⟩
    · exact Or.inr ⟨x :: before, y, after, rfl, later⟩

/-- A flag that only steps of one kind raise, and none lowers. -/
theorem foldl_raised_iff {raises : σ → ι → Prop}
    (step_iff : ∀ s x, I (step s x) ↔ I s ∨ raises s x) {s : σ} (xs : List ι) :
    I (xs.foldl step s) ↔
      I s ∨ ∃ before x after, xs = before ++ x :: after ∧ raises (before.foldl step s) x := by
  have stays : ∀ s x, I s → I (step s x) := fun s x h => (step_iff s x).mpr (Or.inl h)
  constructor
  · intro h
    exact foldl_raised (fun s x => (step_iff s x).mp) h
  · intro h
    rcases h with first | ⟨before, x, after, rfl, raised⟩
    · exact foldl_keeps stays first xs
    · rw [List.foldl_append, List.foldl_cons]
      exact foldl_keeps stays ((step_iff _ x).mpr (Or.inr raised)) after

/-- `P` holds of every entry of a history and the entries before it. -/
def EachAfter (P : List ι → ι → Prop) (xs : List ι) : Prop :=
  ∀ before x after, xs = before ++ x :: after → P before x

theorem eachAfter_nil {P : List ι → ι → Prop} : EachAfter P [] := by
  intro before x after split
  simp at split

theorem eachAfter_concat {P : List ι → ι → Prop} {xs : List ι} {x : ι} :
    EachAfter P (xs ++ [x]) ↔ EachAfter P xs ∧ P xs x := by
  constructor
  · intro h
    refine ⟨fun before y after split => ?_, h xs x [] rfl⟩
    exact h before y (after ++ [x]) (by simp [split])
  · intro h before y after split
    rcases List.eq_nil_or_concat' after with rfl | ⟨after, last, rfl⟩
    · obtain ⟨rfl, last⟩ := List.append_inj' split rfl
      rw [← (List.cons.inj last).1]
      exact h.2
    · rw [← List.cons_append, ← List.append_assoc] at split
      exact h.1 before y after (List.append_inj' split rfl).1

theorem eachAfter_of_forall {P : List ι → ι → Prop} {xs : List ι}
    (h : ∀ x ∈ xs, ∀ before, P before x) : EachAfter P xs := by
  intro before x after split
  exact h x (by simp [split]) before

theorem eachAfter_append {P : List ι → ι → Prop} {xs ys : List ι} :
    EachAfter P (xs ++ ys) ↔ EachAfter P xs ∧ EachAfter (fun before => P (xs ++ before)) ys := by
  induction ys using List.reverseRecOn with
  | nil => simp [eachAfter_nil]
  | append_singleton ys y ih =>
    rw [← List.append_assoc, eachAfter_concat, ih, eachAfter_concat, and_assoc]

section Reading

variable {ε ρ ν : Type*} {read : σ → Except ε (ρ × σ)} {view : σ → ρ → ν} {s s' : σ} {r : ρ}

/-- What is read can be read again: if a first reading succeeds, so does a second one, what it
returns looks the same, and what the first one returned still looks as it did. -/
def Rereadable (read : σ → Except ε (ρ × σ)) (view : σ → ρ → ν) (s : σ) : Prop :=
  ∀ r s', read s = .ok (r, s') →
    ∃ r' s'', read s' = .ok (r', s'') ∧ view s'' r' = view s' r ∧ view s'' r = view s' r

/-- Where the second reading returns the same references, they have to look the same. -/
theorem rereadable_iff (first : read s = .ok (r, s'))
    (returned : ∀ r' s'', read s' = .ok (r', s'') → r' = r) :
    Rereadable read view s ↔ ∃ s'', read s' = .ok (r, s'') ∧ view s'' r = view s' r := by
  constructor
  · intro h
    obtain ⟨r', s'', second, -, same⟩ := h r s' first
    obtain rfl := returned r' s'' second
    exact ⟨s'', second, same⟩
  · intro h t t' again
    obtain ⟨rfl, rfl⟩ := Prod.mk.inj (Except.ok.inj (first.symm.trans again))
    obtain ⟨s'', second, same⟩ := h
    exact ⟨r, s'', second, same, same⟩

end Reading

end StepRun
