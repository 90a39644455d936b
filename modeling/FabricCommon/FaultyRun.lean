import Mathlib.Data.List.Basic

namespace FaultyRun

variable {σ α φ : Type*}

/-- A run is cut at one of its steps, which leaves some damage. -/
structure Cut (φ : Type*) where
  step : Nat
  damage : φ
  deriving DecidableEq, Repr

/-- Perform the actions in order up to the cut. The flag tells whether the run got to its end. -/
def exec (perform : σ → α → σ) (fail : σ → α → φ → σ) :
    List α → Option (Cut φ) → σ → σ × Bool
  | [], _, s => (s, true)
  | a :: as, none, s => exec perform fail as none (perform s a)
  | a :: _, some ⟨0, damage⟩, s => (fail s a damage, false)
  | a :: as, some ⟨n + 1, damage⟩, s => exec perform fail as (some ⟨n, damage⟩) (perform s a)

variable {perform : σ → α → σ} {fail : σ → α → φ → σ}

theorem exec_uncut (as : List α) (s : σ) :
    exec perform fail as none s = (as.foldl perform s, true) := by
  induction as generalizing s with
  | nil => rfl
  | cons a as ih => exact ih (perform s a)

theorem exec_past {as : List α} {n : Nat} (h : as.length ≤ n) (damage : φ) (s : σ) :
    exec perform fail as (some ⟨n, damage⟩) s = (as.foldl perform s, true) := by
  induction as generalizing n s with
  | nil => rfl
  | cons a as ih =>
    cases n with
    | zero => simp at h
    | succ n => exact ih (Nat.le_of_succ_le_succ h) (perform s a)

theorem exec_cut {as : List α} {n : Nat} {a : α} (h : as[n]? = some a) (damage : φ) (s : σ) :
    exec perform fail as (some ⟨n, damage⟩) s =
      (fail ((as.take n).foldl perform s) a damage, false) := by
  induction as generalizing n s with
  | nil => simp at h
  | cons b as ih =>
    cases n with
    | zero =>
      simp only [List.getElem?_cons_zero, Option.some.injEq] at h
      subst h
      rfl
    | succ n => exact ih (by simpa using h) (perform s b)

/-- A step that occurs once is reached by exactly the longer prefixes. -/
theorem mem_take_iff {before after : List α} {a : α} (fresh : a ∉ before) (n : Nat) :
    a ∈ (before ++ a :: after).take n ↔ before.length < n := by
  constructor
  · intro h
    by_contra short
    rw [List.take_append_of_le_length (by omega)] at h
    exact fresh (List.mem_of_mem_take h)
  · intro h
    obtain ⟨k, rfl⟩ := Nat.exists_eq_add_of_lt h
    have split : before.length + k + 1 = before.length + (k + 1) := by omega
    rw [split, List.take_length_add_append, List.take_succ_cons]
    simp

end FaultyRun
