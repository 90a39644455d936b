import Mathlib.Data.List.Basic
import Mathlib.Data.Set.Basic

/-- A threshold formula: `atLeast n subs` asks for `n` of the formulas `subs`. -/
inductive ThresholdTree (α : Type*) where
  | leaf (a : α)
  | atLeast (n : Nat) (subs : List (ThresholdTree α))

namespace ThresholdTree

variable {α β : Type*}

open Classical in
mutual
/-- Satisfaction by the set `S` of leaves that hold. -/
noncomputable def Sat (S : Set α) : ThresholdTree α → Prop
  | .leaf a => a ∈ S
  | .atLeast n subs => n ≤ satCount S subs
noncomputable def satCount (S : Set α) : List (ThresholdTree α) → Nat
  | [] => 0
  | t :: ts => (if Sat S t then 1 else 0) + satCount S ts
end

@[simp] theorem sat_leaf {S : Set α} {a : α} : Sat S (.leaf a) ↔ a ∈ S := by
  simp [Sat]

theorem sat_atLeast {S : Set α} {n : Nat} {subs : List (ThresholdTree α)} :
    Sat S (.atLeast n subs) ↔ n ≤ satCount S subs := by
  simp [Sat]

@[simp] theorem satCount_nil {S : Set α} : satCount S [] = 0 := by simp [satCount]

theorem satCount_cons_sat {S : Set α} {t : ThresholdTree α} {ts : List (ThresholdTree α)}
    (h : Sat S t) : satCount S (t :: ts) = satCount S ts + 1 := by
  simp [satCount, h, Nat.add_comm]

theorem satCount_cons_not {S : Set α} {t : ThresholdTree α} {ts : List (ThresholdTree α)}
    (h : ¬ Sat S t) : satCount S (t :: ts) = satCount S ts := by
  simp [satCount, h]

theorem satCount_le_length {S : Set α} (ts : List (ThresholdTree α)) :
    satCount S ts ≤ ts.length := by
  induction ts with
  | nil => simp
  | cons t ts ih =>
    by_cases h : Sat S t
    · simpa [satCount_cons_sat h] using ih
    · simpa [satCount_cons_not h] using Nat.le_succ_of_le ih

/-- A threshold equal to the number of subformulas is their conjunction. -/
theorem sat_atLeast_length {S : Set α} {subs : List (ThresholdTree α)} :
    Sat S (.atLeast subs.length subs) ↔ ∀ t ∈ subs, Sat S t := by
  rw [sat_atLeast]
  induction subs with
  | nil => simp
  | cons t ts ih =>
    by_cases h : Sat S t
    · simp only [satCount_cons_sat h, List.length_cons, Nat.add_le_add_iff_right, ih,
        List.forall_mem_cons, h, true_and]
    · have bound := satCount_le_length (S := S) ts
      simp only [satCount_cons_not h, List.length_cons, List.forall_mem_cons, h, false_and,
        iff_false]
      omega

/-- A threshold of one is the disjunction of the subformulas. -/
theorem sat_atLeast_one {S : Set α} {subs : List (ThresholdTree α)} :
    Sat S (.atLeast 1 subs) ↔ ∃ t ∈ subs, Sat S t := by
  rw [sat_atLeast]
  induction subs with
  | nil => simp
  | cons t ts ih =>
    by_cases h : Sat S t
    · simp [satCount_cons_sat h, h]
    · simp [satCount_cons_not h, h, ih]

@[elab_as_elim]
theorem induction {P : ThresholdTree α → Prop} (leaf : ∀ a, P (.leaf a))
    (atLeast : ∀ n subs, (∀ t ∈ subs, P t) → P (.atLeast n subs)) : ∀ t, P t
  | .leaf a => leaf a
  | .atLeast n subs => atLeast n subs fun t _ => induction leaf atLeast t

theorem satCount_mono {S T : Set α} {ts : List (ThresholdTree α)}
    (h : ∀ t ∈ ts, Sat S t → Sat T t) : satCount S ts ≤ satCount T ts := by
  induction ts with
  | nil => simp
  | cons t ts ih =>
    obtain ⟨first, rest⟩ := List.forall_mem_cons.mp h
    have count := ih rest
    by_cases hs : Sat S t
    · rw [satCount_cons_sat hs, satCount_cons_sat (first hs)]
      omega
    · rw [satCount_cons_not hs]
      by_cases ht : Sat T t
      · rw [satCount_cons_sat ht]
        omega
      · rwa [satCount_cons_not ht]

/-- More leaves that hold never undo a satisfaction. -/
theorem Sat.mono {S T : Set α} (sub : S ⊆ T) {t : ThresholdTree α} (h : Sat S t) : Sat T t := by
  induction t using ThresholdTree.induction with
  | leaf a =>
    rw [sat_leaf] at h ⊢
    exact sub h
  | atLeast n subs ih =>
    rw [sat_atLeast] at h ⊢
    exact h.trans (satCount_mono ih)

end ThresholdTree
