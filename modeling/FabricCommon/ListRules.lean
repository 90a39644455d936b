import Mathlib.Data.List.Basic
import Mathlib.Data.List.Forall2
import Mathlib.Data.List.Induction

namespace ListRules

variable {α β : Type*}

section Split

variable [DecidableEq α] {a : α}

/-- No piece of a split holds the separator. -/
theorem notMem_of_mem_splitOn {xs piece : List α} (h : piece ∈ xs.splitOn a) : a ∉ piece := by
  induction xs generalizing piece with
  | nil =>
    have empty : piece = [] := by simpa using h
    simp [empty]
  | cons x xs ih =>
    rw [List.splitOn_cons_eq_if_modifyHead] at h
    obtain ⟨first, rest, hs⟩ := List.exists_cons_of_ne_nil (List.splitOn_ne_nil a xs)
    rw [hs] at h ih
    split at h
    next hx =>
      rcases List.mem_cons.mp h with rfl | h
      · simp
      · exact ih h
    next hx =>
      rcases List.mem_cons.mp h with rfl | h
      · have hf := ih (List.mem_cons_self (a := first))
        have hne : ¬ a = x := fun he => hx (by simp [he])
        simp [hne, hf]
      · exact ih (List.mem_cons_of_mem first h)

theorem sublist_of_mem_splitOn {xs piece : List α} (h : piece ∈ xs.splitOn a) :
    piece.Sublist xs := by
  induction xs generalizing piece with
  | nil =>
    have empty : piece = [] := by simpa using h
    simp [empty]
  | cons x xs ih =>
    rw [List.splitOn_cons_eq_if_modifyHead] at h
    obtain ⟨first, rest, hs⟩ := List.exists_cons_of_ne_nil (List.splitOn_ne_nil a xs)
    rw [hs] at h ih
    split at h
    next =>
      rcases List.mem_cons.mp h with rfl | h
      · exact List.nil_sublist _
      · exact (ih h).cons x
    next =>
      rcases List.mem_cons.mp h with rfl | h
      · exact (ih (List.mem_cons_self (a := first))).cons_cons x
      · exact (ih (List.mem_cons_of_mem first h)).cons x

end Split

section Forall₂

variable {R R' : α → β → Prop} {xs : List α} {ys : List β}

theorem forall₂_imp_mem (h : List.Forall₂ R xs ys) (imp : ∀ x ∈ xs, ∀ y, R x y → R' x y) :
    List.Forall₂ R' xs ys :=
  ((List.forall₂_and_left _ _).mpr ⟨imp, h⟩).imp fun _ y pair => pair.1 y pair.2

/-- Two lists related to a third are related entry by entry. -/
theorem forall₂_meet {γ : Type*} {T : γ → β → Prop} {zs : List γ} (h : List.Forall₂ R xs ys)
    (h' : List.Forall₂ T zs ys) : List.Forall₂ (fun x z => ∃ y, R x y ∧ T z y) xs zs := by
  induction h generalizing zs with
  | nil => cases h'; exact .nil
  | cons first _ ih =>
    cases h' with
    | cons first' rest' => exact .cons ⟨_, first, first'⟩ (ih rest')

theorem exists_related_of_forall₂ (h : List.Forall₂ R xs ys) {x : α} (hx : x ∈ xs) :
    ∃ y ∈ ys, R x y := by
  induction h with
  | nil => cases hx
  | cons first _ ih =>
    rcases List.mem_cons.mp hx with rfl | hx
    · exact ⟨_, List.mem_cons_self, first⟩
    · obtain ⟨y, hy, rel⟩ := ih hx
      exact ⟨y, List.mem_cons_of_mem _ hy, rel⟩

theorem related_of_getElem? (h : List.Forall₂ R xs ys) {i : Nat} {x : α} {y : β}
    (hx : xs[i]? = some x) (hy : ys[i]? = some y) : R x y := by
  obtain ⟨bound, rfl⟩ := List.getElem?_eq_some_iff.mp hx
  obtain ⟨bound', rfl⟩ := List.getElem?_eq_some_iff.mp hy
  exact (List.forall₂_iff_get.mp h).2 i bound bound'

theorem forall_mem_iff_of_forall₂ {P : α → Prop} {Q : β → Prop}
    (h : List.Forall₂ (fun x y => P x ↔ Q y) xs ys) : (∀ x ∈ xs, P x) ↔ ∀ y ∈ ys, Q y := by
  induction h with
  | nil => simp
  | cons first _ ih => simp [first, ih]

theorem exists_mem_iff_of_forall₂ {P : α → Prop} {Q : β → Prop}
    (h : List.Forall₂ (fun x y => P x ↔ Q y) xs ys) : (∃ x ∈ xs, P x) ↔ ∃ y ∈ ys, Q y := by
  induction h with
  | nil => simp
  | cons first _ ih => simp [first, ih]

theorem forall₂_concat_left_iff {x : α} :
    List.Forall₂ R (xs ++ [x]) ys ↔ ∃ ys' y, List.Forall₂ R xs ys' ∧ R x y ∧ ys = ys' ++ [y] := by
  rw [← List.forall₂_reverse_iff, List.reverse_append, List.reverse_singleton,
    List.singleton_append, List.forall₂_cons_left_iff]
  constructor
  · intro h
    obtain ⟨y, rest, last, related, split⟩ := h
    refine ⟨rest.reverse, y, ?_, last, ?_⟩
    · rwa [← List.forall₂_reverse_iff, List.reverse_reverse]
    · rw [← List.reverse_reverse ys, split, List.reverse_cons]
  · intro h
    obtain ⟨ys', y, related, last, rfl⟩ := h
    exact ⟨y, ys'.reverse, last, List.forall₂_reverse_iff.mpr related, by simp⟩

/-- Related lists end alike. -/
theorem getLast?_of_forall₂ (h : List.Forall₂ R xs ys) :
    Option.Rel R xs.getLast? ys.getLast? := by
  induction xs using List.reverseRecOn with
  | nil =>
    cases h
    exact Option.Rel.none
  | append_singleton xs x _ =>
    obtain ⟨ys', y, -, last, rfl⟩ := forall₂_concat_left_iff.mp h
    simpa using Option.Rel.some last

theorem getElem?_of_prefix {i : Nat} {x : α} {zs : List α} (h : xs <+: zs)
    (hx : xs[i]? = some x) : zs[i]? = some x := by
  obtain ⟨bound, rfl⟩ := List.getElem?_eq_some_iff.mp hx
  exact List.prefix_iff_getElem?.mp h i bound

end Forall₂

end ListRules
