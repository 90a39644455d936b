import Mathlib.Data.List.Basic
import Mathlib.Data.List.Forall2

namespace PanicRun

universe u v

variable {ε : Type u} {α β σ κ : Type v} {ι : Type*}

/-- The computation ends with a value: nothing it runs raises. -/
def Returns (x : Except ε α) : Prop := ∃ a, x = .ok a

theorem bind_eq_ok {x : Except ε α} {f : α → Except ε β} {b : β} :
    x >>= f = .ok b ↔ ∃ a, x = .ok a ∧ f a = .ok b := by
  cases x <;> simp [bind, Except.bind]

@[simp] theorem returns_ok (a : α) : Returns (.ok a : Except ε α) := ⟨a, rfl⟩

@[simp] theorem returns_pure (a : α) : Returns (pure a : Except ε α) := ⟨a, rfl⟩

@[simp] theorem not_returns_error (e : ε) : ¬ Returns (.error e : Except ε α) := by
  intro h
  obtain ⟨a, h⟩ := h
  cases h

@[simp] theorem not_returns_throw (e : ε) : ¬ Returns (throw e : Except ε α) :=
  not_returns_error e

theorem returns_bind {x : Except ε α} {f : α → Except ε β} :
    Returns (x >>= f) ↔ ∃ a, x = .ok a ∧ Returns (f a) := by
  cases x <;> simp [Returns, bind, Except.bind]

theorem pure_eq_ok {a b : α} : (pure a : Except ε α) = .ok b ↔ a = b := by
  simp [pure, Except.pure]

theorem throw_ne_ok {e : ε} {a : α} : (throw e : Except ε α) = .ok a ↔ False := by
  simp [throw, throwThe, MonadExceptOf.throw]

theorem mapError_eq_ok {ε' : Type u} {x : Except ε α} {f : ε → ε'} {a : α} :
    x.mapError f = .ok a ↔ x = .ok a := by
  cases x <;> simp [Except.mapError]

theorem map_eq_ok {x : Except ε α} {f : α → β} {b : β} :
    x.map f = .ok b ↔ ∃ a, x = .ok a ∧ f a = b := by
  cases x <;> simp [Except.map]

@[simp] theorem returns_map {x : Except ε α} {f : α → β} : Returns (x.map f) ↔ Returns x := by
  cases x <;> simp [Except.map]

theorem toOption_eq_some {x : Except ε α} {a : α} : x.toOption = some a ↔ x = .ok a := by
  cases x <;> simp [Except.toOption]

section Loops

variable {xs : List ι} {ys : List κ}

theorem forM_eq_ok {f : ι → Except ε PUnit} {done : PUnit} :
    forM xs f = .ok done ↔ ∀ x ∈ xs, f x = .ok ⟨⟩ := by
  induction xs with
  | nil => simp [pure_eq_ok]
  | cons x xs ih =>
    rw [List.forM_cons, bind_eq_ok, List.forall_mem_cons, ih]
    constructor
    · intro h
      obtain ⟨⟨⟩, first, rest⟩ := h
      exact ⟨first, rest⟩
    · intro h
      obtain ⟨first, rest⟩ := h
      exact ⟨⟨⟩, first, rest⟩

theorem mapM_eq_ok {f : ι → Except ε κ} :
    xs.mapM f = .ok ys ↔ List.Forall₂ (fun x y => f x = .ok y) xs ys := by
  induction xs generalizing ys with
  | nil =>
    rw [List.mapM_nil, pure_eq_ok, List.forall₂_nil_left_iff]
    exact eq_comm
  | cons x xs ih =>
    simp only [List.mapM_cons, bind_eq_ok, pure_eq_ok, ih, List.forall₂_cons_left_iff]
    constructor
    · intro h
      obtain ⟨y, hy, ys, hys, rfl⟩ := h
      exact ⟨y, ys, hy, hys, rfl⟩
    · intro h
      obtain ⟨y, ys, hy, hys, rfl⟩ := h
      exact ⟨y, hy, ys, hys, rfl⟩

theorem returns_mapM {f : ι → Except ε κ} : Returns (xs.mapM f) ↔ ∀ x ∈ xs, Returns (f x) := by
  induction xs with
  | nil => simp [Returns, pure_eq_ok]
  | cons x xs ih =>
    rw [List.mapM_cons, returns_bind, List.forall_mem_cons, ← ih]
    constructor
    · intro h
      obtain ⟨y, first, _, rest⟩ := h
      obtain ⟨ys, rest, _⟩ := bind_eq_ok.mp rest
      exact ⟨⟨y, first⟩, ys, rest⟩
    · intro h
      obtain ⟨⟨y, first⟩, ys, rest⟩ := h
      exact ⟨y, first, y :: ys, bind_eq_ok.mpr ⟨ys, rest, rfl⟩⟩

variable {step : σ → ι → Except ε σ} {s s' : σ}

/-- A loop ends when each of its rounds does, whatever was accumulated before. -/
theorem returns_foldlM_iff {P : ι → Prop} (round : ∀ s x, Returns (step s x) ↔ P x) :
    Returns (xs.foldlM step s) ↔ ∀ x ∈ xs, P x := by
  induction xs generalizing s with
  | nil => simp
  | cons x xs ih =>
    rw [List.foldlM_cons, returns_bind]
    constructor
    · intro h
      obtain ⟨next, first, rest⟩ := h
      have head : P x := (round s x).mp ⟨next, first⟩
      simpa [head] using ih.mp rest
    · intro h
      obtain ⟨next, first⟩ := (round s x).mpr (h x List.mem_cons_self)
      exact ⟨next, first, ih.mpr fun y hy => h y (List.mem_cons_of_mem x hy)⟩

/-- What a loop has listed when it ends, each round adding the entry its input is related to. -/
theorem foldlM_lists {R : ι → κ → Prop} {view : σ → List κ}
    (round : ∀ s x y s', R x y → step s x = .ok s' → view s' = view s ++ [y])
    (related : List.Forall₂ R xs ys) (run : xs.foldlM step s = .ok s') :
    view s' = view s ++ ys := by
  induction related generalizing s with
  | nil =>
    have same : s = s' := pure_eq_ok.mp run
    simp [same]
  | cons first _ ih =>
    rw [List.foldlM_cons, bind_eq_ok] at run
    obtain ⟨next, now, later⟩ := run
    rw [ih later, round _ _ _ _ first now]
    simp

/-- What a loop has collected when it ends, from those of its inputs that yield something. -/
theorem foldlM_collects {f : ι → Except ε (Option κ)} {yields : ι → Bool}
    (yielding : ∀ x y, f x = .ok y → y.isSome = yields x) {xs : List ι} {ys ys' : List κ}
    (run : xs.foldlM (fun ys x => do return ys ++ (← f x).toList) ys = .ok ys') (n : Nat) :
    ∃ new, ys' = ys ++ new ∧
      List.Forall₂ (fun x y => f x.1 = .ok (some y)) ((xs.zipIdx n).filter fun x => yields x.1)
        new := by
  induction xs generalizing ys n with
  | nil =>
    have same : ys = ys' := pure_eq_ok.mp run
    exact ⟨[], by simp [same], List.Forall₂.nil⟩
  | cons x xs ih =>
    rw [List.foldlM_cons, bind_eq_ok] at run
    obtain ⟨next, now, later⟩ := run
    obtain ⟨y, yielded, added⟩ := bind_eq_ok.mp now
    obtain rfl := pure_eq_ok.mp added
    obtain ⟨new, rfl, related⟩ := ih later (n + 1)
    have selected := yielding x y yielded
    refine ⟨y.toList ++ new, List.append_assoc .., ?_⟩
    cases y with
    | none =>
      have skipped : yields x = false := by simpa using selected.symm
      simpa [List.zipIdx_cons, skipped] using related
    | some y =>
      have taken : yields x = true := by simpa using selected.symm
      simpa [List.zipIdx_cons, taken] using ⟨yielded, related⟩

end Loops

end PanicRun
