import FabricCommon.RegExp

/-! Patterns between the anchors `^` and `$`. -/

namespace RegExp

open Pattern

variable {α : Type*}

namespace Pattern

/-- A given number of elements with a property. -/
def exactly (n : Nat) (p : α → Bool) : Pattern α :=
  match n with
  | 0 => empty
  | n + 1 => seq (one p) (exactly n p)

/-- At least one element with a property, as many as possible. -/
def atLeastOne (p : α → Bool) : Pattern α := seq (one p) (many p)

/-- The first match that leaves nothing. -/
def whole (r : Pattern α) (s : List α) : Option (Match α) :=
  (r.results s).find? fun m => m.rest.isEmpty

end Pattern

variable {p : α → Bool} {r : Pattern α} {s : List α} {m : Match α} {n : Nat}

theorem mem_results_exactly :
    m ∈ (exactly n p).results s ↔
      m.taken ++ m.rest = s ∧ m.taken.length = n ∧ (∀ c ∈ m.taken, p c = true) ∧ m.groups = [] := by
  induction n generalizing s m with
  | zero =>
    obtain ⟨taken, rest, groups⟩ := m
    simp only [exactly, results, List.mem_singleton, Match.mk.injEq, List.length_eq_zero_iff]
    constructor
    · rintro ⟨rfl, rfl, rfl⟩
      simp
    · rintro ⟨rfl, rfl, -, rfl⟩
      simp
  | succ n ih =>
    obtain ⟨taken, rest, groups⟩ := m
    simp only [exactly, mem_results_seq, mem_results_one, ih]
    constructor
    · rintro ⟨_, ⟨c, s', rfl, fits, rfl⟩, m', ⟨rest_eq, len, all, none⟩, eq⟩
      cases eq
      exact ⟨by simp [rest_eq], by simp [len], by simpa [fits] using all, by simp [none]⟩
    · rintro ⟨rfl, len, all, rfl⟩
      obtain ⟨c, taken, rfl⟩ := List.exists_cons_of_length_eq_add_one len
      obtain ⟨fits, all⟩ := List.forall_mem_cons.mp all
      exact ⟨⟨[c], taken ++ rest, []⟩, ⟨c, _, rfl, fits, rfl⟩, ⟨taken, rest, []⟩,
        ⟨rfl, Nat.succ.inj len, all, rfl⟩, rfl⟩

theorem mem_results_atLeastOne :
    m ∈ (atLeastOne p).results s ↔
      m.taken ++ m.rest = s ∧ m.taken ≠ [] ∧ (∀ c ∈ m.taken, p c = true) ∧ m.groups = [] := by
  obtain ⟨taken, rest, groups⟩ := m
  simp only [atLeastOne, mem_results_seq, mem_results_one, mem_results_many]
  constructor
  · rintro ⟨_, ⟨c, s', rfl, fits, rfl⟩, m', ⟨rest_eq, all, none⟩, eq⟩
    cases eq
    exact ⟨by simp [rest_eq], by simp, by simpa [fits] using all, by simp [none]⟩
  · rintro ⟨rfl, some_taken, all, rfl⟩
    obtain ⟨c, taken, rfl⟩ := List.exists_cons_of_ne_nil some_taken
    obtain ⟨fits, all⟩ := List.forall_mem_cons.mp all
    exact ⟨⟨[c], taken ++ rest, []⟩, ⟨c, _, rfl, fits, rfl⟩, ⟨taken, rest, []⟩, ⟨rfl, all, rfl⟩,
      rfl⟩

theorem whole_eq_none : r.whole s = none ↔ ∀ m ∈ r.results s, m.rest ≠ [] := by
  simp [whole]

theorem mem_of_whole (h : r.whole s = some m) : m ∈ r.results s ∧ m.rest = [] :=
  ⟨List.mem_of_find?_eq_some h, by simpa using List.find?_some h⟩

/-- Where there is one way to match all, it is found. -/
theorem whole_eq_some (mem : m ∈ r.results s) (all : m.rest = [])
    (unique : ∀ m' ∈ r.results s, m'.rest = [] → m' = m) : r.whole s = some m := by
  cases found : r.whole s with
  | none => exact absurd all (whole_eq_none.mp found m mem)
  | some m' =>
    obtain ⟨mem', all'⟩ := mem_of_whole found
    rw [unique m' mem' all']

end RegExp
