import Mathlib.Data.List.Basic

/-! Patterns whose matches are tried in a fixed order, the first one that leads to the end being
taken. -/

namespace RegExp

inductive Pattern (α : Type*) where
  | empty
  | one (p : α → Bool)
  | seq (r r' : Pattern α)
  | opt (r : Pattern α)
  | many (p : α → Bool)
  | fewest (p : α → Bool)
  | group (r : Pattern α)

/-- What a pattern takes from the front of a text and what its groups take. -/
structure Match (α : Type*) where
  taken : List α
  rest : List α
  groups : List (List α)

variable {α : Type*}

def Match.append (m m' : Match α) : Match α :=
  ⟨m.taken ++ m'.taken, m'.rest, m.groups ++ m'.groups⟩

/-- The match with more taken before it. -/
def Match.after (t : List α) (m : Match α) : Match α := { m with taken := t ++ m.taken }

/-- The cuts after elements that all have the property, the first one first. -/
def cuts (p : α → Bool) : List α → List (List α × List α)
  | [] => [([], [])]
  | c :: s =>
    ([], c :: s) :: if p c then (cuts p s).map fun cut => (c :: cut.1, cut.2) else []

namespace Pattern

def literal [DecidableEq α] (text : List α) : Pattern α :=
  text.foldr (fun c r => seq (one fun c' => decide (c' = c)) r) empty

/-- The matches at the front of a text, in the order in which they are tried: `many` takes as many
elements as it can, `fewest` as few as it can but one. -/
def results : Pattern α → List α → List (Match α)
  | empty, s => [⟨[], s, []⟩]
  | one _, [] => []
  | one p, c :: s => if p c then [⟨[c], s, []⟩] else []
  | seq r r', s => (r.results s).flatMap fun m => (r'.results m.rest).map m.append
  | opt r, s => r.results s ++ [⟨[], s, []⟩]
  | many p, s => (cuts p s).reverse.map fun cut => ⟨cut.1, cut.2, []⟩
  | fewest p, s => (cuts p s).tail.map fun cut => ⟨cut.1, cut.2, []⟩
  | group r, s => (r.results s).map fun m => { m with groups := m.taken :: m.groups }

/-- The first match at the leftmost place that has one. -/
def search (r : Pattern α) : List α → Option (Match α)
  | [] => (r.results []).head?
  | c :: s => (r.results (c :: s)).head?.or (r.search s)

end Pattern

open Pattern

variable {p : α → Bool} {r r' : Pattern α} {s t u : List α} {m m' : Match α}

theorem mem_cuts {cut : List α × List α} :
    cut ∈ cuts p s ↔ cut.1 ++ cut.2 = s ∧ ∀ c ∈ cut.1, p c = true := by
  obtain ⟨taken, rest⟩ := cut
  induction s generalizing taken with
  | nil =>
    simp only [cuts, List.mem_singleton, Prod.mk.injEq, List.append_eq_nil_iff]
    constructor
    · rintro ⟨rfl, rfl⟩
      simp
    · exact fun h => h.1
  | cons c s ih =>
    cases taken with
    | nil =>
      by_cases fits : p c = true
      · simp [cuts, fits]
      · simp [cuts, fits]
    | cons c' taken =>
      by_cases fits : p c = true
      · simp only [cuts, fits, if_true, List.mem_cons, List.mem_map, Prod.mk.injEq, reduceCtorEq,
          false_and, false_or, List.cons_append, List.cons.injEq, forall_eq_or_imp]
        constructor
        · rintro ⟨⟨taken', rest'⟩, mem, ⟨rfl, rfl⟩, rfl⟩
          have found := (ih taken').mp mem
          exact ⟨⟨rfl, found.1⟩, fits, found.2⟩
        · rintro ⟨⟨rfl, whole⟩, _, all⟩
          exact ⟨(taken, rest), (ih taken).mpr ⟨whole, all⟩, ⟨rfl, rfl⟩, rfl⟩
      · simp only [cuts, fits, Bool.false_eq_true, if_false, List.mem_singleton, Prod.mk.injEq,
          reduceCtorEq, false_and, List.cons_append, List.cons.injEq, false_iff, not_and]
        rintro ⟨rfl, _⟩ all
        exact fits (all c' List.mem_cons_self)

/-- The first cut takes nothing and the others take something. -/
theorem cuts_eq_cons (p : α → Bool) (s : List α) : cuts p s = ([], s) :: (cuts p s).tail := by
  cases s with
  | nil => rfl
  | cons c s => rfl

theorem ne_nil_of_mem_tail {cut : List α × List α} (h : cut ∈ (cuts p s).tail) : cut.1 ≠ [] := by
  cases s with
  | nil => simp [cuts] at h
  | cons c s =>
    simp only [cuts, List.tail_cons] at h
    split at h
    next =>
      obtain ⟨cut', _, rfl⟩ := List.mem_map.mp h
      simp
    next => simp at h

theorem mem_results_seq :
    m ∈ (seq r r').results s ↔
      ∃ m₁ ∈ r.results s, ∃ m₂ ∈ r'.results m₁.rest, m = m₁.append m₂ := by
  simp only [results, List.mem_flatMap, List.mem_map, eq_comm]

theorem mem_results_opt :
    m ∈ (opt r).results s ↔ m ∈ r.results s ∨ m = ⟨[], s, []⟩ := by
  simp [results]

theorem mem_results_one :
    m ∈ (one p).results s ↔ ∃ c rest, s = c :: rest ∧ p c = true ∧ m = ⟨[c], rest, []⟩ := by
  cases s with
  | nil => simp [results]
  | cons c s =>
    by_cases fits : p c = true
    · simp [results, fits]
    · simp [results, fits]

theorem mem_results_many :
    m ∈ (many p).results s ↔
      m.taken ++ m.rest = s ∧ (∀ c ∈ m.taken, p c = true) ∧ m.groups = [] := by
  obtain ⟨taken, rest, groups⟩ := m
  simp only [results, List.mem_map, List.mem_reverse, Match.mk.injEq]
  constructor
  · rintro ⟨cut, mem, rfl, rfl, rfl⟩
    have found := mem_cuts.mp mem
    exact ⟨found.1, found.2, rfl⟩
  · rintro ⟨whole, all, rfl⟩
    exact ⟨(taken, rest), mem_cuts.mpr ⟨whole, all⟩, rfl, rfl, rfl⟩

theorem mem_results_fewest :
    m ∈ (fewest p).results s ↔
      m.taken ≠ [] ∧ m.taken ++ m.rest = s ∧ (∀ c ∈ m.taken, p c = true) ∧ m.groups = [] := by
  obtain ⟨taken, rest, groups⟩ := m
  simp only [results, List.mem_map, Match.mk.injEq]
  constructor
  · rintro ⟨cut, mem, rfl, rfl, rfl⟩
    have found := mem_cuts.mp (List.mem_of_mem_tail mem)
    exact ⟨ne_nil_of_mem_tail mem, found.1, found.2, rfl⟩
  · rintro ⟨some_taken, whole, all, rfl⟩
    have mem : (taken, rest) ∈ cuts p s := mem_cuts.mpr ⟨whole, all⟩
    rw [cuts_eq_cons, List.mem_cons, Prod.mk.injEq] at mem
    exact ⟨(taken, rest), mem.resolve_left fun first => some_taken first.1, rfl, rfl, rfl⟩

theorem mem_results_group :
    m ∈ (group r).results s ↔
      ∃ m' ∈ r.results s, m = { m' with groups := m'.taken :: m'.groups } := by
  simp only [results, List.mem_map, eq_comm]

theorem mem_results_literal [DecidableEq α] {text : List α} :
    m ∈ (literal text).results s ↔ text ++ m.rest = s ∧ m.taken = text ∧ m.groups = [] := by
  induction text generalizing s m with
  | nil =>
    obtain ⟨taken, rest, groups⟩ := m
    simp only [literal, List.foldr_nil, results, List.mem_singleton, Match.mk.injEq,
      List.nil_append]
    exact ⟨fun h => ⟨h.2.1, h.1, h.2.2⟩, fun h => ⟨h.2.1, h.1, h.2.2⟩⟩
  | cons c text ih =>
    show m ∈ (seq (one fun c' => decide (c' = c)) (literal text)).results s ↔ _
    obtain ⟨taken, rest, groups⟩ := m
    simp only [mem_results_seq, mem_results_one, ih, decide_eq_true_eq]
    constructor
    · rintro ⟨_, ⟨c', rest', rfl, rfl, rfl⟩, m₂, ⟨whole, same, none⟩, eq⟩
      cases eq
      simp [whole, same, none]
    · rintro ⟨rfl, rfl, rfl⟩
      exact ⟨⟨[c], text ++ rest, []⟩, ⟨c, _, rfl, rfl, rfl⟩, ⟨text, rest, []⟩, ⟨rfl, rfl, rfl⟩, rfl⟩

theorem mem_results_literal_seq [DecidableEq α] {text : List α} :
    m ∈ (seq (literal text) r).results s ↔
      ∃ s', s = text ++ s' ∧ ∃ m' ∈ r.results s', m = m'.after text := by
  simp only [mem_results_seq, mem_results_literal]
  constructor
  · rintro ⟨⟨_, rest, _⟩, ⟨rfl, rfl, rfl⟩, m', mem, rfl⟩
    exact ⟨rest, rfl, m', mem, rfl⟩
  · rintro ⟨s', rfl, m', mem, rfl⟩
    exact ⟨⟨text, s', []⟩, ⟨rfl, rfl, rfl⟩, m', mem, rfl⟩

theorem mem_results_many_seq :
    m ∈ (seq (many p) r).results s ↔
      ∃ t s', s = t ++ s' ∧ (∀ c ∈ t, p c = true) ∧ ∃ m' ∈ r.results s', m = m'.after t := by
  simp only [mem_results_seq, mem_results_many]
  constructor
  · rintro ⟨⟨taken, rest, _⟩, ⟨rfl, all, rfl⟩, m', mem, rfl⟩
    exact ⟨taken, rest, rfl, all, m', mem, rfl⟩
  · rintro ⟨t, s', rfl, all, m', mem, rfl⟩
    exact ⟨⟨t, s', []⟩, ⟨rfl, all, rfl⟩, m', mem, rfl⟩

theorem mem_results_fewest_seq :
    m ∈ (seq (fewest p) r).results s ↔
      ∃ t s', s = t ++ s' ∧ t ≠ [] ∧ (∀ c ∈ t, p c = true) ∧
        ∃ m' ∈ r.results s', m = m'.after t := by
  simp only [mem_results_seq, mem_results_fewest]
  constructor
  · rintro ⟨⟨taken, rest, _⟩, ⟨some_taken, rfl, all, rfl⟩, m', mem, rfl⟩
    exact ⟨taken, rest, rfl, some_taken, all, m', mem, rfl⟩
  · rintro ⟨t, s', rfl, some_taken, all, m', mem, rfl⟩
    exact ⟨⟨t, s', []⟩, ⟨some_taken, rfl, all, rfl⟩, m', mem, rfl⟩

theorem mem_results_opt_one_seq :
    m ∈ (seq (opt (one p)) r).results s ↔
      (∃ c s', s = c :: s' ∧ p c = true ∧ ∃ m' ∈ r.results s', m = m'.after [c]) ∨
        m ∈ r.results s := by
  simp only [mem_results_seq, mem_results_opt, mem_results_one]
  constructor
  · rintro ⟨_, ⟨c, s', rfl, fits, rfl⟩ | rfl, m', mem, rfl⟩
    · exact Or.inl ⟨c, s', rfl, fits, m', mem, rfl⟩
    · exact Or.inr mem
  · rintro (⟨c, s', rfl, fits, m', mem, rfl⟩ | mem)
    · exact ⟨⟨[c], s', []⟩, Or.inl ⟨c, s', rfl, fits, rfl⟩, m', mem, rfl⟩
    · exact ⟨⟨[], s, []⟩, Or.inr rfl, m, mem, rfl⟩

/-- A pattern with one way to match leaves the choice to what follows it. -/
theorem head?_results_seq (found : r.results s ≠ []) (unique : ∀ m' ∈ r.results s, m' = m) :
    ((seq r r').results s).head? = (r'.results m.rest).head?.map m.append := by
  obtain ⟨first, others, eq⟩ := List.exists_cons_of_ne_nil found
  have all : ∀ m' ∈ first :: others, m' = m := eq ▸ unique
  rw [results, eq, List.eq_replicate_of_mem all]
  cases next : r'.results m.rest with
  | nil => simp [next]
  | cons m₂ more => simp [List.replicate_succ, next]

/-- The last cuts come first, those inside the end of the text before the one in front of it. -/
theorem cuts_reverse_append (t u : List α) :
    ∃ before after, (cuts (fun _ => true) (t ++ u)).reverse = before ++ (t, u) :: after ∧
      ∀ cut ∈ before, ∃ pre, pre ≠ [] ∧ pre ++ cut.2 = u := by
  induction t with
  | nil =>
    refine ⟨(cuts (fun _ => true) u).tail.reverse, [], ?_, ?_⟩
    · rw [List.nil_append, ← List.reverse_cons, ← cuts_eq_cons]
    · intro cut mem
      rw [List.mem_reverse] at mem
      exact ⟨cut.1, ne_nil_of_mem_tail mem, (mem_cuts.mp (List.mem_of_mem_tail mem)).1⟩
  | cons c t ih =>
    obtain ⟨before, after, eq, inside⟩ := ih
    refine ⟨before.map fun cut => (c :: cut.1, cut.2),
      after.map (fun cut => (c :: cut.1, cut.2)) ++ [([], c :: (t ++ u))], ?_, ?_⟩
    · simp [cuts, ← List.map_reverse, eq]
    · intro cut mem
      obtain ⟨cut', mem', rfl⟩ := List.mem_map.mp mem
      exact inside cut' mem'

/-- Taking all it can, a group gives back what the pattern after it needs, the last place where
that matches. -/
theorem head?_results_many_seq (last : ∀ pre suf, pre ≠ [] → pre ++ suf = u → r.results suf = [])
    (found : r.results u ≠ []) :
    ((seq (group (many fun _ => true)) r).results (t ++ u)).head? =
      (r.results u).head?.map (Match.append ⟨t, u, [t]⟩) := by
  obtain ⟨before, after, eq, inside⟩ := cuts_reverse_append t u
  have passed : (before.flatMap fun cut =>
      (r.results cut.2).map (Match.append ⟨cut.1, cut.2, [cut.1]⟩)) = [] := by
    rw [List.flatMap_eq_nil_iff]
    intro cut mem
    obtain ⟨pre, some_pre, whole⟩ := inside cut mem
    rw [last pre cut.2 some_pre whole, List.map_nil]
  obtain ⟨first, others, here⟩ := List.exists_cons_of_ne_nil found
  simp only [results, eq, List.map_map, List.flatMap_map, List.flatMap_append, List.flatMap_cons,
    Function.comp_apply]
  rw [passed, here]
  simp

/-- A search skips what no match starts with. -/
theorem search_append (skipped : ∀ c ∈ t, ∀ s, r.results (c :: s) = []) :
    r.search (t ++ u) = r.search u := by
  induction t with
  | nil => rfl
  | cons c t ih =>
    rw [List.cons_append, search, skipped c List.mem_cons_self, List.head?_nil, Option.none_or]
    exact ih fun c mem => skipped c (List.mem_cons_of_mem _ mem)

theorem search_eq (h : (r.results s).head? = some m) : r.search s = some m := by
  cases s with
  | nil => exact h
  | cons c s => rw [search, h, Option.some_or]

end RegExp
