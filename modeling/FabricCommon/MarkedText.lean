import Mathlib.Data.List.DropRight

/-! Texts with marked lines in them, and the replacement of a text by another one. -/

namespace MarkedText

variable {α : Type*}

/-- The lines that have a mark, where some characters break lines. -/
def marked [DecidableEq α] (br : α → Bool) (mark : α) (t : List α) : List (List α) :=
  (t.splitOnP br).filter fun line => mark ∈ line

/-- Pieces with what stands after each. -/
def weave (qs : List (List α × List α)) : List α := qs.flatMap fun q => q.1 ++ q.2

def EndsLine (br : α → Bool) (t : List α) : Prop := ∀ c ∈ t.getLast?, br c = true

def StartsLine (br : α → Bool) (t : List α) : Prop := ∃ c ∈ t.head?, br c = true

/-- What is left to do after some characters of a text to skip. -/
def replaceFrom [BEq α] (pattern sub : List α) : Nat → List α → List α
  | _, [] => []
  | skip + 1, _ :: s => replaceFrom pattern sub skip s
  | 0, c :: s =>
    if pattern.isPrefixOf (c :: s) then sub ++ replaceFrom pattern sub (pattern.length - 1) s
    else c :: replaceFrom pattern sub 0 s

/-- Replace every occurrence of the pattern, from the left. -/
def replaceAll [BEq α] (pattern sub t : List α) : List α := replaceFrom pattern sub 0 t

variable {br : α → Bool} {mark : α} {t x y : List α} {b : α}

theorem mem_of_mem_splitOnP {line : List α} (h : line ∈ t.splitOnP br) : ∀ c ∈ line, c ∈ t := by
  induction t generalizing line with
  | nil =>
    rw [List.splitOnP_nil, List.mem_singleton] at h
    simp [h]
  | cons a t ih =>
    rw [List.splitOnP_cons_eq_if_modifyHead] at h
    split at h
    next =>
      rcases List.mem_cons.mp h with rfl | later
      · simp
      · exact fun c mem => List.mem_cons_of_mem _ (ih later c mem)
    next =>
      obtain ⟨first, others, eq⟩ := List.exists_cons_of_ne_nil (List.splitOnP_ne_nil br t)
      rw [eq, List.modifyHead_cons] at h
      rcases List.mem_cons.mp h with rfl | later
      · have inside : first ∈ t.splitOnP br := by simp [eq]
        intro c mem
        rcases List.mem_cons.mp mem with rfl | mem
        · exact List.mem_cons_self
        · exact List.mem_cons_of_mem _ (ih inside c mem)
      · have inside : line ∈ t.splitOnP br := by simp [eq, later]
        exact fun c mem => List.mem_cons_of_mem _ (ih inside c mem)

variable [DecidableEq α]

/-- A break keeps the lines in front of it from those after it. -/
theorem marked_append_break (hb : br b = true) (x y : List α) :
    marked br mark (x ++ b :: y) = marked br mark x ++ marked br mark y := by
  rw [marked, List.splitOnP_append_cons x y hb, List.filter_append, marked, marked]

theorem marked_eq_nil (h : mark ∉ x) : marked br mark x = [] := by
  rw [marked, List.filter_eq_nil_iff]
  intro line mem marks
  exact h (mem_of_mem_splitOnP mem mark (of_decide_eq_true marks))

theorem marked_line (plain : ∀ c ∈ x, br c = false) (marks : mark ∈ x) :
    marked br mark x = [x] := by
  rw [marked, List.splitOnP_eq_singleton plain]
  simp [marks]

theorem marked_of_endsLine (unmarked : mark ∉ x) (ends : EndsLine br x) (t : List α) :
    marked br mark (x ++ t) = marked br mark t := by
  rcases List.eq_nil_or_concat x with rfl | ⟨x, b, rfl⟩
  · rfl
  · have hb : br b = true := ends b (by simp)
    have clear : mark ∉ x := fun mem => unmarked (by simp [mem])
    rw [List.concat_eq_append, List.append_assoc, List.singleton_append, marked_append_break hb,
      marked_eq_nil clear, List.nil_append]

/-- A line goes on to the next break. -/
theorem marked_cons_of_append (mark : α) (plain : ∀ c ∈ x, br c = false) (marks : mark ∈ x)
    (t : List α) :
    ∃ z more, marked br mark (x ++ t) = (x ++ z) :: more := by
  have lines : ∀ x : List α, (∀ c ∈ x, br c = false) →
      (x ++ t).splitOnP br = (t.splitOnP br).modifyHead (x ++ ·) := by
    intro x plain
    induction x with
    | nil =>
      obtain ⟨first, others, eq⟩ := List.exists_cons_of_ne_nil (List.splitOnP_ne_nil br t)
      simp [eq]
    | cons c x ih =>
      have unbroken : ¬ br c = true := by simp [plain c List.mem_cons_self]
      rw [List.cons_append, List.splitOnP_cons_eq_if_modifyHead, if_neg unbroken,
        ih fun c mem => plain c (List.mem_cons_of_mem _ mem), List.modifyHead_modifyHead]
      rfl
  obtain ⟨first, others, eq⟩ := List.exists_cons_of_ne_nil (List.splitOnP_ne_nil br t)
  refine ⟨first, others.filter fun line => mark ∈ line, ?_⟩
  rw [marked, lines x plain, eq, List.modifyHead_cons, List.filter_cons_of_pos (by simp [marks])]

/-- A mark that something else on its line stands in front of is not where its line starts. -/
theorem marked_of_not_endsLine (unmarked : mark ∉ x) (open_line : ¬ EndsLine br x)
    (unbroken : br mark = false) (t : List α) :
    ∃ c z more, c ≠ mark ∧ marked br mark (x ++ mark :: t) = (c :: z) :: more := by
  have split : x.rdropWhile (fun c => !br c) ++ x.rtakeWhile (fun c => !br c) = x :=
    List.rdropWhile_append_rtakeWhile
  have ends : EndsLine br (x.rdropWhile fun c => !br c) := by
    intro c mem
    have solid := List.ne_nil_of_mem (List.mem_of_mem_getLast? mem)
    have last := List.rdropWhile_last_not (fun c => !br c) x solid
    rw [List.getLast?_eq_some_getLast solid, Option.mem_some_iff] at mem
    rw [mem] at last
    simpa using last
  cases rest : x.rtakeWhile fun c => !br c with
  | nil =>
    rw [rest, List.append_nil] at split
    exact absurd (split ▸ ends) open_line
  | cons c z =>
    have plain : ∀ a ∈ (c :: z) ++ [mark], br a = false := by
      intro a mem
      rcases List.mem_append.mp mem with inside | last
      · rw [← rest] at inside
        simpa using List.mem_rtakeWhile_imp inside
      · rw [List.mem_singleton.mp last]
        exact unbroken
    have clear : ∀ a ∈ x, a ≠ mark := fun a mem same => unmarked (same ▸ mem)
    obtain ⟨z', more, line⟩ := marked_cons_of_append mark plain (by simp) t
    refine ⟨c, z ++ [mark] ++ z', more, clear c ?_, ?_⟩
    · rw [← split, rest]
      simp
    · have plain_front : mark ∉ x.rdropWhile fun c => !br c :=
        fun mem => unmarked ((List.rdropWhile_prefix _ _).subset mem)
      rw [← split, rest, List.append_assoc, marked_of_endsLine plain_front ends]
      simpa using line

section

variable {qs : List (List α × List α)} {m : List α}

/-- The pieces begin with the mark and have no line breaks, and the mark is in nothing else. -/
def Pieces (br : α → Bool) (mark : α) (qs : List (List α × List α)) : Prop :=
  ∀ q ∈ qs, (∃ m, q.1 = mark :: m) ∧ (∀ c ∈ q.1, br c = false) ∧ mark ∉ q.2

omit [DecidableEq α] in
theorem weave_head (pieces : Pieces br mark qs) (t : List α) :
    ∃ t', weave qs ++ mark :: t = mark :: t' := by
  cases qs with
  | nil => exact ⟨t, rfl⟩
  | cons q qs =>
    obtain ⟨m, head⟩ := (pieces q List.mem_cons_self).1
    exact ⟨m ++ q.2 ++ weave qs ++ mark :: t, by simp [weave, head]⟩

omit [DecidableEq α] in
theorem endsLine_cons (hb : br b = true) : EndsLine br (b :: x) ↔ EndsLine br x := by
  cases x with
  | nil => simp [EndsLine, hb]
  | cons c x => simp [EndsLine, List.getLast?_cons_cons]

/-- What stands before a break on a line with a mark is no piece when it begins otherwise. -/
theorem marked_ne_of_not_endsLine (unbroken : br mark = false) (unmarked : mark ∉ x)
    (open_line : ¬ EndsLine br x) (t : List α) (more : List (List α)) :
    marked br mark (x ++ mark :: t) ≠ (mark :: m) :: more := by
  obtain ⟨c, z, more', other, line⟩ := marked_of_not_endsLine unmarked open_line unbroken t
  rw [line]
  intro same
  simp only [List.cons.injEq] at same
  exact other same.1.1

/-- A marked line goes on with what follows on it. -/
theorem marked_ne_of_not_startsLine (unbroken : br mark = false) (plain : ∀ c ∈ x, br c = false)
    (marks : mark ∈ x) (joined : ¬ StartsLine br y) (t : List α) (more : List (List α)) :
    marked br mark (x ++ (y ++ mark :: t)) ≠ x :: more := by
  obtain ⟨a, t', next, same_line⟩ : ∃ a t', y ++ mark :: t = a :: t' ∧ br a = false := by
    cases y with
    | nil => exact ⟨mark, t, rfl, unbroken⟩
    | cons c y =>
      refine ⟨c, y ++ mark :: t, rfl, ?_⟩
      rw [← Bool.not_eq_true]
      exact fun hc => joined ⟨c, rfl, hc⟩
  have plain' : ∀ c ∈ x ++ [a], br c = false := by
    intro c mem
    rcases List.mem_append.mp mem with inside | final
    · exact plain c inside
    · rw [List.mem_singleton.mp final]
      exact same_line
  obtain ⟨z, more', line⟩ := marked_cons_of_append mark plain' (by simp [marks]) t'
  rw [List.append_assoc, List.singleton_append] at line
  rw [next, line]
  intro same
  have longer := congrArg List.length (List.cons.inj same).1
  simp at longer

/-- The pieces are the marked lines exactly when what is around each of them breaks the line on
both sides. -/
theorem marked_weave_iff (unbroken : br mark = false) (hb : br b = true) (unmarked : mark ∉ x)
    (pieces : Pieces br mark qs) (last : ∀ c ∈ m, br c = false) :
    marked br mark (x ++ (weave qs ++ mark :: (m ++ [b]))) = qs.map Prod.fst ++ [mark :: m] ↔
      EndsLine br x ∧ ∀ q ∈ qs, StartsLine br q.2 ∧ EndsLine br q.2 := by
  induction qs generalizing x with
  | nil =>
    by_cases ends : EndsLine br x
    · have line : ∀ c ∈ mark :: m, br c = false := List.forall_mem_cons.mpr ⟨unbroken, last⟩
      have only : marked br mark ((mark :: m) ++ b :: []) = [mark :: m] := by
        rw [marked_append_break hb, marked_line line List.mem_cons_self,
          marked_eq_nil List.not_mem_nil, List.append_nil]
      rw [marked_of_endsLine unmarked ends]
      exact iff_of_true only ⟨ends, by simp⟩
    · exact iff_of_false (marked_ne_of_not_endsLine unbroken unmarked ends _ _)
        fun both => ends both.1
  | cons q qs ih =>
    obtain ⟨piece, sep⟩ := q
    obtain ⟨⟨rest, head⟩, plain, unmarked'⟩ := pieces _ List.mem_cons_self
    have pieces' : Pieces br mark qs := fun q mem => pieces q (List.mem_cons_of_mem _ mem)
    obtain ⟨after, more⟩ := weave_head pieces' (m ++ [b])
    dsimp only at head plain unmarked'
    have shape : weave ((piece, sep) :: qs) ++ mark :: (m ++ [b]) =
        piece ++ (sep ++ (weave qs ++ mark :: (m ++ [b]))) := by simp [weave]
    rw [shape, List.map_cons, List.cons_append, List.forall_mem_cons]
    by_cases ends : EndsLine br x
    · rw [marked_of_endsLine unmarked ends]
      by_cases starts : StartsLine br sep
      · obtain ⟨b', first, hb'⟩ := starts
        obtain ⟨sep', rfl⟩ : ∃ sep', sep = b' :: sep' := by
          cases sep with
          | nil => simp at first
          | cons c sep' => exact ⟨sep', by rw [Option.mem_some_iff.mp first]⟩
        have clear : mark ∉ sep' := fun mem => unmarked' (List.mem_cons_of_mem _ mem)
        rw [List.cons_append, marked_append_break hb', marked_line plain (by simp [head]),
          List.singleton_append, List.cons.injEq, ih clear pieces', endsLine_cons hb']
        constructor
        · intro h
          exact ⟨ends, ⟨⟨b', first, hb'⟩, h.2.1⟩, h.2.2⟩
        · intro h
          exact ⟨rfl, h.2.1.2, h.2.2⟩
      · rw [more]
        exact iff_of_false (marked_ne_of_not_startsLine unbroken plain (by simp [head]) starts _ _)
          fun both => starts both.2.1.1
    · rw [head, List.cons_append]
      exact iff_of_false (marked_ne_of_not_endsLine unbroken unmarked ends _ _)
        fun both => ends both.1

end

section

variable {pattern sub s : List α} {k : Nat} {c d nl : α}

theorem replaceFrom_skip (t s : List α) :
    replaceFrom pattern sub t.length (t ++ s) = replaceAll pattern sub s := by
  induction t with
  | nil => rfl
  | cons c t ih => exact ih

theorem replaceAll_pattern (some_pattern : pattern ≠ []) (s : List α) :
    replaceAll pattern sub (pattern ++ s) = sub ++ replaceAll pattern sub s := by
  obtain ⟨c, rest, rfl⟩ := List.exists_cons_of_ne_nil some_pattern
  have found : (c :: rest).isPrefixOf (c :: (rest ++ s)) = true := by simp
  rw [List.cons_append, replaceAll, replaceFrom, if_pos found]
  exact congrArg (sub ++ ·) (replaceFrom_skip rest s)

theorem replaceAll_cons (other : ¬ pattern <+: c :: s) :
    replaceAll pattern sub (c :: s) = c :: replaceAll pattern sub s := by
  have none_here : ¬ pattern.isPrefixOf (c :: s) = true := by simpa using other
  rw [replaceAll, replaceFrom, if_neg none_here, replaceAll]

/-- A run that is too short for the pattern stays. -/
theorem replaceAll_run (other : c ≠ d) {n : Nat} (short : k < n) :
    replaceAll (List.replicate n d) sub (List.replicate k d ++ c :: s) =
      List.replicate k d ++ replaceAll (List.replicate n d) sub (c :: s) := by
  induction k with
  | zero => rfl
  | succ k ih =>
    rw [List.replicate_succ, List.cons_append, replaceAll_cons, ih (by omega), List.cons_append]
    intro long
    obtain ⟨rest, eq⟩ := long
    have at_end := congrArg (fun t => t[k + 1]?) eq
    simp only [← List.cons_append, ← List.replicate_succ] at at_end
    rw [List.getElem?_append_left (by simpa using short),
      List.getElem?_append_right (by simp)] at at_end
    exact other (by simpa [short, eq_comm] using at_end)

theorem replaceAll_plain (plain : d ∉ t) {n : Nat} (some_run : 0 < n) (s : List α) :
    replaceAll (List.replicate n d) sub (t ++ s) = t ++ replaceAll (List.replicate n d) sub s := by
  induction t with
  | nil => rfl
  | cons c t ih =>
    have other : ¬ List.replicate n d <+: c :: (t ++ s) := by
      intro found
      obtain ⟨m, rfl⟩ := Nat.exists_eq_add_of_lt some_run
      rw [Nat.zero_add, List.replicate_succ, List.cons_prefix_cons] at found
      exact plain (by simp [found.1])
    rw [List.cons_append, replaceAll_cons other, ih fun mem => plain (List.mem_cons_of_mem _ mem),
      List.cons_append]

/-- A text between two runs of the same length. -/
def Delimited (k : Nat) (d : α) (m : List α) : Prop :=
  ∃ core, core ≠ [] ∧ d ∉ core ∧ m = List.replicate k d ++ (core ++ List.replicate k d)

/-- What stands after a piece, where the pieces that touch get something in between. -/
def fill (nl : α) (q : List α × List α) : List α × List α :=
  (q.1, if q.2 = [] then [nl] else q.2)

/-- The replacement that puts something in between two runs. -/
def parted (k : Nat) (d nl : α) : List α → List α :=
  replaceAll (List.replicate (k + k) d) (List.replicate k d ++ nl :: List.replicate k d)

theorem parted_run (nl : α) (some_run : 0 < k) (other : c ≠ d) (s : List α) :
    parted k d nl (List.replicate k d ++ c :: s) = List.replicate k d ++ parted k d nl (c :: s) :=
  replaceAll_run other (by omega)

theorem parted_plain (nl : α) (some_run : 0 < k) (plain : d ∉ t) (s : List α) :
    parted k d nl (t ++ s) = t ++ parted k d nl s :=
  replaceAll_plain plain (by omega) s

theorem parted_delimited (nl : α) (some_run : 0 < k) (h : Delimited k d t) (other : c ≠ d)
    (s : List α) :
    parted k d nl (t ++ c :: s) = t ++ parted k d nl (c :: s) := by
  obtain ⟨core, some_core, plain, rfl⟩ := h
  obtain ⟨a, core, rfl⟩ := List.exists_cons_of_ne_nil some_core
  have first : a ≠ d := fun same => plain (by simp [same])
  have step := parted_run nl some_run first (core ++ (List.replicate k d ++ c :: s))
  have inside := parted_plain nl some_run plain (List.replicate k d ++ c :: s)
  have final := parted_run nl some_run other s
  simp only [List.cons_append, List.append_assoc] at step inside ⊢
  rw [step, inside, final]

theorem parted_touching (nl : α) (some_run : 0 < k) (h : Delimited k d t) (other : c ≠ d)
    (s : List α) :
    parted k d nl (t ++ (List.replicate k d ++ c :: s)) =
      t ++ nl :: parted k d nl (List.replicate k d ++ c :: s) := by
  obtain ⟨core, some_core, plain, rfl⟩ := h
  obtain ⟨a, core, rfl⟩ := List.exists_cons_of_ne_nil some_core
  have first : a ≠ d := fun same => plain (by simp [same])
  have both : parted k d nl (List.replicate k d ++ (List.replicate k d ++ c :: s)) =
      List.replicate k d ++ nl :: List.replicate k d ++ parted k d nl (c :: s) := by
    rw [← List.append_assoc, List.replicate_append_replicate]
    exact replaceAll_pattern (by simp; omega) _
  have step := parted_run nl some_run first
    (core ++ (List.replicate k d ++ (List.replicate k d ++ c :: s)))
  have inside := parted_plain nl some_run plain
    (List.replicate k d ++ (List.replicate k d ++ c :: s))
  have final := parted_run nl some_run other s
  simp only [List.cons_append, List.append_assoc] at step inside both ⊢
  rw [step, inside, both, final]

/-- The pieces have runs around them, and what is in between has none. -/
def Runs (k : Nat) (d : α) (qs : List (List α × List α)) : Prop :=
  ∀ q ∈ qs, Delimited k d q.1 ∧ d ∉ q.2

omit [DecidableEq α] in
theorem weave_run {qs : List (List α × List α)} (runs : Runs k d qs) (h : Delimited k d t)
    (s : List α) :
    ∃ c u, c ≠ d ∧ weave qs ++ (t ++ s) = List.replicate k d ++ c :: u := by
  have front : ∀ {m : List α}, Delimited k d m → ∀ s,
      ∃ c u, c ≠ d ∧ m ++ s = List.replicate k d ++ c :: u := by
    rintro m ⟨core, some_core, plain, rfl⟩ s
    obtain ⟨a, core, rfl⟩ := List.exists_cons_of_ne_nil some_core
    exact ⟨a, core ++ (List.replicate k d ++ s), fun same => plain (by simp [same]), by simp⟩
  cases qs with
  | nil => exact front h s
  | cons q qs =>
    obtain ⟨c, u, other, eq⟩ := front (runs q List.mem_cons_self).1 (q.2 ++ weave qs ++ (t ++ s))
    exact ⟨c, u, other, by rw [← eq]; simp [weave]⟩

/-- Only the pieces that touch are parted. -/
theorem parted_weave (nl : α) {qs : List (List α × List α)} (some_run : 0 < k) (runs : Runs k d qs)
    (h : Delimited k d t) (other : c ≠ d) (plain : d ∉ s) :
    parted k d nl (weave qs ++ (t ++ c :: s)) = weave (qs.map (fill nl)) ++ (t ++ c :: s) := by
  induction qs with
  | nil =>
    have rest : parted k d nl ((c :: s) ++ []) = c :: s := by
      rw [parted_plain nl some_run (by simp [plain, Ne.symm other])]
      simp [parted, replaceAll, replaceFrom]
    rw [List.append_nil] at rest
    exact (parted_delimited nl some_run h other s).trans (by rw [rest]; rfl)
  | cons q qs ih =>
    obtain ⟨piece, sep⟩ := q
    obtain ⟨delimited, clear⟩ := runs _ List.mem_cons_self
    have runs' : Runs k d qs := fun q mem => runs q (List.mem_cons_of_mem _ mem)
    obtain ⟨c', u, other', next⟩ := weave_run runs' h (c :: s)
    have shape : weave ((piece, sep) :: qs) ++ (t ++ c :: s) =
        piece ++ (sep ++ (weave qs ++ (t ++ c :: s))) := by simp [weave]
    rw [shape]
    cases sep with
    | nil =>
      rw [List.nil_append, next, parted_touching nl some_run delimited other', ← next, ih runs']
      simp [weave, fill]
    | cons a sep =>
      have first : a ≠ d := fun same => clear (by simp [same])
      rw [List.cons_append, parted_delimited nl some_run delimited first, ← List.cons_append,
        parted_plain nl some_run clear, ih runs']
      simp [weave, fill]

end

end MarkedText
