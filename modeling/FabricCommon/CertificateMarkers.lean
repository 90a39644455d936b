import FabricCommon.CertificateText
import FabricCommon.PanicRun

namespace RegExp

variable {α : Type*} {r : Pattern α} {s : List α} {m : Match α}

/-- A search takes the first match at the first place where there is one. -/
theorem first_of_search (h : r.search s = some m) :
    ∃ pre suf, s = pre ++ suf ∧ (r.results suf).head? = some m ∧
      ∀ pre' suf', s = pre' ++ suf' → r.results suf' ≠ [] → pre.length ≤ pre'.length := by
  induction s with
  | nil => exact ⟨[], [], rfl, h, fun _ _ _ _ => Nat.zero_le _⟩
  | cons c s ih =>
    rw [Pattern.search, Option.or_eq_some_iff] at h
    rcases h with here | ⟨missed, later⟩
    · exact ⟨[], c :: s, rfl, here, fun _ _ _ _ => Nat.zero_le _⟩
    · obtain ⟨pre, suf, rfl, taken, first⟩ := ih later
      refine ⟨c :: pre, suf, rfl, taken, ?_⟩
      intro pre' suf' eq some_match
      cases pre' with
      | nil =>
        rw [List.nil_append] at eq
        rw [← eq] at some_match
        exact absurd (List.head?_eq_none_iff.mp missed) some_match
      | cons c' pre' =>
        exact Nat.succ_le_succ (first pre' suf' (List.cons.inj eq).2 some_match)

/-- There is a last place where a pattern matches. -/
theorem exists_last_match {t u : List α} (found : r.results u ≠ []) :
    ∃ t' u', t ++ u = t' ++ u' ∧ r.results u' ≠ [] ∧
      ∀ pre suf, pre ≠ [] → pre ++ suf = u' → r.results suf = [] := by
  induction size : u.length using Nat.strong_induction_on generalizing t u with
  | _ n ih =>
    by_cases later : ∃ pre suf, pre ≠ [] ∧ pre ++ suf = u ∧ r.results suf ≠ []
    · obtain ⟨pre, suf, some_pre, rfl, found'⟩ := later
      have shorter : suf.length < n := by
        have := List.length_pos_of_ne_nil some_pre
        rw [List.length_append] at size
        omega
      obtain ⟨t', u', whole, rest⟩ := ih _ shorter (t := t ++ pre) found' rfl
      exact ⟨t', u', by rw [← whole, List.append_assoc], rest⟩
    · refine ⟨t, u, rfl, found, ?_⟩
      intro pre suf some_pre whole
      by_contra found'
      exact later ⟨pre, suf, some_pre, whole, found'⟩

theorem search_isSome {pre suf : List α} (mem : m ∈ r.results suf) :
    (r.search (pre ++ suf)).isSome = true := by
  induction pre with
  | nil =>
    cases first : (r.results suf).head? with
    | none =>
      rw [List.head?_eq_none_iff] at first
      rw [first] at mem
      cases mem
    | some m' => rw [List.nil_append, search_eq first, Option.isSome_some]
  | cons c pre ih => rw [List.cons_append, Pattern.search, Option.isSome_or, ih, Bool.or_true]

end RegExp

namespace MarkedText

variable {α : Type*} [DecidableEq α] {pattern sub t s : List α} {c : α}

/-- A replacement does not reach over an element that the pattern does not have. -/
theorem replaceFrom_append (apart : c ∉ pattern) {skip : Nat} (inside : skip ≤ t.length) :
    replaceFrom pattern sub skip (t ++ c :: s) =
      replaceFrom pattern sub skip t ++ replaceAll pattern sub (c :: s) := by
  induction t generalizing skip with
  | nil =>
    obtain rfl : skip = 0 := Nat.le_zero.mp inside
    rfl
  | cons a t ih =>
    cases skip with
    | succ skip => exact ih (Nat.le_of_succ_le_succ inside)
    | zero =>
      by_cases here : pattern <+: a :: t
      · have longer : pattern <+: a :: (t ++ c :: s) := here.trans ⟨c :: s, rfl⟩
        have length := here.length_le
        rw [List.length_cons] at length
        rw [List.cons_append, replaceFrom, replaceFrom, if_pos (by simpa using longer),
          if_pos (by simpa using here), ih (by omega), List.append_assoc]
      · have shorter : ¬ pattern <+: a :: (t ++ c :: s) := by
          intro longer
          rcases Nat.le_total pattern.length (a :: t).length with le | le
          · exact here (List.prefix_of_prefix_length_le longer ⟨c :: s, rfl⟩ le)
          · have reach : a :: t <+: pattern :=
              List.prefix_of_prefix_length_le ⟨c :: s, rfl⟩ longer le
            obtain ⟨rest, rfl⟩ := reach
            rw [← List.cons_append, List.prefix_append_right_inj] at longer
            cases rest with
            | nil => exact here (by simp)
            | cons d rest =>
              obtain ⟨more, eq⟩ := longer
              obtain ⟨rfl, _⟩ := List.cons.inj eq
              exact apart (by simp)
        rw [List.cons_append, replaceFrom, replaceFrom, if_neg (by simpa using shorter),
          if_neg (by simpa using here), ih (Nat.zero_le _), List.cons_append]

end MarkedText

namespace FabricCommon

open MarkedText PanicRun RegExp RegExp.Pattern

/-- What `markerPattern` matches. -/
def IsMarker (word t : Text) : Prop :=
  ∃ spaces label, (∀ c ∈ spaces, jsSpace c = true) ∧ label ≠ [] ∧ '-' ∉ label ∧
    t = dashes ++ (spaces ++ (word ++ (label ++ dashes)))

/-- A text in five parts, the second and the fourth of which are the markers. -/
structure CertificateParts where
  lead : Text
  begins : Text
  body : Text
  ends : Text
  trail : Text

/-- Each marker on a line of its own, the text between them trimmed and its runs parted. -/
def CertificateParts.normal (parts : CertificateParts) : Text :=
  parts.begins ++ '\n' :: (partRuns (trim parts.body) ++ '\n' :: (parts.ends ++ ['\n']))

/-- The text is made of the parts, and the markers among them are markers. -/
structure Marked (raw : Text) (parts : CertificateParts) : Prop where
  isBegin : IsMarker beginWord parts.begins
  isEnd : IsMarker endWord parts.ends
  whole : raw = parts.lead ++ (parts.begins ++ (parts.body ++ (parts.ends ++ parts.trail)))

/-- The earliest marker of a beginning that has one of an end after it, and the latest of those. -/
structure Outermost (raw : Text) (parts : CertificateParts) : Prop extends Marked raw parts where
  first : ∀ other, Marked raw other → parts.lead.length ≤ other.lead.length
  last : ∀ other, Marked raw other → other.lead.length = parts.lead.length →
    other.body.length ≤ parts.body.length

section

variable {word s t raw : Text} {m : Match Char}

theorem mem_results_isMarker :
    m ∈ (markerPattern word).results s ↔
      ∃ marker rest, IsMarker word marker ∧ s = marker ++ rest ∧ m = ⟨marker, rest, [marker]⟩ := by
  rw [mem_results_markerPattern]
  constructor
  · rintro ⟨spaces, label, rest, blank, some_label, clear, rfl, rfl⟩
    exact ⟨_, rest, ⟨spaces, label, blank, some_label, clear, rfl⟩, by simp, rfl⟩
  · rintro ⟨_, rest, ⟨spaces, label, blank, some_label, clear, rfl⟩, rfl, rfl⟩
    exact ⟨spaces, label, rest, blank, some_label, clear, by simp, rfl⟩

theorem results_marked {marker : Text} (isMarker : IsMarker word marker) (rest : Text) :
    (markerPattern word).results (marker ++ rest) ≠ [] :=
  List.ne_nil_of_mem (mem_results_isMarker.mpr ⟨marker, rest, isMarker, rfl, rfl⟩)

theorem spaces_cut {spaces spaces' w w' : Text} {c : Char} (solid : jsSpace c = false)
    (blank : ∀ a ∈ spaces, jsSpace a = true) (blank' : ∀ a ∈ spaces', jsSpace a = true)
    (h : spaces ++ c :: w = spaces' ++ c :: w') : spaces = spaces' ∧ w = w' := by
  induction spaces generalizing spaces' with
  | nil =>
    cases spaces' with
    | nil => exact ⟨rfl, (List.cons.inj h).2⟩
    | cons a spaces' =>
      have first : c = a := (List.cons.inj h).1
      rw [first] at solid
      exact absurd (blank' a List.mem_cons_self) (by simp [solid])
  | cons a spaces ih =>
    cases spaces' with
    | nil =>
      have first : a = c := (List.cons.inj h).1
      rw [← first] at solid
      exact absurd (blank a List.mem_cons_self) (by simp [solid])
    | cons a' spaces' =>
      obtain ⟨first, more⟩ := List.cons.inj h
      obtain ⟨same, rest⟩ := ih (fun d mem => blank d (List.mem_cons_of_mem _ mem))
        (fun d mem => blank' d (List.mem_cons_of_mem _ mem)) more
      exact ⟨by rw [first, same], rest⟩

/-- A text begins with one marker at most. -/
theorem isMarker_cut (hw : MarkerWord word) {t' s' : Text} (h : IsMarker word t)
    (h' : IsMarker word t') (eq : t ++ s = t' ++ s') : t = t' ∧ s = s' := by
  obtain ⟨spaces, label, blank, _, clear, rfl⟩ := h
  obtain ⟨spaces', label', blank', _, clear', rfl⟩ := h'
  obtain ⟨c, w, rfl, solid⟩ := hw.first
  simp only [List.append_assoc, List.cons_append, List.append_cancel_left_eq] at eq
  obtain ⟨rfl, rest⟩ := spaces_cut solid blank blank' eq
  rw [List.append_cancel_left_eq] at rest
  obtain ⟨rfl, rfl⟩ := label_cut clear clear' rest
  exact ⟨rfl, rfl⟩

theorem head?_results_marker (hw : MarkerWord word) {marker : Text}
    (isMarker : IsMarker word marker) (rest : Text) :
    ∀ m ∈ (markerPattern word).results (marker ++ rest), m = ⟨marker, rest, [marker]⟩ := by
  intro m mem
  obtain ⟨marker', rest', isMarker', eq, rfl⟩ := mem_results_isMarker.mp mem
  obtain ⟨rfl, rfl⟩ := isMarker_cut hw isMarker isMarker' eq
  rfl

/-- Between the markers the pattern takes all it can. -/
theorem head?_results_certificatePattern {b : Text} (isBegin : IsMarker beginWord b)
    (h : (certificatePattern.results (b ++ s)).head? = some m) :
    ∃ body e trail, IsMarker endWord e ∧ s = body ++ (e ++ trail) ∧ m.groups = [b, body, e] ∧
      ∀ pre suf, pre ≠ [] → pre ++ suf = e ++ trail → (markerPattern endWord).results suf = [] := by
  have begun : (certificatePattern.results (b ++ s)).head? = _ :=
    head?_results_seq (results_marked isBegin s) (head?_results_marker markerWord_begin isBegin s)
  rw [begun, Option.map_eq_some_iff] at h
  obtain ⟨m', taken, rfl⟩ := h
  obtain ⟨m₃, middle, m₄, ended, _⟩ := mem_results_seq.mp (List.mem_of_head? taken)
  obtain ⟨m₅, cut, rfl⟩ := mem_results_group.mp middle
  obtain ⟨whole, _, _⟩ := mem_results_many.mp cut
  obtain ⟨body, after, parts, found, last⟩ :=
    exists_last_match (t := m₅.taken) (List.ne_nil_of_mem ended)
  obtain ⟨m₆, mem⟩ := List.exists_mem_of_ne_nil _ found
  obtain ⟨e, trail, isEnd, rfl, _⟩ := mem_results_isMarker.mp mem
  have split : s = body ++ (e ++ trail) := whole.symm.trans parts
  have greedy := head?_results_many_seq (t := body) last found
  rw [← split] at greedy
  rw [greedy, Option.map_eq_some_iff] at taken
  obtain ⟨m₇, final, rfl⟩ := taken
  have only := head?_results_marker markerWord_end isEnd trail m₇ (List.mem_of_head? final)
  exact ⟨body, e, trail, isEnd, split, by simp [Match.append, only], last⟩

theorem results_certificatePattern {b e : Text} (isBegin : IsMarker beginWord b)
    (isEnd : IsMarker endWord e) (body trail : Text) :
    ∃ m, m ∈ certificatePattern.results (b ++ (body ++ (e ++ trail))) := by
  refine ⟨_, mem_results_seq.mpr ⟨_, mem_results_isMarker.mpr ⟨b, _, isBegin, rfl, rfl⟩, _,
    mem_results_seq.mpr ⟨_, mem_results_group.mpr ⟨⟨body, e ++ trail, []⟩,
      mem_results_many.mpr ⟨rfl, fun _ _ => rfl, rfl⟩, rfl⟩, _,
      mem_results_isMarker.mpr ⟨e, trail, isEnd, rfl, rfl⟩, rfl⟩, rfl⟩⟩

theorem trim_isMarker (isMarker : IsMarker word t) : trim t = t := by
  obtain ⟨spaces, label, _, _, _, rfl⟩ := isMarker
  have front : ∀ u : Text, (dashes ++ u).dropWhile jsSpace = dashes ++ u :=
    fun u => List.dropWhile_cons_of_neg (by decide)
  rw [trim, front, List.rdropWhile_eq_self_iff]
  intro solid
  have last : (dashes ++ (spaces ++ (word ++ (label ++ dashes)))).getLast solid = '-' := by
    simp [dashes]
  rw [last]
  decide

theorem parted_append {nl c : Char} (other : c ≠ '-') (t s : Text) :
    parted 5 '-' nl (t ++ c :: s) = parted 5 '-' nl t ++ parted 5 '-' nl (c :: s) :=
  replaceFrom_append (fun mem => other (List.eq_of_mem_replicate mem)) (Nat.zero_le _)

theorem delimited_isMarker (clear : '-' ∉ word) (isMarker : IsMarker word t) :
    Delimited 5 '-' t := by
  obtain ⟨spaces, label, blank, some_label, noDash, rfl⟩ := isMarker
  have solid : '-' ∉ spaces := fun mem => absurd (blank _ mem) (by decide)
  exact ⟨spaces ++ (word ++ label), by simp [some_label], by simp [solid, clear, noDash],
    by simp [dashes, List.replicate]⟩

theorem parted_newline (s : Text) : parted 5 '-' '\n' ('\n' :: s) = '\n' :: parted 5 '-' '\n' s :=
  parted_plain (t := ['\n']) '\n' (by decide) (by decide) s

/-- The markers stay, and runs are parted in the text between them. -/
theorem partRuns_framed {b body e : Text} (isBegin : IsMarker beginWord b)
    (isEnd : IsMarker endWord e) :
    partRuns (b ++ '\n' :: (body ++ '\n' :: (e ++ ['\n']))) =
      b ++ '\n' :: (partRuns body ++ '\n' :: (e ++ ['\n'])) := by
  have first := delimited_isMarker markerWord_begin.noDash isBegin
  have last := delimited_isMarker markerWord_end.noDash isEnd
  rw [partRuns_eq, parted_delimited '\n' (by decide) first (by decide), parted_newline,
    parted_append (by decide), parted_newline, parted_delimited '\n' (by decide) last (by decide)]
  rfl

theorem search_marked {parts : CertificateParts} (h : Marked raw parts) :
    (certificatePattern.search raw).isSome = true := by
  obtain ⟨m, mem⟩ := results_certificatePattern h.isBegin h.isEnd parts.body parts.trail
  rw [h.whole]
  exact search_isSome mem

theorem outermost_of_search (h : certificatePattern.search raw = some m) :
    ∃ parts, Outermost raw parts ∧ m.groups = [parts.begins, parts.body, parts.ends] := by
  obtain ⟨lead, suf, rfl, taken, first⟩ := first_of_search h
  obtain ⟨_, begun, _⟩ := mem_results_seq.mp (List.mem_of_head? taken)
  obtain ⟨b, s, isBegin, rfl, _⟩ := mem_results_isMarker.mp begun
  obtain ⟨body, e, trail, isEnd, rfl, groups, last⟩ :=
    head?_results_certificatePattern isBegin taken
  refine ⟨⟨lead, b, body, e, trail⟩, ⟨⟨isBegin, isEnd, rfl⟩, ?_, ?_⟩, groups⟩
  · intro other marked
    obtain ⟨m', mem'⟩ :=
      results_certificatePattern marked.isBegin marked.isEnd other.body other.trail
    exact first _ _ marked.whole (List.ne_nil_of_mem mem')
  · intro other marked same
    obtain ⟨_, begun'⟩ := List.append_inj marked.whole same.symm
    obtain ⟨_, rest⟩ := isMarker_cut markerWord_begin isBegin marked.isBegin begun'
    by_contra longer
    have shorter : body <+: other.body := List.prefix_of_prefix_length_le
      ⟨_, rest⟩ (List.prefix_append _ _) (Nat.le_of_lt (Nat.lt_of_not_le longer))
    obtain ⟨pre, whole⟩ := shorter
    rw [← whole, List.append_assoc, List.append_cancel_left_eq] at rest
    have some_pre : pre ≠ [] := by
      rintro rfl
      exact longer (by simp [← whole])
    exact results_marked marked.isEnd other.trail (last pre _ some_pre rest.symm)

theorem Outermost.unique {parts parts' : CertificateParts} (h : Outermost raw parts)
    (h' : Outermost raw parts') : parts = parts' := by
  have leads : parts.lead.length = parts'.lead.length :=
    Nat.le_antisymm (h.first parts' h'.toMarked) (h'.first parts h.toMarked)
  have bodies : parts.body.length = parts'.body.length :=
    Nat.le_antisymm (h'.last parts h.toMarked leads) (h.last parts' h'.toMarked leads.symm)
  obtain ⟨lead, begun⟩ := List.append_inj (h.whole.symm.trans h'.whole) leads
  obtain ⟨begins, rest⟩ := isMarker_cut markerWord_begin h.isBegin h'.isBegin begun
  obtain ⟨body, ended⟩ := List.append_inj rest bodies
  obtain ⟨ends, trail⟩ := isMarker_cut markerWord_end h.isEnd h'.isEnd ended
  obtain ⟨_, _, _, _, _⟩ := parts
  obtain ⟨_, _, _, _, _⟩ := parts'
  cases lead
  cases begins
  cases body
  cases ends
  cases trail
  rfl

theorem normalizeX509_of_search {parts : CertificateParts} (marked : Marked raw parts)
    (found : certificatePattern.search raw = some m)
    (groups : m.groups = [parts.begins, parts.body, parts.ends]) :
    normalizeX509 raw = .ok parts.normal := by
  rw [CertificateParts.normal, ← partRuns_framed marked.isBegin marked.isEnd]
  simp only [normalizeX509, found, groups, List.length_cons, List.length_nil, ne_eq,
    not_true_eq_false, if_false, List.map_cons, List.map_nil, trim_isMarker marked.isBegin,
    trim_isMarker marked.isEnd, List.intercalate_cons_cons, List.intercalate_singleton,
    List.append_assoc, List.nil_append, List.cons_append]

theorem exists_outermost {parts : CertificateParts} (h : Marked raw parts) :
    ∃ taken, Outermost raw taken ∧ normalizeX509 raw = .ok taken.normal := by
  obtain ⟨m, found⟩ := Option.isSome_iff_exists.mp (search_marked h)
  obtain ⟨taken, outermost, groups⟩ := outermost_of_search found
  exact ⟨taken, outermost, normalizeX509_of_search outermost.toMarked found groups⟩

theorem normalizeX509_eq_ok {text : Text} :
    normalizeX509 raw = .ok text ↔ ∃ parts, Outermost raw parts ∧ text = parts.normal := by
  constructor
  · intro ok
    cases found : certificatePattern.search raw with
    | none =>
      simp only [normalizeX509, found] at ok
      cases ok
    | some m =>
      obtain ⟨parts, outermost, groups⟩ := outermost_of_search found
      rw [normalizeX509_of_search outermost.toMarked found groups] at ok
      exact ⟨parts, outermost, (Except.ok.inj ok).symm⟩
  · rintro ⟨parts, outermost, rfl⟩
    obtain ⟨taken, outermost', ok⟩ := exists_outermost outermost.toMarked
    rw [outermost.unique outermost', ok]

theorem returns_normalizeX509 : Returns (normalizeX509 raw) ↔ ∃ parts, Marked raw parts := by
  constructor
  · rintro ⟨text, ok⟩
    obtain ⟨parts, outermost, _⟩ := normalizeX509_eq_ok.mp ok
    exact ⟨parts, outermost.toMarked⟩
  · rintro ⟨parts, marked⟩
    obtain ⟨taken, _, ok⟩ := exists_outermost marked
    exact ⟨_, ok⟩

/-- What was normalised is marked again, with nothing before the first marker. -/
theorem CertificateParts.marked_normal {parts : CertificateParts} (h : Marked raw parts) :
    Marked parts.normal
      ⟨[], parts.begins, '\n' :: (partRuns (trim parts.body) ++ ['\n']), parts.ends, ['\n']⟩ where
  isBegin := h.isBegin
  isEnd := h.isEnd
  whole := by simp [normal]

theorem mem_findCertFiles {files : List DirFile} {file : DirFile} :
    file ∈ findCertFiles files ↔
      file ∈ files ∧ ∃ pem, file.2 = some pem ∧ Returns (normalizeX509 pem) := by
  obtain ⟨name, read⟩ := file
  rw [findCertFiles, List.mem_filter]
  refine and_congr_right fun _ => ?_
  cases read with
  | none => simp
  | some pem => cases done : normalizeX509 pem <;> simp [Returns, done]

end

/-- The files listed are those with a marker of a beginning before one of an end, in their order.
Such a text, and no other, is normalised from its outermost markers, and what comes out can be
normalised again. -/
theorem findCertFiles_lists_marked (files : List DirFile) :
    (findCertFiles files).Sublist files ∧
    (∀ file, file ∈ findCertFiles files ↔
      file ∈ files ∧ ∃ pem parts, file.2 = some pem ∧ Marked pem parts) ∧
    (∀ raw, Returns (normalizeX509 raw) ↔ ∃ parts, Marked raw parts) ∧
    (∀ raw text, normalizeX509 raw = .ok text ↔
      ∃ parts, Outermost raw parts ∧ text = parts.normal) ∧
    ∀ raw parts, Outermost raw parts → Returns (normalizeX509 parts.normal) := by
  refine ⟨List.filter_sublist, ?_, fun raw => returns_normalizeX509,
    fun raw text => normalizeX509_eq_ok, ?_⟩
  · intro file
    simp only [mem_findCertFiles, returns_normalizeX509, exists_and_left]
  · intro raw parts outermost
    rw [returns_normalizeX509]
    exact ⟨_, CertificateParts.marked_normal outermost.toMarked⟩

end FabricCommon
