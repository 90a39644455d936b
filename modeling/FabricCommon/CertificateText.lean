import FabricCommon.GatePolicy
import FabricCommon.MarkedText
import FabricCommon.RegExp

namespace FabricCommon

open MarkedText RegExp RegExp.Pattern

/-- The five characters around a marker. -/
def dashes : Text := ['-', '-', '-', '-', '-']

def beginWord : Text := ['B', 'E', 'G', 'I', 'N']

def endWord : Text := ['E', 'N', 'D']

/-- `(-----\s*WORD ?[^-]+?-----)`. -/
def markerPattern (word : Text) : Pattern Char :=
  group (seq (literal dashes) (seq (many jsSpace) (seq (literal word)
    (seq (opt (one fun c => c == ' ')) (seq (fewest fun c => c != '-') (literal dashes))))))

/-- `/(-----\s*BEGIN ?[^-]+?-----)([\s\S]*)(-----\s*END ?[^-]+?-----)/`. -/
def certificatePattern : Pattern Char :=
  seq (markerPattern beginWord) (seq (group (many fun _ => true)) (markerPattern endWord))

/-- The replacement of `/----------/g` by two runs with a line feed in between. -/
def partRuns (t : Text) : Text := replaceAll (dashes ++ dashes) (dashes ++ '\n' :: dashes) t

def normalizeX509 (raw : Text) : Except JsError Text :=
  match certificatePattern.search raw with
  | none => .error (.Error "Failed to find start line or end line of the certificate.")
  | some matches' =>
    if matches'.groups.length + 1 ≠ 4 then
      .error (.Error "Failed to find start line or end line of the certificate.")
    else .ok (partRuns (['\n'].intercalate (matches'.groups.map trim) ++ ['\n']))

/-- A file of a directory by its name, with what it holds if it can be read. -/
abbrev DirFile := String × Option Text

def findCertFiles (files : List DirFile) : List DirFile :=
  files.filter fun file =>
    match file.2 with
    | none => false
    | some pem =>
      match normalizeX509 pem with
      | .ok _ => true
      | .error _ => false

/-- The characters that a line ends with. -/
def lineBreak (c : Char) : Bool := c == '\n' || c == '\r'

/-- What stands after `BEGIN` or `END` in a marker. -/
structure Label where
  text : Text
  some_text : text ≠ []
  noDash : '-' ∉ text
  oneLine : ∀ c ∈ text, lineBreak c = false

def marker (word : Text) (label : Label) : Text := dashes ++ (word ++ (label.text ++ dashes))

section

variable {word s : Text} {m : Match Char}

/-- The optional space is one more character that the label may begin with. -/
theorem mem_results_label :
    m ∈ (seq (opt (one fun c => c == ' '))
        (seq (fewest fun c => c != '-') (literal dashes))).results s ↔
      ∃ label rest, label ≠ [] ∧ '-' ∉ label ∧ s = label ++ (dashes ++ rest) ∧
        m = ⟨label ++ dashes, rest, []⟩ := by
  have plain : ∀ {t : Text}, (∀ c ∈ t, (c != '-') = true) ↔ '-' ∉ t := by
    intro t
    simp only [bne_iff_ne, ne_eq]
    exact ⟨fun all mem => all '-' mem rfl, fun clear c mem same => clear (same ▸ mem)⟩
  have short : ∀ {m : Match Char} {s : Text},
      m ∈ (seq (fewest fun c => c != '-') (literal dashes)).results s ↔
        ∃ label rest, label ≠ [] ∧ '-' ∉ label ∧ s = label ++ (dashes ++ rest) ∧
          m = ⟨label ++ dashes, rest, []⟩ := by
    intro m s
    simp only [mem_results_fewest_seq, mem_results_literal, plain]
    constructor
    · rintro ⟨label, _, rfl, some_label, clear, ⟨_, rest, _⟩, ⟨rfl, rfl, rfl⟩, rfl⟩
      exact ⟨label, rest, some_label, clear, rfl, rfl⟩
    · rintro ⟨label, rest, some_label, clear, rfl, rfl⟩
      exact ⟨label, _, rfl, some_label, clear, ⟨dashes, rest, []⟩, ⟨rfl, rfl, rfl⟩, rfl⟩
  simp only [mem_results_opt_one_seq, short]
  constructor
  · rintro (⟨c, _, rfl, space, _, ⟨label, rest, _, clear, rfl, rfl⟩, rfl⟩ | found)
    · have other : c ≠ '-' := by
        rintro rfl
        exact absurd space (by decide)
      exact ⟨c :: label, rest, by simp, by simp [clear, Ne.symm other], rfl, rfl⟩
    · exact found
  · exact Or.inr

/-- The ways in which a marker can match. -/
theorem mem_results_markerPattern :
    m ∈ (markerPattern word).results s ↔
      ∃ spaces label rest, (∀ c ∈ spaces, jsSpace c = true) ∧ label ≠ [] ∧ '-' ∉ label ∧
        s = dashes ++ (spaces ++ (word ++ (label ++ (dashes ++ rest)))) ∧
        m = ⟨dashes ++ (spaces ++ (word ++ (label ++ dashes))), rest,
          [dashes ++ (spaces ++ (word ++ (label ++ dashes)))]⟩ := by
  simp only [markerPattern, mem_results_group, mem_results_literal_seq, mem_results_many_seq,
    mem_results_label]
  constructor
  · rintro ⟨_, ⟨_, rfl, _, ⟨spaces, _, rfl, blank, _, ⟨_, rfl, _,
      ⟨label, rest, some_label, clear, rfl, rfl⟩, rfl⟩, rfl⟩, rfl⟩, rfl⟩
    exact ⟨spaces, label, rest, blank, some_label, clear, rfl, rfl⟩
  · rintro ⟨spaces, label, rest, blank, some_label, clear, rfl, rfl⟩
    exact ⟨_, ⟨_, rfl, _, ⟨spaces, _, rfl, blank, _, ⟨_, rfl, _,
      ⟨label, rest, some_label, clear, rfl, rfl⟩, rfl⟩, rfl⟩, rfl⟩, rfl⟩

theorem label_cut {label label' rest rest' : Text} (clear : '-' ∉ label) (clear' : '-' ∉ label')
    (h : label ++ (dashes ++ rest) = label' ++ (dashes ++ rest')) :
    label = label' ∧ rest = rest' := by
  induction label generalizing label' with
  | nil =>
    cases label' with
    | nil => exact ⟨rfl, by simpa using h⟩
    | cons c label' =>
      have first : '-' = c := (List.cons.inj h).1
      exact absurd (by rw [first]; exact List.mem_cons_self) clear'
  | cons c label ih =>
    cases label' with
    | nil =>
      have first : c = '-' := (List.cons.inj h).1
      exact absurd (by simp [first]) clear
    | cons c' label' =>
      obtain ⟨first, more⟩ := List.cons.inj h
      have later := ih (fun mem => clear (List.mem_cons_of_mem _ mem))
        (fun mem => clear' (List.mem_cons_of_mem _ mem)) more
      exact ⟨by rw [first, later.1], later.2⟩

/-- A word of a marker has no dash and no line break and does not begin with space. -/
structure MarkerWord (word : Text) : Prop where
  first : ∃ c w, word = c :: w ∧ jsSpace c = false
  noDash : '-' ∉ word
  oneLine : ∀ c ∈ word, lineBreak c = false

theorem markerWord_begin : MarkerWord beginWord :=
  ⟨⟨_, _, rfl, by decide⟩, by decide, by simp [beginWord, lineBreak]⟩

theorem markerWord_end : MarkerWord endWord :=
  ⟨⟨_, _, rfl, by decide⟩, by decide, by simp [endWord, lineBreak]⟩

theorem marker_oneLine (hw : MarkerWord word) (l : Label) :
    ∀ c ∈ marker word l, lineBreak c = false := by
  have around : ∀ c ∈ dashes, lineBreak c = false := by simp [dashes, lineBreak]
  simp only [marker, List.forall_mem_append]
  exact ⟨around, hw.oneLine, l.oneLine, around⟩

/-- At a marker its pattern takes the marker, in one way or in two. -/
theorem mem_results_marker (hw : MarkerWord word) (l : Label) (rest : Text) :
    m ∈ (markerPattern word).results (marker word l ++ rest) ↔
      m = ⟨marker word l, rest, [marker word l]⟩ := by
  rw [mem_results_markerPattern]
  constructor
  · rintro ⟨spaces, label, rest', blank, _, clear, eq, rfl⟩
    rw [marker, List.append_assoc, List.append_cancel_left_eq] at eq
    cases spaces with
    | nil =>
      rw [List.nil_append, List.append_assoc, List.append_cancel_left_eq, List.append_assoc] at eq
      obtain ⟨rfl, rfl⟩ := label_cut l.noDash clear eq
      rfl
    | cons a spaces =>
      obtain ⟨c, w, rfl, solid⟩ := hw.first
      have first : c = a := (List.cons.inj eq).1
      rw [first] at solid
      exact absurd (blank a List.mem_cons_self) (by simp [solid])
  · rintro rfl
    exact ⟨[], l.text, rest, by simp, l.some_text, l.noDash, by simp [marker], rfl⟩

theorem results_marker_ne_nil (hw : MarkerWord word) (l : Label) (rest : Text) :
    (markerPattern word).results (marker word l ++ rest) ≠ [] :=
  List.ne_nil_of_mem ((mem_results_marker hw l rest).mpr rfl)

theorem count_marker (hw : MarkerWord word) (l : Label) : (marker word l).count '-' = 10 := by
  have five : List.count '-' dashes = 5 := by decide
  rw [marker, List.count_append, List.count_append, List.count_append, five,
    List.count_eq_zero.mpr hw.noDash, List.count_eq_zero.mpr l.noDash]

/-- Behind the beginning of a marker there are fewer dashes than another match would need. -/
theorem results_after_marker {pre suf trail : Text} (hw : MarkerWord word) (l : Label)
    (clear : '-' ∉ trail) (some_pre : pre ≠ []) (h : pre ++ suf = marker word l ++ trail) :
    (markerPattern word).results suf = [] := by
  rw [List.eq_nil_iff_forall_not_mem]
  intro m mem
  obtain ⟨spaces, label, rest, _, _, _, rfl, _⟩ := mem_results_markerPattern.mp mem
  obtain ⟨a, pre, rfl⟩ := List.exists_cons_of_ne_nil some_pre
  have first : a = '-' := (List.cons.inj h).1
  have number := congrArg (List.count '-') h
  have five : List.count '-' dashes = 5 := by decide
  simp only [List.count_append, count_marker hw, List.count_eq_zero.mpr clear, first,
    List.count_cons_self, five] at number
  omega

/-- A match starts with a dash. -/
theorem results_of_noDash {t : Text} (clear : '-' ∉ t) :
    ∀ c ∈ t, ∀ s, certificatePattern.results (c :: s) = [] := by
  intro c mem s
  rw [List.eq_nil_iff_forall_not_mem]
  intro m found
  obtain ⟨m₁, first, _⟩ := mem_results_seq.mp found
  obtain ⟨_, _, _, _, _, _, eq, _⟩ := mem_results_markerPattern.mp first
  have dash : c = '-' := (List.cons.inj eq).1
  exact clear (dash ▸ mem)

theorem normalizeX509_noDash {raw : Text} (clear : '-' ∉ raw) :
    normalizeX509 raw =
      .error (.Error "Failed to find start line or end line of the certificate.") := by
  have missed : certificatePattern.search (raw ++ []) = none :=
    (search_append (results_of_noDash clear)).trans rfl
  rw [List.append_nil] at missed
  simp only [normalizeX509, missed]

/-- Whatever stands between the first marker and the last one is the second group. -/
theorem search_certificatePattern {lead trail : Text} (b e : Label) (mid : Text)
    (clear : '-' ∉ lead) (clear' : '-' ∉ trail) :
    ∃ m, certificatePattern.search
        (lead ++ (marker beginWord b ++ (mid ++ (marker endWord e ++ trail)))) = some m ∧
      m.groups = [marker beginWord b, mid, marker endWord e] := by
  have last : ∀ pre suf, pre ≠ [] → pre ++ suf = marker endWord e ++ trail →
      (markerPattern endWord).results suf = [] :=
    fun pre suf some_pre h => results_after_marker markerWord_end e clear' some_pre h
  obtain ⟨final, others, eq⟩ :=
    List.exists_cons_of_ne_nil (results_marker_ne_nil markerWord_end e trail)
  have final_eq : final = ⟨marker endWord e, trail, [marker endWord e]⟩ :=
    (mem_results_marker markerWord_end e trail).mp (by rw [eq]; exact List.mem_cons_self)
  have between := head?_results_many_seq (t := mid) last
    (results_marker_ne_nil markerWord_end e trail)
  have whole : (certificatePattern.results
      (marker beginWord b ++ (mid ++ (marker endWord e ++ trail)))).head? = _ := head?_results_seq
    (results_marker_ne_nil markerWord_begin b (mid ++ (marker endWord e ++ trail)))
    fun m' mem => (mem_results_marker markerWord_begin b _).mp mem
  rw [between, eq, List.head?_cons, final_eq, Option.map_some, Option.map_some] at whole
  exact ⟨_, (search_append (results_of_noDash clear)).trans (search_eq whole), rfl⟩

theorem partRuns_eq : partRuns = parted 5 '-' '\n' := rfl

theorem trim_marker (word : Text) (l : Label) : trim (marker word l) = marker word l := by
  have front : (marker word l).dropWhile jsSpace = marker word l :=
    List.dropWhile_cons_of_neg (by decide)
  rw [trim, front, List.rdropWhile_eq_self_iff]
  intro solid
  have last : (marker word l).getLast solid = '-' := by
    simp [marker, dashes]
  rw [last]
  decide

/-- The text between two markers is trimmed, and runs that touch are parted. -/
theorem normalizeX509_framed {lead trail : Text} (b e : Label) (mid : Text)
    (clear : '-' ∉ lead) (clear' : '-' ∉ trail) :
    normalizeX509 (lead ++ (marker beginWord b ++ (mid ++ (marker endWord e ++ trail)))) =
      .ok (parted 5 '-' '\n'
        (marker beginWord b ++ '\n' :: (trim mid ++ '\n' :: (marker endWord e ++ ['\n'])))) := by
  obtain ⟨m, found, groups⟩ := search_certificatePattern b e mid clear clear'
  simp only [normalizeX509, found, groups, List.length_cons, List.length_nil, ne_eq,
    not_true_eq_false, if_false, List.map_cons, List.map_nil, trim_marker, partRuns_eq,
    List.intercalate_cons_cons, List.intercalate_singleton, List.append_assoc,
    List.nil_append, List.cons_append]

end

end FabricCommon
