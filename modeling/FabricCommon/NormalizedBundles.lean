import FabricCommon.CertificateBundle
import Mathlib.Data.List.Forall2

namespace FabricCommon

open MarkedText PlacedCertificate

def unspaced (t : Text) : Text := t.filter fun c => !jsSpace c

/-- One certificate up to white space in the body. -/
structure SameCertificate (c c' : Certificate) : Prop where
  begins : c'.begins = c.begins
  ends : c'.ends = c.ends
  body : unspaced c'.body = unspaced c.body

def markers (certs : List PlacedCertificate) : List Text :=
  certs.flatMap fun k => [k.beginMarker, k.endMarker]

/-- What the text of a bundle is to be normalised to. The bodies have no dash, so that the markers
stand alone when they are the lines with a dash. -/
structure Normalised (certs : List PlacedCertificate) (out : Text) : Prop where
  same : ∃ lead certs', out = bundle lead certs' ∧
    List.Forall₂ (fun k k' => SameCertificate k.certificate k'.certificate) certs certs'
  alone : marked lineBreak '-' out = markers certs
  ends : out.getLast? = some '\n'
  stable : normalizeX509 out = .ok out

def Blank (t : Text) : Prop := ∀ c ∈ t, jsSpace c = true

/-- Nothing at all, or text that leaves the lines on both sides to themselves. -/
def Apart (t : Text) : Prop := t = [] ∨ StartsLine lineBreak t ∧ EndsLine lineBreak t

/-- Between the markers of several certificates lines break where it matters. -/
structure LinesKept (certs : List PlacedCertificate) : Prop where
  first : ∀ k ∈ certs.head?, Blank k.inside ∨ EndsLine lineBreak k.inside
  last : ∀ k ∈ certs.getLast?, Blank k.inside ∨ StartsLine lineBreak k.inside
  inner : ∀ k ∈ certs.tail.dropLast, Apart k.inside
  gaps : ∀ k ∈ certs.dropLast, Apart k.gap.text

section

variable {t : Text} {k : PlacedCertificate}

theorem endsLine_trimStart :
    EndsLine lineBreak ('\n' :: t.dropWhile jsSpace) ↔ Blank t ∨ EndsLine lineBreak t := by
  rw [endsLine_cons rfl]
  by_cases blank : Blank t
  · rw [List.dropWhile_eq_nil_iff.mpr blank]
    exact iff_of_true (by simp [EndsLine]) (Or.inl blank)
  · have solid : t.dropWhile jsSpace ≠ [] := fun empty => blank (List.dropWhile_eq_nil_iff.mp empty)
    have same : t.getLast? = (t.dropWhile jsSpace).getLast? := by
      conv_lhs => rw [← List.takeWhile_append_dropWhile (p := jsSpace) (l := t)]
      exact List.getLast?_append_of_ne_nil _ solid
    rw [EndsLine, EndsLine, same]
    exact ⟨Or.inr, fun h => h.resolve_left blank⟩

theorem startsLine_trimEnd :
    StartsLine lineBreak (t.rdropWhile jsSpace ++ ['\n']) ↔ Blank t ∨ StartsLine lineBreak t := by
  by_cases blank : Blank t
  · rw [List.rdropWhile_eq_nil_iff.mpr blank]
    exact iff_of_true ⟨'\n', rfl, rfl⟩ (Or.inl blank)
  · have solid : t.rdropWhile jsSpace ≠ [] :=
      fun empty => blank (List.rdropWhile_eq_nil_iff.mp empty)
    obtain ⟨rest, whole⟩ := List.rdropWhile_prefix jsSpace t
    obtain ⟨c, s, eq⟩ := List.exists_cons_of_ne_nil solid
    have same : t.head? = some c := by
      rw [← whole, eq]
      rfl
    rw [StartsLine, StartsLine, same, eq, List.cons_append, List.head?_cons]
    exact ⟨Or.inr, fun h => h.resolve_left blank⟩

theorem apart_iff :
    Apart t ↔ StartsLine lineBreak (if t = [] then ['\n'] else t) ∧
      EndsLine lineBreak (if t = [] then ['\n'] else t) := by
  by_cases empty : t = []
  · rw [if_pos empty]
    exact iff_of_true (Or.inl empty) ⟨⟨'\n', rfl, rfl⟩, by simp [EndsLine, lineBreak]⟩
  · rw [if_neg empty]
    exact ⟨fun h => h.resolve_left empty, Or.inr⟩

theorem endsLine_newline (t : Text) : EndsLine lineBreak (t ++ ['\n']) := by
  simp [EndsLine, lineBreak]

theorem startsLine_newline (t : Text) : StartsLine lineBreak ('\n' :: t) := ⟨'\n', rfl, rfl⟩

theorem unspaced_eq_nil (g : Gap) : unspaced g.text = [] := by
  rw [unspaced, List.filter_eq_nil_iff]
  intro c mem
  simp [g.blank c mem]

theorem unspaced_inside (k : PlacedCertificate) :
    unspaced k.inside = unspaced k.certificate.body := by
  have before := unspaced_eq_nil k.before
  have after := unspaced_eq_nil k.after
  unfold unspaced at before after ⊢
  rw [inside, List.filter_append, List.filter_append, before, after, List.nil_append,
    List.append_nil]

theorem unspaced_trimStart (t : Text) : unspaced (t.dropWhile jsSpace) = unspaced t := by
  have cut : unspaced (t.takeWhile jsSpace) = [] := by
    rw [unspaced, List.filter_eq_nil_iff]
    intro c mem
    simp [List.mem_takeWhile_imp mem]
  conv_rhs => rw [← List.takeWhile_append_dropWhile (p := jsSpace) (l := t)]
  unfold unspaced at cut ⊢
  rw [List.filter_append, cut, List.nil_append]

theorem unspaced_trimEnd (t : Text) : unspaced (t.rdropWhile jsSpace) = unspaced t := by
  have back := unspaced_trimStart t.reverse
  unfold unspaced at back ⊢
  rw [List.rdropWhile, List.filter_reverse, back, List.filter_reverse, List.reverse_reverse]

/-- A certificate stays the same when only white space around its body changes. -/
theorem sameCertificate_settle {inside : Text} {noDash : '-' ∉ inside} {gap : Gap}
    (same : unspaced inside = unspaced k.inside) :
    SameCertificate k.certificate (k.settle inside noDash gap).certificate :=
  ⟨rfl, rfl, same.trans (unspaced_inside k)⟩

theorem sameCertificate_settledFirst (k : PlacedCertificate) :
    SameCertificate k.certificate k.settledFirst.certificate :=
  sameCertificate_settle (unspaced_trimStart k.inside)

theorem sameCertificate_settledInner (k : PlacedCertificate) :
    SameCertificate k.certificate k.settledInner.certificate := by
  refine sameCertificate_settle ?_
  split
  next empty =>
    rw [empty]
    rfl
  next => rfl

theorem unspaced_newline (t : Text) : unspaced (t ++ ['\n']) = unspaced t := by
  unfold unspaced
  rw [List.filter_append]
  exact List.append_nil _

theorem sameCertificate_settledLast (k : PlacedCertificate) :
    SameCertificate k.certificate k.settledLast.certificate :=
  sameCertificate_settle ((unspaced_newline _).trans (unspaced_trimEnd k.inside))

theorem sameCertificate_settledAlone (k : PlacedCertificate) :
    SameCertificate k.certificate k.settledAlone.certificate := by
  refine sameCertificate_settle ((unspaced_newline _).trans ?_)
  exact (unspaced_trimEnd _).trans (unspaced_trimStart k.inside)

theorem settle_congr {inside inside' : Text} {noDash : '-' ∉ inside} {noDash' : '-' ∉ inside'}
    {gap gap' : Gap} (same : inside = inside') (same' : gap = gap') :
    k.settle inside noDash gap = k.settle inside' noDash' gap' := by
  subst same same'
  rfl

theorem dropWhile_newline (t : Text) :
    ('\n' :: t.dropWhile jsSpace).dropWhile jsSpace = t.dropWhile jsSpace := by
  rw [List.dropWhile_cons_of_pos (by decide), List.dropWhile_idempotent]

theorem rdropWhile_newline (t : Text) :
    (t.rdropWhile jsSpace ++ ['\n']).rdropWhile jsSpace = t.rdropWhile jsSpace := by
  rw [List.rdropWhile_concat_pos _ _ _ (by decide), List.rdropWhile_idempotent]

theorem settledFirst_settledFirst (k : PlacedCertificate) :
    k.settledFirst.settledFirst = k.settledFirst := by
  refine settle_congr (k := k) ?_ k.gap.filled_filled
  rw [settledFirst, settle_inside, dropWhile_newline]

theorem settledLast_settledLast (k : PlacedCertificate) :
    k.settledLast.settledLast = k.settledLast := by
  refine settle_congr (k := k) ?_ rfl
  rw [settledLast, settle_inside, rdropWhile_newline]

theorem settledInner_settledInner (k : PlacedCertificate) :
    k.settledInner.settledInner = k.settledInner := by
  refine settle_congr (k := k) ?_ k.gap.filled_filled
  rw [settledInner, settle_inside]
  by_cases empty : k.inside = []
  · simp [empty]
  · simp [empty]

theorem trim_newlines (t : Text) : trim ('\n' :: (trim t ++ ['\n'])) = trim t := by
  have back : (trim t).rdropWhile jsSpace = trim t := List.rdropWhile_idempotent _ _
  rw [trim, List.dropWhile_cons_of_pos (by decide), List.dropWhile_append, dropWhile_trim]
  split
  next empty =>
    rw [List.isEmpty_iff.mp empty]
    decide
  next => rw [List.rdropWhile_concat_pos _ _ _ (by decide), back]

theorem settledAlone_settledAlone (k : PlacedCertificate) :
    k.settledAlone.settledAlone = k.settledAlone := by
  refine settle_congr (k := k) ?_ rfl
  rw [settledAlone, settle_inside, trim_newlines]

end

section

variable {c d : PlacedCertificate} {cs : List PlacedCertificate}

theorem pieces_lineBreak (certs : List PlacedCertificate) :
    Pieces lineBreak '-' (certs.flatMap PlacedCertificate.pieces) := by
  intro q mem
  obtain ⟨k, _, mem⟩ := List.mem_flatMap.mp mem
  simp only [pieces, List.mem_cons, List.not_mem_nil, or_false] at mem
  rcases mem with rfl | rfl
  · exact ⟨⟨_, rfl⟩, marker_oneLine markerWord_begin _, k.inside_noDash⟩
  · exact ⟨⟨_, rfl⟩, marker_oneLine markerWord_end _, k.gap.noDash⟩

/-- The markers stand alone exactly when what is around all but the last breaks lines. -/
theorem marked_bundle (certs : List PlacedCertificate) (k : PlacedCertificate)
    (line : k.gap = .line) :
    marked lineBreak '-' (bundle .none (certs ++ [k])) = markers (certs ++ [k]) ↔
      (∀ q ∈ certs.flatMap PlacedCertificate.pieces,
        StartsLine lineBreak q.2 ∧ EndsLine lineBreak q.2) ∧
      StartsLine lineBreak k.inside ∧ EndsLine lineBreak k.inside := by
  let qs := certs.flatMap PlacedCertificate.pieces ++ [(k.beginMarker, k.inside)]
  obtain ⟨m, end_eq⟩ : ∃ m, k.endMarker = '-' :: m := ⟨_, rfl⟩
  have text : bundle .none (certs ++ [k]) = [] ++ (weave qs ++ '-' :: (m ++ ['\n'])) := by
    rw [← List.cons_append, ← end_eq, bundle_eq]
    simp [qs, weave, pieces, line, Gap.none, Gap.line]
  have marks : Pieces lineBreak '-' qs := by
    intro q mem
    rcases List.mem_append.mp mem with before | final
    · exact pieces_lineBreak certs q before
    · rw [List.mem_singleton.mp final]
      exact ⟨⟨_, rfl⟩, marker_oneLine markerWord_begin _, k.inside_noDash⟩
  have all : markers (certs ++ [k]) = qs.map Prod.fst ++ ['-' :: m] := by
    rw [← end_eq]
    simp [qs, markers, PlacedCertificate.pieces, List.map_flatMap]
  have last : ∀ c ∈ m, lineBreak c = false := by
    have whole : ∀ c ∈ k.endMarker, lineBreak c = false :=
      marker_oneLine markerWord_end _
    rw [end_eq] at whole
    exact fun c mem => whole c (List.mem_cons_of_mem _ mem)
  have start : EndsLine lineBreak [] := by simp [EndsLine]
  rw [text, all, marked_weave_iff rfl rfl List.not_mem_nil marks last, List.forall_mem_append,
    List.forall_mem_singleton]
  exact ⟨fun h => h.2, fun h => ⟨start, h⟩⟩

theorem forall_pieces {certs : List PlacedCertificate} {p : Text → Prop} :
    (∀ q ∈ certs.flatMap PlacedCertificate.pieces, p q.2) ↔
      ∀ k ∈ certs, p k.inside ∧ p k.gap.text := by
  simp only [List.mem_flatMap, forall_exists_index, and_imp, pieces, List.mem_cons,
    List.not_mem_nil, or_false]
  constructor
  · intro all k mem
    exact ⟨all _ k mem (Or.inl rfl), all _ k mem (Or.inr rfl)⟩
  · rintro all q k mem (rfl | rfl)
    · exact (all k mem).1
    · exact (all k mem).2

theorem alone_settledAlone (k : PlacedCertificate) :
    marked lineBreak '-' (bundle .none [k.settledAlone]) = markers [k] := by
  refine (marked_bundle [] k.settledAlone rfl).mpr ⟨by simp, ?_⟩
  rw [settledAlone, settle_inside]
  exact ⟨startsLine_newline _, endsLine_newline ('\n' :: trim k.inside)⟩

theorem apart_gap (g : Gap) :
    Apart g.text ↔ StartsLine lineBreak g.filled.text ∧ EndsLine lineBreak g.filled.text := by
  rw [Gap.filled_text, apart_iff]

theorem apart_settledInner (k : PlacedCertificate) :
    Apart k.inside ↔
      StartsLine lineBreak k.settledInner.inside ∧ EndsLine lineBreak k.settledInner.inside := by
  rw [settledInner, settle_inside, apart_iff]

theorem linesKept_several :
    LinesKept (c :: (cs ++ [d])) ↔
      (Blank c.inside ∨ EndsLine lineBreak c.inside) ∧
        (Blank d.inside ∨ StartsLine lineBreak d.inside) ∧
        Apart c.gap.text ∧ ∀ k ∈ cs, Apart k.inside ∧ Apart k.gap.text := by
  have final : (c :: (cs ++ [d])).getLast? = some d := by
    rw [← List.cons_append, List.getLast?_concat]
  have others : (c :: (cs ++ [d])).dropLast = c :: cs := by
    rw [← List.cons_append, List.dropLast_concat]
  have between : (c :: (cs ++ [d])).tail.dropLast = cs := by
    rw [List.tail_cons, List.dropLast_concat]
  constructor
  · intro h
    have gaps := h.gaps
    have inner := h.inner
    rw [others, List.forall_mem_cons] at gaps
    rw [between] at inner
    exact ⟨h.first c rfl, h.last d (by rw [final]; rfl), gaps.1,
      fun k mem => ⟨inner k mem, gaps.2 k mem⟩⟩
  · intro h
    obtain ⟨first, last, gap, all⟩ := h
    refine ⟨?_, ?_, ?_, ?_⟩
    · intro k mem
      rwa [← Option.some.inj mem]
    · intro k mem
      rw [final] at mem
      rwa [← Option.some.inj mem]
    · rw [between]
      exact fun k mem => (all k mem).1
    · rw [others, List.forall_mem_cons]
      exact ⟨gap, fun k mem => (all k mem).2⟩

/-- Around the markers of several certificates the output breaks lines exactly when the input does
where it matters. -/
theorem alone_several :
    marked lineBreak '-'
        (bundle .none (c.settledFirst :: (cs.map settledInner ++ [d.settledLast]))) =
      markers (c :: (cs ++ [d])) ↔ LinesKept (c :: (cs ++ [d])) := by
  have same : markers (c :: (cs ++ [d])) =
      markers (c.settledFirst :: cs.map settledInner ++ [d.settledLast]) := by
    simp [markers, settledFirst, settledInner, settledLast, beginMarker, endMarker,
      List.flatMap_map]
  have between : (∀ k ∈ cs.map settledInner,
      (StartsLine lineBreak k.inside ∧ EndsLine lineBreak k.inside) ∧
        StartsLine lineBreak k.gap.text ∧ EndsLine lineBreak k.gap.text) ↔
      ∀ k ∈ cs, Apart k.inside ∧ Apart k.gap.text := by
    rw [List.forall_mem_map]
    refine forall₂_congr fun k _ => ?_
    rw [apart_settledInner, apart_gap]
    rfl
  rw [same, ← List.cons_append, marked_bundle _ _ rfl, forall_pieces (p := fun t =>
    StartsLine lineBreak t ∧ EndsLine lineBreak t), linesKept_several, List.forall_mem_cons,
    between]
  simp only [settledFirst, settledLast, settle_inside, settle_gap, endsLine_trimStart,
    startsLine_trimEnd, startsLine_newline, endsLine_newline, true_and, and_true, ← apart_gap]
  constructor
  · intro h
    exact ⟨h.1.1.1, h.2, h.1.1.2, h.1.2⟩
  · intro h
    exact ⟨⟨⟨h.1, h.2.2.1⟩, h.2.2.2⟩, h.2.1⟩

theorem bundle_getLast? (lead : Gap) (certs : List PlacedCertificate) (k : PlacedCertificate)
    (line : k.gap = .line) : (bundle lead (certs ++ [k])).getLast? = some '\n' := by
  have final : bundle lead (certs ++ [k]) =
      bundle lead certs ++ (k.beginMarker ++ (k.inside ++ k.endMarker)) ++ ['\n'] := by
    simp [bundle, PlacedCertificate.text, line, Gap.line]
  rw [final, List.getLast?_concat]

theorem normalised_settledAlone (k : PlacedCertificate) :
    Normalised [k] (bundle .none [k.settledAlone]) where
  same := ⟨.none, [k.settledAlone], rfl, .cons (sameCertificate_settledAlone k) .nil⟩
  alone := alone_settledAlone k
  ends := bundle_getLast? .none [] k.settledAlone rfl
  stable := by rw [normalizeX509_alone, settledAlone_settledAlone]

theorem normalised_several (alone : LinesKept (c :: (cs ++ [d]))) :
    Normalised (c :: (cs ++ [d]))
      (bundle .none (c.settledFirst :: (cs.map settledInner ++ [d.settledLast]))) where
  same := by
    have inner : List.Forall₂
        (fun k k' : PlacedCertificate => SameCertificate k.certificate k'.certificate)
        cs (cs.map settledInner) := by
      rw [List.forall₂_map_right_iff, List.forall₂_same]
      exact fun k _ => sameCertificate_settledInner k
    exact ⟨.none, _, rfl, .cons (sameCertificate_settledFirst c)
      (List.rel_append inner (.cons (sameCertificate_settledLast d) .nil))⟩
  alone := alone_several.mpr alone
  ends := by
    rw [← List.cons_append]
    exact bundle_getLast? .none _ d.settledLast rfl
  stable := by
    have inner : ∀ k, settledInner (settledInner k) = settledInner k := settledInner_settledInner
    rw [normalizeX509_several, settledFirst_settledFirst, settledLast_settledLast, List.map_map,
      Function.comp_def]
    simp only [inner]

/-- `normalizeX509` normalises the text of every certificate on its own, and that of several
exactly when lines break between their markers already. -/
theorem normalizeX509_normalises_iff (lead : Gap) (c : PlacedCertificate)
    (cs : List PlacedCertificate) :
    (∃ out, normalizeX509 (bundle lead (c :: cs)) = .ok out ∧ Normalised (c :: cs) out) ↔
      cs = [] ∨ LinesKept (c :: cs) := by
  rcases List.eq_nil_or_concat cs with rfl | ⟨cs, d, rfl⟩
  · exact iff_of_true ⟨_, normalizeX509_alone lead c, normalised_settledAlone c⟩ (Or.inl rfl)
  · rw [List.concat_eq_append, normalizeX509_several]
    constructor
    · intro h
      obtain ⟨out, eq, normalised⟩ := h
      cases eq
      exact Or.inr (alone_several.mp normalised.alone)
    · intro h
      exact ⟨_, rfl, normalised_several (h.resolve_left (by simp))⟩

theorem normalizeX509_bundle (lead : Gap) (c : PlacedCertificate) (cs : List PlacedCertificate) :
    ∃ out, normalizeX509 (bundle lead (c :: cs)) = .ok out := by
  rcases List.eq_nil_or_concat cs with rfl | ⟨cs, d, rfl⟩
  · exact ⟨_, normalizeX509_alone lead c⟩
  · rw [List.concat_eq_append]
    exact ⟨_, normalizeX509_several lead c d cs⟩

/-- A file with certificates is found among the files of a directory. -/
theorem mem_findCertFiles_bundle {files : List DirFile} {name : String} (lead : Gap)
    (c : PlacedCertificate) (cs : List PlacedCertificate) :
    (name, some (bundle lead (c :: cs))) ∈ findCertFiles files ↔
      (name, some (bundle lead (c :: cs))) ∈ files := by
  obtain ⟨out, normalised⟩ := normalizeX509_bundle lead c cs
  rw [findCertFiles, List.mem_filter]
  simp only [normalised, and_true]

end

def sampleLabel : Label := ⟨[' ', 'X'], by decide, by decide, by simp [lineBreak]⟩

def spaceGap : Gap := ⟨[' '], List.forall_mem_singleton.mpr (by decide)⟩

/-- A certificate whose body is on a line of its own. -/
def sampleCertificate (gap : Gap) : PlacedCertificate :=
  ⟨⟨sampleLabel, ['M', 'I', 'I'], sampleLabel, by decide⟩, .line, .line, gap⟩

/-- Two certificates with a space in between come out with two markers on one line. -/
theorem normalizeX509_shared_line :
    ¬ ∃ out, normalizeX509 (bundle .none [sampleCertificate spaceGap, sampleCertificate .none]) =
        .ok out ∧ Normalised [sampleCertificate spaceGap, sampleCertificate .none] out := by
  intro h
  obtain ⟨out, eq, normalised⟩ := h
  have several :=
    normalizeX509_several .none (sampleCertificate spaceGap) (sampleCertificate .none) []
  cases several.symm.trans eq
  rcases (linesKept_several.mp (alone_several.mp normalised.alone)).2.2.1 with empty | apart
  · exact absurd empty (by decide)
  · obtain ⟨⟨c, first, breaks⟩, _⟩ := apart
    cases first
    exact absurd breaks (by decide)

end FabricCommon
