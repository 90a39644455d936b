import FabricCommon.CertificateText

namespace FabricCommon

open MarkedText

/-- White space, of any length. -/
structure Gap where
  text : Text
  blank : ∀ c ∈ text, jsSpace c = true

def Gap.none : Gap := ⟨[], by simp⟩

def Gap.line : Gap := ⟨['\n'], List.forall_mem_singleton.mpr (by decide)⟩

/-- A gap that keeps what is around it on different lines. -/
def Gap.filled (g : Gap) : Gap := if g.text = [] then line else g

structure Certificate where
  begins : Label
  body : Text
  ends : Label
  noDash : '-' ∉ body

/-- A certificate with the white space around its body and after it. -/
structure PlacedCertificate where
  certificate : Certificate
  before : Gap
  after : Gap
  gap : Gap

namespace PlacedCertificate

variable (k : PlacedCertificate)

/-- What stands between the two markers. -/
def inside : Text := k.before.text ++ (k.certificate.body ++ k.after.text)

def beginMarker : Text := marker beginWord k.certificate.begins

def endMarker : Text := marker endWord k.certificate.ends

def text : Text := k.beginMarker ++ (k.inside ++ (k.endMarker ++ k.gap.text))

def pieces : List (Text × Text) := [(k.beginMarker, k.inside), (k.endMarker, k.gap.text)]

end PlacedCertificate

/-- Certificates one after the other. -/
def bundle (lead : Gap) (certs : List PlacedCertificate) : Text :=
  lead.text ++ certs.flatMap PlacedCertificate.text

theorem Gap.noDash (g : Gap) : '-' ∉ g.text := by
  intro mem
  exact absurd (g.blank '-' mem) (by decide)

theorem Gap.filled_filled (g : Gap) : g.filled.filled = g.filled := by
  by_cases empty : g.text = []
  · simp [filled, empty, line]
  · simp [filled, empty]

theorem Gap.filled_text (g : Gap) : g.filled.text = if g.text = [] then ['\n'] else g.text := by
  unfold filled
  split
  next => rfl
  next => rfl

theorem trimStart_noDash {t : Text} (h : '-' ∉ t) : '-' ∉ t.dropWhile jsSpace :=
  fun mem => h (List.dropWhile_subset jsSpace mem)

theorem trimEnd_noDash {t : Text} (h : '-' ∉ t) : '-' ∉ t.rdropWhile jsSpace :=
  fun mem => h ((List.rdropWhile_prefix jsSpace t).subset mem)

theorem dropWhile_dash (s t : Text) :
    (s ++ '-' :: t).dropWhile jsSpace = s.dropWhile jsSpace ++ '-' :: t := by
  rw [List.dropWhile_append]
  split
  next empty =>
    rw [List.isEmpty_iff.mp empty]
    exact List.dropWhile_cons_of_neg (by decide)
  next => rfl

theorem rdropWhile_dash (t s : Text) :
    (t ++ ['-'] ++ s).rdropWhile jsSpace = t ++ ['-'] ++ s.rdropWhile jsSpace := by
  have back := dropWhile_dash s.reverse t.reverse
  simp only [List.rdropWhile, List.reverse_append, List.append_assoc, List.singleton_append, back,
    List.reverse_cons, List.reverse_reverse]

/-- Trimming takes from both ends up to the first dash and from the last one on. -/
theorem trim_around {v : Text} (s s' : Text) (first : ∃ u, v = '-' :: u)
    (last : ∃ u, v = u ++ ['-']) :
    trim (s ++ (v ++ s')) = s.dropWhile jsSpace ++ (v ++ s'.rdropWhile jsSpace) := by
  obtain ⟨u, eq⟩ := first
  obtain ⟨u', rfl⟩ := last
  have front : (s ++ (u' ++ ['-'] ++ s')).dropWhile jsSpace =
      s.dropWhile jsSpace ++ (u' ++ ['-'] ++ s') := by
    rw [eq, List.cons_append, dropWhile_dash]
  have back := rdropWhile_dash (s.dropWhile jsSpace ++ u') s'
  simp only [List.append_assoc] at front back ⊢
  rw [trim, front, back]

namespace PlacedCertificate

variable {k : PlacedCertificate}

theorem inside_noDash (k : PlacedCertificate) : '-' ∉ k.inside := by
  simp [inside, Gap.noDash, k.certificate.noDash]

/-- The same certificate, with other text between and after its markers. -/
def settle (k : PlacedCertificate) (inside : Text) (noDash : '-' ∉ inside) (gap : Gap) :
    PlacedCertificate :=
  ⟨⟨k.certificate.begins, inside, k.certificate.ends, noDash⟩, .none, .none, gap⟩

def settledFirst (k : PlacedCertificate) : PlacedCertificate :=
  k.settle ('\n' :: k.inside.dropWhile jsSpace)
    (by simp [trimStart_noDash k.inside_noDash]) k.gap.filled

def settledInner (k : PlacedCertificate) : PlacedCertificate :=
  k.settle (if k.inside = [] then ['\n'] else k.inside)
    (by split <;> simp [k.inside_noDash]) k.gap.filled

def settledLast (k : PlacedCertificate) : PlacedCertificate :=
  k.settle (k.inside.rdropWhile jsSpace ++ ['\n'])
    (by simp [trimEnd_noDash k.inside_noDash]) .line

def settledAlone (k : PlacedCertificate) : PlacedCertificate :=
  k.settle ('\n' :: (trim k.inside ++ ['\n']))
    (by simp [trim, trimEnd_noDash (trimStart_noDash k.inside_noDash)]) .line

section

variable (k : PlacedCertificate) (inside : Text) (noDash : '-' ∉ inside) (gap : Gap)

@[simp] theorem settle_inside : (k.settle inside noDash gap).inside = inside := by
  simp [settle, PlacedCertificate.inside, Gap.none]

@[simp] theorem settle_begins :
    (k.settle inside noDash gap).certificate.begins = k.certificate.begins := rfl

@[simp] theorem settle_ends :
    (k.settle inside noDash gap).certificate.ends = k.certificate.ends := rfl

@[simp] theorem settle_gap : (k.settle inside noDash gap).gap = gap := rfl

end

end PlacedCertificate

open PlacedCertificate

theorem delimited_marker {word : Text} (hw : MarkerWord word) (l : Label) :
    Delimited 5 '-' (marker word l) := by
  refine ⟨word ++ l.text, by simp [l.some_text], by simp [hw.noDash, l.noDash], ?_⟩
  simp [marker, dashes, List.replicate]

theorem delimited_ends {m : Text} (h : Delimited 5 '-' m) :
    (∃ u, m = '-' :: u) ∧ ∃ u, m = u ++ ['-'] := by
  obtain ⟨core, _, _, rfl⟩ := h
  refine ⟨⟨_, rfl⟩, ⟨dashes ++ (core ++ ['-', '-', '-', '-']), ?_⟩⟩
  simp [dashes, List.replicate]

theorem runs_pieces (certs : List PlacedCertificate) :
    Runs 5 '-' (certs.flatMap PlacedCertificate.pieces) := by
  intro q mem
  obtain ⟨k, _, mem⟩ := List.mem_flatMap.mp mem
  simp only [pieces, List.mem_cons, List.not_mem_nil, or_false] at mem
  rcases mem with rfl | rfl
  · exact ⟨delimited_marker markerWord_begin _, k.inside_noDash⟩
  · exact ⟨delimited_marker markerWord_end _, k.gap.noDash⟩

theorem bundle_eq (lead : Gap) (certs : List PlacedCertificate) :
    bundle lead certs = lead.text ++ weave (certs.flatMap PlacedCertificate.pieces) := by
  rw [bundle, weave, List.flatMap_assoc]
  congr 2
  funext k
  simp [PlacedCertificate.text, pieces]

theorem fill_pieces (certs : List PlacedCertificate) :
    (certs.flatMap PlacedCertificate.pieces).map (fill '\n') =
      (certs.map settledInner).flatMap PlacedCertificate.pieces := by
  rw [List.map_flatMap, List.flatMap_map]
  congr 1
  funext k
  simp [pieces, fill, settledInner, beginMarker, endMarker, Gap.filled_text]

/-- What comes before the last marker, once trimmed, is parted piece by piece. -/
theorem normalizeX509_weave {lead trail mid : Text} (b e : Label) (clear : '-' ∉ lead)
    (clear' : '-' ∉ trail) {qs : List (Text × Text)} (runs : Runs 5 '-' qs)
    (trimmed : marker beginWord b ++ '\n' :: (trim mid ++ ['\n']) = weave qs) :
    normalizeX509 (lead ++ (marker beginWord b ++ (mid ++ (marker endWord e ++ trail)))) =
      .ok (weave (qs.map (fill '\n')) ++ (marker endWord e ++ ['\n'])) := by
  have parts := parted_weave '\n' (by decide) runs (delimited_marker markerWord_end e)
    (c := '\n') (s := []) (by decide) (by simp)
  rw [normalizeX509_framed b e mid clear clear', ← parts, ← trimmed]
  simp

theorem normalizeX509_alone (lead : Gap) (k : PlacedCertificate) :
    normalizeX509 (bundle lead [k]) = .ok (bundle .none [k.settledAlone]) := by
  have shape : bundle lead [k] = lead.text ++ (k.beginMarker ++ (k.inside ++
      (k.endMarker ++ k.gap.text))) := by simp [bundle, PlacedCertificate.text]
  have runs : Runs 5 '-' [(k.beginMarker, '\n' :: (trim k.inside ++ ['\n']))] := by
    intro q mem
    rw [List.mem_singleton.mp mem]
    refine ⟨delimited_marker markerWord_begin _, ?_⟩
    simp [trim, trimEnd_noDash (trimStart_noDash k.inside_noDash)]
  rw [shape]
  refine (normalizeX509_weave _ _ lead.noDash k.gap.noDash runs ?_).trans ?_
  · simp [weave, beginMarker]
  · simp [bundle, PlacedCertificate.text, settledAlone, weave, fill, Gap.none, Gap.line,
      beginMarker, endMarker]

/-- The first and the last certificate of several are trimmed on the outer side of their bodies,
and whatever touched is put on lines of its own. -/
theorem normalizeX509_several (lead : Gap) (c d : PlacedCertificate)
    (cs : List PlacedCertificate) :
    normalizeX509 (bundle lead (c :: (cs ++ [d]))) =
      .ok (bundle .none (c.settledFirst :: (cs.map settledInner ++ [d.settledLast]))) := by
  let inner := (c.endMarker, c.gap.text) :: cs.flatMap PlacedCertificate.pieces
  have shape : bundle lead (c :: (cs ++ [d])) = lead.text ++ (c.beginMarker ++
      (c.inside ++ (weave inner ++ d.beginMarker ++ d.inside) ++
        (d.endMarker ++ d.gap.text))) := by
    simp [bundle_eq, inner, weave, pieces]
  have runs : Runs 5 '-' ((c.beginMarker, '\n' :: c.inside.dropWhile jsSpace) :: (inner ++
      [(d.beginMarker, d.inside.rdropWhile jsSpace ++ ['\n'])])) := by
    have clear : '-' ∉ '\n' :: c.inside.dropWhile jsSpace := by
      simp [trimStart_noDash c.inside_noDash]
    have clear' : '-' ∉ d.inside.rdropWhile jsSpace ++ ['\n'] := by
      simp [trimEnd_noDash d.inside_noDash]
    rw [Runs, List.forall_mem_cons, List.forall_mem_append, List.forall_mem_cons,
      List.forall_mem_singleton]
    exact ⟨⟨delimited_marker markerWord_begin _, clear⟩,
      ⟨⟨delimited_marker markerWord_end _, c.gap.noDash⟩, runs_pieces cs⟩,
      ⟨delimited_marker markerWord_begin _, clear'⟩⟩
  have middle := trim_around (v := weave inner ++ d.beginMarker) c.inside d.inside
    (by
      obtain ⟨u, eq⟩ := (delimited_ends (delimited_marker markerWord_end c.certificate.ends)).1
      exact ⟨u ++ (c.gap.text ++ weave (cs.flatMap PlacedCertificate.pieces) ++ d.beginMarker),
        by simp [inner, weave, endMarker, eq]⟩)
    (by
      obtain ⟨u, eq⟩ := (delimited_ends (delimited_marker markerWord_begin d.certificate.begins)).2
      exact ⟨weave inner ++ u, by rw [beginMarker, eq, List.append_assoc]⟩)
  rw [shape]
  refine (normalizeX509_weave _ _ lead.noDash d.gap.noDash runs ?_).trans ?_
  · rw [middle]
    simp [weave, beginMarker]
  · simp [bundle_eq, settledFirst, settledLast, ← fill_pieces, pieces, weave, fill, Gap.none,
      Gap.line, Gap.filled_text, beginMarker, endMarker, inner]

end FabricCommon
