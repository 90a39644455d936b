import FabricCommon.ChaincodePackage

namespace FabricCommon

open FaultyRun (Cut)
open FileTree.Tree

/-- How many steps come before this one. -/
def PackStep.place (step : PackStep) : Nat := PackStep.all.idxOf step

theorem PackStep.place_moveMetaINF : PackStep.moveMetaINF.place = 3 := by decide

theorem PackStep.place_createOutput : PackStep.createOutput.place = 7 := by decide

theorem PackStep.place_of_getElem {n : Nat} {step : PackStep} (h : PackStep.all[n]? = some step) :
    n = step.place := by
  obtain ⟨bound, rfl⟩ := List.getElem?_eq_some_iff.mp h
  exact (List.Nodup.idxOf_getElem (by decide) n bound).symm

theorem PackStep.mem_take_iff {n : Nat} (step : PackStep) :
    step ∈ PackStep.all.take n ↔ step.place < n :=
  List.mem_take_iff_idxOf_lt (by cases step <;> decide)

/-- The tree with the file that a pack has written, if its place is in the tree. -/
def SourceTree.overwritten (output : Output) (written : Option Buffer) (tree : SourceTree) :
    SourceTree :=
  match output, written with
  | .inPath path, some bytes => if tree.Writable path then tree.writeFile path bytes else tree
  | _, _ => tree

namespace ChaincodePackage

variable (tools : ArchiveTools) (p : ChaincodePackage)

/-- The package id of a tree. -/
def packageID (tree : SourceTree) : String := p.calculateID tools (p.archive tools (p.content tree))

/-- The ids of two trees are the same only where the same is packed. -/
def NoCollision (tree tree' : SourceTree) : Prop :=
  p.packageID tools tree = p.packageID tools tree' → p.content tree = p.content tree'

/-- What a pack with this cut puts to its output. -/
def written (tree : SourceTree) : Option (Cut PackDamage) → Option Buffer
  | none => some (p.archive tools (p.content tree))
  | some ⟨n, damage⟩ =>
    if n < PackStep.createOutput.place then none
    else if n = PackStep.createOutput.place then damage.written
    else some (p.archive tools (p.content tree))

/-- The directories that there are to move stay where they are. -/
def MetaINFStays (tree : SourceTree) (cut : Option (Cut PackDamage)) : Prop :=
  isDirectory tree couchdbDir = true → ∃ n damage, cut = some ⟨n, damage⟩ ∧
    (n < PackStep.moveMetaINF.place ∨ n = PackStep.moveMetaINF.place ∧
      ∀ path, path.head? = some "META-INF" → tree path ≠ none → damage.kept path = true)

/-- An output in the tree replaces nothing but the same file. -/
def OutputStays (output : Output) (tree : SourceTree) (cut : Option (Cut PackDamage)) : Prop :=
  ∀ path bytes, output = .inPath path → tree.Writable path →
    p.written tools tree cut = some bytes → tree path = some (.file bytes)

section

variable {tools : ArchiveTools} {p : ChaincodePackage} {output : Output}
  {cut : Option (Cut PackDamage)} {tree : SourceTree} {bytes : Buffer} {n : Nat}
  {damage : PackDamage} {id : String}

theorem write_tree (s : PackState) :
    (s.write output bytes).tree = s.tree.overwritten output (some bytes) := by
  cases output with
  | elsewhere => rfl
  | inPath path =>
    simp only [PackState.write, SourceTree.overwritten]
    split
    next => rfl
    next => rfl

/-- The state in which the output is written. -/
def packed (tools : ArchiveTools) (p : ChaincodePackage) (tree : SourceTree) : PackState where
  tree := moved tree
  tmpRoot :=
    (newDirectory.writeFile ["metadata.json"] p.metadata).writeFile ["code.tar.gz"]
      (tools.create (p.content tree))
  tmpRoot2 := nothing
  elsewhere := none
  id := none
  thrown := false

theorem foldl_packed (output : Output) :
    (PackStep.all.take 7).foldl (p.perform tools output) (.start tree) = packed tools p tree := by
  by_cases autogen : isDirectory tree couchdbDir = true
  · simp [PackStep.all, perform, PackState.start, packed, moved, content, autogen]
  · simp [PackStep.all, perform, PackState.start, packed, moved, content, autogen]

theorem pack_uncut :
    p.pack tools output none tree =
      [.createOutput, .t1, .calculateID].foldl (p.perform tools output) (packed tools p tree) := by
  rw [pack, FaultyRun.exec_uncut, ← foldl_packed output, ← List.foldl_append]
  rfl

theorem perform_tree (s : PackState) {step : PackStep} (h : step ≠ .moveMetaINF)
    (h' : step ≠ .createOutput) : (p.perform tools output s step).tree = s.tree := by
  unfold perform
  split
  next => rfl
  next =>
    cases step with
    | moveMetaINF => exact absurd rfl h
    | createOutput => exact absurd rfl h'
    | calculateID =>
      dsimp only
      split
      next => rfl
      next => rfl
    | _ => rfl

theorem foldl_tree {steps : List PackStep} (h : .moveMetaINF ∉ steps) (h' : .createOutput ∉ steps)
    (s : PackState) : (steps.foldl (p.perform tools output) s).tree = s.tree := by
  induction steps generalizing s with
  | nil => rfl
  | cons step steps ih =>
    rw [List.mem_cons, not_or] at h h'
    rw [List.foldl_cons, ih h.2 h'.2, perform_tree s (Ne.symm h.1) (Ne.symm h'.1)]

/-- After the output has been written nothing at `Path` changes. -/
theorem foldl_written (after : PackStep.createOutput.place < n) :
    ((PackStep.all.take n).foldl (p.perform tools output) (.start tree)).tree =
      (moved tree).overwritten output (some (p.archive tools (p.content tree))) := by
  obtain ⟨k, rfl⟩ := Nat.exists_eq_add_of_lt after
  have split : PackStep.all.take (PackStep.createOutput.place + k + 1) =
      PackStep.all.take 7 ++ .createOutput :: [PackStep.t1, .calculateID].take k := by
    rw [PackStep.place_createOutput, Nat.add_assoc, List.take_add]
    rfl
  rw [split, List.foldl_append, foldl_packed, List.foldl_cons, foldl_tree]
  · exact write_tree (packed tools p tree)
  · exact fun mem => absurd (List.mem_of_mem_take mem) (by decide)
  · exact fun mem => absurd (List.mem_of_mem_take mem) (by decide)

/-- A pack that yields an id yields the one of the tree it found. -/
theorem end_id (h : ([.createOutput, .t1, .calculateID].foldl (p.perform tools output)
    (packed tools p tree)).id = some id) : id = p.packageID tools tree := by
  cases output with
  | elsewhere => exact (Option.some.inj h).symm
  | inPath path =>
    by_cases writable : (moved tree).Writable path
    · simpa [perform, packed, PackState.write, PackState.read, writable, writeFile, packageID,
        archive, eq_comm] using h
    · simp [perform, packed, PackState.write, writable] at h

/-- From the move to the output nothing at `Path` changes. -/
theorem foldl_moved (after : PackStep.moveMetaINF.place < n)
    (before : n ≤ PackStep.createOutput.place) :
    ((PackStep.all.take n).foldl (p.perform tools output) (.start tree)).tree = moved tree := by
  have between : n = 4 ∨ n = 5 ∨ n = 6 ∨ n = 7 := by
    rw [PackStep.place_moveMetaINF] at after
    rw [PackStep.place_createOutput] at before
    omega
  rcases between with rfl | rfl | rfl | rfl
  all_goals
    by_cases autogen : isDirectory tree couchdbDir = true
    · simp [PackStep.all, perform, PackState.start, moved, autogen]
    · simp [PackStep.all, perform, PackState.start, moved, autogen]

theorem fail_tree (s : PackState) {step : PackStep} (h : step ≠ .moveMetaINF)
    (h' : step ≠ .createOutput) : (fail output s step damage).tree = s.tree := by
  cases step with
  | moveMetaINF => exact absurd rfl h
  | createOutput => exact absurd rfl h'
  | _ => rfl

theorem fail_moveMetaINF_tree (s : PackState) :
    (fail output s .moveMetaINF damage).tree =
      if isDirectory s.tree couchdbDir then s.tree.keeping "META-INF" damage.kept else s.tree := by
  simp only [fail]
  split
  next => rfl
  next => rfl

theorem fail_createOutput_tree (s : PackState) :
    (fail output s .createOutput damage).tree = s.tree.overwritten output damage.written := by
  obtain ⟨kept, written⟩ := damage
  cases written with
  | none => cases output <;> rfl
  | some bytes => exact write_tree s

theorem pack_cut {step : PackStep} (h : PackStep.all[n]? = some step) :
    p.pack tools output (some ⟨n, damage⟩) tree =
      fail output ((PackStep.all.take n).foldl (p.perform tools output) (.start tree)) step
        damage := by
  rw [pack, FaultyRun.exec_cut h]

theorem pack_cut_tree (h : n ≠ PackStep.moveMetaINF.place) (h' : n ≠ PackStep.createOutput.place) :
    (p.pack tools output (some ⟨n, damage⟩) tree).tree =
      ((PackStep.all.take n).foldl (p.perform tools output) (.start tree)).tree := by
  by_cases past : PackStep.all.length ≤ n
  · rw [pack, FaultyRun.exec_past past, List.take_of_length_le past]
  · obtain ⟨step, at_n⟩ : ∃ step, PackStep.all[n]? = some step :=
      ⟨_, List.getElem?_eq_getElem (not_le.mp past)⟩
    have place := PackStep.place_of_getElem at_n
    have other : ∀ {step' : PackStep}, n ≠ step'.place → step ≠ step' := by
      rintro step' apart rfl
      exact apart place
    rw [pack_cut at_n, fail_tree _ (other h) (other h')]

/-- Up to the move nothing at `Path` changes. -/
theorem foldl_early (early : n ≤ PackStep.moveMetaINF.place) :
    ((PackStep.all.take n).foldl (p.perform tools output) (.start tree)).tree = tree := by
  rw [foldl_tree]
  · rfl
  · rw [PackStep.mem_take_iff, not_lt]
    exact early
  · rw [PackStep.mem_take_iff, not_lt]
    exact early.trans (by decide)

theorem pack_tree_early (early : n < PackStep.moveMetaINF.place) :
    (p.pack tools output (some ⟨n, damage⟩) tree).tree = tree := by
  have before : n < PackStep.createOutput.place := early.trans (by decide)
  rw [pack_cut_tree early.ne before.ne, foldl_early early.le]

theorem pack_tree_move :
    (p.pack tools output (some ⟨PackStep.moveMetaINF.place, damage⟩) tree).tree =
      if isDirectory tree couchdbDir then tree.keeping "META-INF" damage.kept else tree := by
  have reached : PackStep.all[PackStep.moveMetaINF.place]? = some .moveMetaINF := by decide
  rw [pack_cut reached, fail_moveMetaINF_tree, foldl_early le_rfl]

theorem pack_tree_late
    (late : ∀ n damage, cut = some ⟨n, damage⟩ → PackStep.moveMetaINF.place < n) :
    (p.pack tools output cut tree).tree =
      (moved tree).overwritten output (p.written tools tree cut) := by
  cases cut with
  | none =>
    rw [pack, FaultyRun.exec_uncut, ← List.take_length (l := PackStep.all),
      foldl_written (by decide), written]
  | some cut =>
    obtain ⟨n, damage⟩ := cut
    have late := late n damage rfl
    rcases lt_trichotomy n PackStep.createOutput.place with before | rfl | after
    · rw [pack_cut_tree late.ne' before.ne, foldl_moved late before.le, written, if_pos before]
      cases output <;> rfl
    · have reached : PackStep.all[PackStep.createOutput.place]? = some .createOutput := by decide
      rw [pack_cut reached, fail_createOutput_tree, foldl_moved late le_rfl, written,
        if_neg (lt_irrefl _), if_pos rfl]
    · rw [pack_cut_tree late.ne' after.ne', foldl_written after, written, if_neg after.not_gt,
        if_neg after.ne']

theorem overwritten_eq_self_iff {written : Option Buffer} :
    tree.overwritten output written = tree ↔
      ∀ path bytes, output = .inPath path → tree.Writable path → written = some bytes →
        tree path = some (.file bytes) := by
  cases output with
  | elsewhere => simp [SourceTree.overwritten]
  | inPath path =>
    cases written with
    | none => simp [SourceTree.overwritten]
    | some bytes =>
      by_cases writable : tree.Writable path
      · simp [SourceTree.overwritten, writable, writeFile_eq_self_iff]
      · simp [SourceTree.overwritten, writable]

/-- A directory that has been moved away is not made again by a file. -/
theorem overwritten_ne {written : Option Buffer} (autogen : isDirectory tree couchdbDir = true) :
    (moved tree).overwritten output written ≠ tree := by
  intro same
  have gone : moved tree couchdbDir = none := by
    rw [moved, if_pos autogen, without_of_head rfl]
  have dir : (moved tree).overwritten output written couchdbDir = some .directory := by
    rw [same]
    exact of_decide_eq_true autogen
  cases output with
  | elsewhere => simp [SourceTree.overwritten, gone] at dir
  | inPath path =>
    cases written with
    | none => simp [SourceTree.overwritten, gone] at dir
    | some bytes =>
      simp only [SourceTree.overwritten] at dir
      split at dir
      next =>
        by_cases here : couchdbDir = path
        · simp [writeFile, here] at dir
        · simp [writeFile, here, gone] at dir
      next => simp [gone] at dir

theorem outputStays_of_unwritten (h : p.written tools tree cut = none) :
    p.OutputStays tools output tree cut := by
  intro path bytes _ _ put
  simp [h] at put

theorem pack_tree_late_iff
    (late : ∀ n damage, cut = some ⟨n, damage⟩ → PackStep.moveMetaINF.place < n) :
    (p.pack tools output cut tree).tree = tree ↔
      MetaINFStays tree cut ∧ p.OutputStays tools output tree cut := by
  rw [pack_tree_late late]
  by_cases autogen : isDirectory tree couchdbDir = true
  · refine iff_of_false (overwritten_ne autogen) fun stays => ?_
    obtain ⟨n, damage, at_n, early⟩ := stays.1 autogen
    have past := late n damage at_n
    rcases early with before | ⟨here, _⟩
    · omega
    · omega
  · have plain : MetaINFStays tree cut := fun dir => absurd dir autogen
    rw [moved, if_neg autogen, overwritten_eq_self_iff]
    exact ⟨fun output => ⟨plain, output⟩, fun stays => stays.2⟩

theorem pack_tree_move_iff :
    (p.pack tools output (some ⟨PackStep.moveMetaINF.place, damage⟩) tree).tree = tree ↔
      MetaINFStays tree (some ⟨PackStep.moveMetaINF.place, damage⟩) := by
  rw [pack_tree_move]
  by_cases autogen : isDirectory tree couchdbDir = true
  · rw [if_pos autogen, keeping_eq_self_iff]
    constructor
    · exact fun kept _ => ⟨_, damage, rfl, Or.inr ⟨rfl, kept⟩⟩
    · intro stays
      obtain ⟨n, _, at_n, before | ⟨_, kept⟩⟩ := stays autogen
      · cases at_n
        exact absurd before (lt_irrefl _)
      · cases at_n
        exact kept
  · rw [if_neg autogen]
    exact iff_of_true rfl fun dir => absurd dir autogen

/-- Exactly when the next pack finds what this one has found. -/
theorem pack_tree_eq_iff :
    (p.pack tools output cut tree).tree = tree ↔
      MetaINFStays tree cut ∧ p.OutputStays tools output tree cut := by
  by_cases late : ∀ n damage, cut = some ⟨n, damage⟩ → PackStep.moveMetaINF.place < n
  · exact pack_tree_late_iff late
  · push Not at late
    obtain ⟨n, damage, rfl, early⟩ := late
    have unwritten : p.written tools tree (some ⟨n, damage⟩) = none :=
      if_pos (early.trans_lt (by decide))
    have output : p.OutputStays tools output tree (some ⟨n, damage⟩) :=
      outputStays_of_unwritten unwritten
    rcases early.lt_or_eq with before | rfl
    · rw [pack_tree_early before]
      exact iff_of_true rfl ⟨fun _ => ⟨n, damage, rfl, Or.inl before⟩, output⟩
    · rw [pack_tree_move_iff]
      exact (and_iff_left output).symm

theorem overwritten_root {written : Option Buffer} :
    tree.overwritten output written [] = tree [] := by
  cases output with
  | elsewhere => rfl
  | inPath path =>
    cases written with
    | none => rfl
    | some bytes =>
      simp only [SourceTree.overwritten]
      split
      next writable => exact Function.update_of_ne (Ne.symm writable.1) _ _
      next => rfl

theorem pack_root : (p.pack tools output cut tree).tree [] = tree [] := by
  by_cases late : ∀ n damage, cut = some ⟨n, damage⟩ → PackStep.moveMetaINF.place < n
  · rw [pack_tree_late late, overwritten_root, moved]
    split
    next => exact without_of_other (by simp)
    next => rfl
  · push Not at late
    obtain ⟨n, damage, rfl, early⟩ := late
    rcases early.lt_or_eq with before | rfl
    · rw [pack_tree_early before]
    · rw [pack_tree_move]
      split
      next => exact keeping_of_other (by simp)
      next => rfl

end

end ChaincodePackage

end FabricCommon
