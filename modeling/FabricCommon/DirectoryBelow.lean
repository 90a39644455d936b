import FabricCommon.CaCryptoGen
import Mathlib.Data.List.Induction

namespace FabricCommon

/-- What is left of a path below a directory. -/
def belowDir : Path → Path → Option Path
  | [], path => some path
  | _ :: _, [] => none
  | a :: dir, b :: path => if a = b then belowDir dir path else none

/-- What a directory of a tree holds, by the paths below it. -/
def NodeDir.below (dir : Path) (s : NodeDir) : NodeDir where
  dirs := s.dirs.filterMap (belowDir dir)
  files := s.files.filterMap fun file => (belowDir dir file.1).map (·, file.2)

/-- An action of a node in the whole tree. -/
def CryptoAction.within (dir : Path) : CryptoAction → CryptoAction
  | .ensureDir path => .ensureDir (dir ++ path)
  | .request sent => .request sent
  | .writeFile path => .writeFile (dir ++ path)

section

variable {dir path rel : Path} {s : NodeDir} {content : FileContent}

theorem belowDir_eq_some : belowDir dir path = some rel ↔ path = dir ++ rel := by
  induction dir generalizing path with
  | nil => simp [belowDir]
  | cons a dir ih =>
    cases path with
    | nil => simp [belowDir]
    | cons b path =>
      by_cases same : a = b
      · simp [belowDir, same, ih]
      · simp [belowDir, same, Ne.symm same]

theorem belowDir_append (dir rel : Path) : belowDir dir (dir ++ rel) = some rel :=
  belowDir_eq_some.mpr rfl

theorem belowDir_eq_none : belowDir dir path = none ↔ ¬ dir <+: path := by
  rw [Option.eq_none_iff_forall_ne_some]
  constructor
  · rintro outside ⟨rel, rfl⟩
    exact outside rel (belowDir_append dir rel)
  · intro outside rel inside
    exact outside ⟨rel, (belowDir_eq_some.mp inside).symm⟩

theorem inits_below (dir rel : Path) : (dir ++ rel).inits.filterMap (belowDir dir) = rel.inits := by
  induction dir with
  | nil =>
    have whole : belowDir [] = some := funext fun path => rfl
    rw [whole, List.filterMap_some, List.nil_append]
  | cons a dir ih =>
    have step : (belowDir (a :: dir) ∘ fun path => a :: path) = belowDir dir := by
      funext path
      simp [belowDir]
    rw [List.cons_append, List.inits_cons, List.filterMap_cons_none rfl, List.filterMap_map, step,
      ih]

theorem inits_outside (outside : ¬ dir <+: path) : path.inits.filterMap (belowDir dir) = [] := by
  rw [List.filterMap_eq_nil_iff]
  intro pre mem
  exact belowDir_eq_none.mpr fun inside => outside (inside.trans ((List.mem_inits _ _).mp mem))

theorem below_write (dir rel : Path) (content : FileContent) (s : NodeDir) :
    (s.write (dir ++ rel) content).below dir = (s.below dir).write rel content := by
  have files : ∀ files : List (Path × FileContent),
      (files.filter fun file => file.1 ≠ dir ++ rel).filterMap
          (fun file => (belowDir dir file.1).map (·, file.2)) =
        (files.filterMap fun file => (belowDir dir file.1).map (·, file.2)).filter
          fun file => file.1 ≠ rel := by
    intro files
    induction files with
    | nil => rfl
    | cons file files ih =>
      obtain ⟨path, content⟩ := file
      cases inside : belowDir dir path with
      | none =>
        have other : path ≠ dir ++ rel := by
          rintro rfl
          rw [belowDir_append] at inside
          cases inside
        simpa [inside, other] using ih
      | some rel' =>
        obtain rfl := belowDir_eq_some.mp inside
        by_cases same : rel' = rel
        · simpa [belowDir_append, same] using ih
        · simpa [belowDir_append, same] using ih
  simp only [NodeDir.below, NodeDir.write, List.filterMap_cons, belowDir_append, Option.map_some,
    files]

theorem below_write_outside (outside : ¬ dir <+: path) :
    (s.write path content).below dir = s.below dir := by
  have gone : belowDir dir path = none := belowDir_eq_none.mpr outside
  have files : ∀ files : List (Path × FileContent),
      (files.filter fun file => file.1 ≠ path).filterMap
          (fun file => (belowDir dir file.1).map (·, file.2)) =
        files.filterMap fun file => (belowDir dir file.1).map (·, file.2) := by
    intro files
    induction files with
    | nil => rfl
    | cons file files ih =>
      obtain ⟨path', content⟩ := file
      by_cases same : path' = path
      · simpa [same, gone] using ih
      · cases inside : belowDir dir path' with
        | none => simpa [same, inside] using ih
        | some rel => simpa [same, inside] using ih
  simp only [NodeDir.below, NodeDir.write, List.filterMap_cons, gone, Option.map_none, files]

theorem below_ensureDir (dir rel : Path) (s : NodeDir) :
    (s.ensureDir (dir ++ rel)).below dir = (s.below dir).ensureDir rel := by
  simp only [NodeDir.below, NodeDir.ensureDir, List.filterMap_append, inits_below]

theorem below_ensureDir_outside (outside : ¬ dir <+: path) :
    (s.ensureDir path).below dir = s.below dir := by
  simp only [NodeDir.below, NodeDir.ensureDir, List.filterMap_append, inits_outside outside,
    List.nil_append]

theorem below_perform (dir : Path) (s : NodeDir) (action : CryptoAction) :
    ((action.within dir).perform s).below dir = action.perform (s.below dir) := by
  cases action with
  | ensureDir path => exact below_ensureDir dir path s
  | request request => rfl
  | writeFile path => exact below_write dir path .whole s

theorem below_fail (dir : Path) (s : NodeDir) (action : CryptoAction) (truncates : Bool) :
    ((action.within dir).fail s truncates).below dir = action.fail (s.below dir) truncates := by
  cases action with
  | ensureDir path => rfl
  | request request => rfl
  | writeFile path =>
    cases truncates with
    | true => exact below_write dir path .truncated s
    | false => rfl

theorem read_below (dir rel : Path) (s : NodeDir) :
    (s.below dir).read rel = s.read (dir ++ rel) := by
  obtain ⟨dirs, files⟩ := s
  simp only [NodeDir.read, NodeDir.below]
  induction files with
  | nil => rfl
  | cons file files ih =>
    obtain ⟨path, content⟩ := file
    cases inside : belowDir dir path with
    | none =>
      have other : ((dir ++ rel) == path) = false := by
        rw [beq_eq_false_iff_ne]
        rintro rfl
        rw [belowDir_append] at inside
        cases inside
      simpa [inside, List.lookup_cons, other] using ih
    | some rel' =>
      obtain rfl := belowDir_eq_some.mp inside
      by_cases same : rel = rel'
      · simp [belowDir_append, same]
      · have other : (rel == rel') = false := beq_eq_false_iff_ne.mpr same
        have other' : ((dir ++ rel) == (dir ++ rel')) = false := by
          rw [beq_eq_false_iff_ne]
          exact fun h => same (List.append_cancel_left h)
        simpa [belowDir_append, List.lookup_cons, other, other'] using ih

theorem readdir_below (dir d : Path) (s : NodeDir) :
    (s.below dir).readdir d = s.readdir (dir ++ d) := by
  obtain ⟨dirs, files⟩ := s
  simp only [NodeDir.readdir, NodeDir.below, List.filterMap_filterMap]
  refine List.filterMap_congr fun file _ => ?_
  obtain ⟨path, content⟩ := file
  cases inside : belowDir dir path with
  | none =>
    have other : path.dropLast ≠ dir ++ d := fun same =>
      belowDir_eq_none.mp inside
        ((List.prefix_append dir d).trans (same ▸ List.dropLast_prefix path))
    simp [other]
  | some rel =>
    obtain rfl := belowDir_eq_some.mp inside
    cases rel using List.reverseRecOn with
    | nil =>
      have nothing : (if dir.dropLast = dir ++ d then dir.getLast? else none) = none := by
        split
        next same =>
          have shorter := congrArg List.length same
          simp only [List.length_dropLast, List.length_append] at shorter
          rw [List.length_eq_zero_iff.mp (by omega : dir.length = 0), List.getLast?_nil]
        next => rfl
      simp [nothing]
    | append_singleton rel name =>
      simp [← List.append_assoc]

theorem findKeyFiles_below (dir d : Path) (s : NodeDir) :
    findKeyFiles s (dir ++ d) = (findKeyFiles (s.below dir) d).map (dir ++ ·) := by
  simp only [findKeyFiles, readdir_below, List.map_map, Function.comp_def, List.append_assoc]

theorem mem_dirs_below (dir d : Path) (s : NodeDir) :
    d ∈ (s.below dir).dirs ↔ dir ++ d ∈ s.dirs := by
  simp only [NodeDir.below, List.mem_filterMap, belowDir_eq_some, exists_eq_right]

end

end FabricCommon
