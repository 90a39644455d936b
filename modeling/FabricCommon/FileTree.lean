import Mathlib.Data.List.Basic
import Mathlib.Logic.Function.Basic

namespace FileTree

inductive Entry (β : Type*) where
  | directory
  | file (content : β)
  deriving DecidableEq, Repr

/-- What stands at each path below a directory, which is itself at the empty path. -/
abbrev Tree (β : Type*) := List String → Option (Entry β)

namespace Tree

variable {β : Type*}

def nothing : Tree β := fun _ => none

def newDirectory : Tree β := fun path => if path = [] then some .directory else none

/-- Of the entries under the name only the kept ones stay. -/
def keeping (name : String) (kept : List String → Bool) (t : Tree β) : Tree β := fun path =>
  if path.head? = some name ∧ kept path = false then none else t path

def without (name : String) (t : Tree β) : Tree β := t.keeping name fun _ => false

def only (name : String) (t : Tree β) : Tree β := fun path =>
  if path.head? = some name then t path else none

/-- The tree as the entry of that name of another one. -/
def placed (name : String) (t : Tree β) : Tree β
  | [] => none
  | first :: path => if first = name then t path else none

/-- A copy of the tree into one that is there. -/
def onto (t target : Tree β) : Tree β := fun path => (t path).or (target path)

def writeFile (path : List String) (content : β) (t : Tree β) : Tree β :=
  Function.update t path (some (.file content))

/-- A file can be created in a directory, where no directory has its name. -/
def Writable (t : Tree β) (path : List String) : Prop :=
  path ≠ [] ∧ t path.dropLast = some .directory ∧ t path ≠ some .directory

instance [DecidableEq β] (t : Tree β) (path : List String) : Decidable (t.Writable path) :=
  inferInstanceAs (Decidable (_ ∧ _))

/-- A file with the directories above it that are missing. The error is the path that is in the
way. -/
def outputFile [DecidableEq β] (path : List String) (content : β) (t : Tree β) :
    Except (List String) (Tree β) :=
  match path.inits.dropLast.find? fun above => t above ≠ none ∧ t above ≠ some .directory with
  | some above => .error above
  | none =>
    if t path = some .directory then .error path
    else .ok fun other =>
      if other = path then some (.file content)
      else if other.isPrefixOf path then some .directory else t other

variable {t u : Tree β} {name : String} {kept : List String → Bool} {path : List String}
  {content : β}

theorem keeping_eq_self_iff :
    t.keeping name kept = t ↔
      ∀ path, path.head? = some name → t path ≠ none → kept path = true := by
  constructor
  · intro same path under there
    by_contra dropped
    rw [Bool.not_eq_true] at dropped
    have gone : t.keeping name kept path = none := if_pos ⟨under, dropped⟩
    exact there (by rw [← same, gone])
  · intro all
    funext path
    unfold keeping
    split
    next dropped =>
      by_contra there
      rw [all path dropped.1 (Ne.symm there)] at dropped
      exact absurd dropped.2 (by decide)
    next => rfl

theorem keeping_of_other (other : path.head? ≠ some name) : t.keeping name kept path = t path :=
  if_neg fun under => other under.1

theorem without_of_head (under : path.head? = some name) : t.without name path = none :=
  if_pos ⟨under, rfl⟩

theorem without_of_other (other : path.head? ≠ some name) : t.without name path = t path :=
  keeping_of_other other

theorem only_of_head (under : path.head? = some name) : t.only name path = t path := if_pos under

theorem only_of_other (other : path.head? ≠ some name) : t.only name path = none := if_neg other

@[simp] theorem placed_cons_self : t.placed name (name :: path) = t path := if_pos rfl

theorem placed_of_other (other : path.head? ≠ some name) : t.placed name path = none := by
  cases path with
  | nil => rfl
  | cons first path => exact if_neg fun same => other (by rw [same, List.head?_cons])

theorem onto_of_none (h : t path = none) : t.onto u path = u path := by
  simp [onto, h]

theorem onto_of_target_none (h : u path = none) : t.onto u path = t path := by
  simp [onto, h]

/-- What is moved away and what is left are the whole tree. -/
theorem without_onto_only (t : Tree β) (name : String) :
    (t.without name).onto (t.only name) = t := by
  funext path
  by_cases under : path.head? = some name
  · rw [onto_of_none (without_of_head under), only_of_head under]
  · rw [onto_of_target_none (only_of_other under), without_of_other under]

theorem writeFile_eq_self_iff : t.writeFile path content = t ↔ t path = some (.file content) := by
  rw [writeFile, Function.update_eq_self_iff, eq_comm]

section

variable [DecidableEq β]

theorem outputFile_eq_ok (h : t.outputFile path content = .ok u) :
    u = fun other =>
      if other = path then some (.file content)
      else if other.isPrefixOf path then some .directory else t other := by
  unfold outputFile at h
  split at h
  next => simp at h
  next =>
    split at h
    next => simp at h
    next => exact (Except.ok.inj h).symm

theorem outputFile_above {above : List String} (h : t.outputFile path content = .ok u)
    (prefixed : above.isPrefixOf path = true) (other : above ≠ path) :
    u above = some .directory := by
  rw [outputFile_eq_ok h]
  simp only [if_neg other, if_pos prefixed]

theorem outputFile_self (h : t.outputFile path content = .ok u) :
    u path = some (.file content) := by
  rw [outputFile_eq_ok h]
  exact if_pos rfl

end

end Tree

end FileTree
