import FabricCommon.CaCryptoGen

namespace FabricCommon

open CryptoAction

section

variable {s : NodeDir} {path path' : Path}

/-- The directory holds files with such names only. -/
def HoldsOnly (names : Path → Prop) (s : NodeDir) : Prop := ∀ file ∈ s.files, names file.1

theorem HoldsOnly.write {names : Path → Prop} (h : HoldsOnly names s) (mem : names path)
    (content : FileContent) : HoldsOnly names (s.write path content) := by
  intro file hf
  rcases List.mem_cons.mp hf with rfl | rest
  · exact mem
  · exact h file (List.mem_filter.mp rest).1

theorem HoldsOnly.foldl {names : Path → Prop} {actions : List CryptoAction}
    (h : HoldsOnly names s) (mem : ∀ path, .writeFile path ∈ actions → names path) :
    HoldsOnly names (actions.foldl perform s) := by
  induction actions generalizing s with
  | nil => exact h
  | cons action actions ih =>
    refine ih ?_ fun path later => mem path (List.mem_cons_of_mem _ later)
    cases action with
    | ensureDir dir => exact h
    | request request => exact h
    | writeFile written => exact h.write (mem written List.mem_cons_self) .whole

theorem HoldsOnly.fail {names : Path → Prop} {action : CryptoAction} (h : HoldsOnly names s)
    (mem : ∀ path, action = .writeFile path → names path) (truncates : Bool) :
    HoldsOnly names (action.fail s truncates) := by
  unfold CryptoAction.fail
  split
  next written => exact h.write (mem written rfl) .truncated
  next => exact h

end

end FabricCommon
