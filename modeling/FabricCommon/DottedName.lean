import Mathlib.Data.List.Basic

/-! Names made of parts with dots in between. -/

namespace DottedName

def IsPart (part : String) : Prop := part ≠ "" ∧ '.' ∉ part.toList

instance (part : String) : Decidable (IsPart part) := inferInstanceAs (Decidable (_ ∧ _))

def dotted (parts : List String) : String := ".".intercalate parts

theorem isPart_concat {parts : List String} {part : String}
    (arePart : ∀ part ∈ parts, IsPart part) (isPart : IsPart part) :
    ∀ p ∈ parts ++ [part], IsPart p := by
  intro p mem
  rcases List.mem_append.mp mem with mem | mem
  · exact arePart p mem
  · rw [List.mem_singleton.mp mem]
    exact isPart

theorem splitOn_dotted {parts : List String} (arePart : ∀ part ∈ parts, IsPart part)
    (some_part : parts ≠ []) : (dotted parts).toList.splitOn '.' = parts.map String.toList := by
  rw [dotted, String.toList_intercalate]
  refine List.splitOn_intercalate '.' ?_ ?_
  · intro piece mem
    obtain ⟨part, hp, rfl⟩ := List.mem_map.mp mem
    exact (arePart part hp).2
  · simpa using some_part

theorem dotted_ne_empty {parts : List String} (arePart : ∀ part ∈ parts, IsPart part)
    (some_part : parts ≠ []) : dotted parts ≠ "" := by
  intro empty
  have pieces := splitOn_dotted arePart some_part
  rw [empty] at pieces
  have single : parts.map String.toList = [[]] := pieces.symm
  obtain ⟨part, rfl, none_in⟩ := List.map_eq_singleton_iff.mp single
  exact (arePart part (by simp)).1 (String.toList_inj.mp none_in)

theorem dotted_injective {parts parts' : List String} (arePart : ∀ part ∈ parts, IsPart part)
    (arePart' : ∀ part ∈ parts', IsPart part) (same : dotted parts = dotted parts') :
    parts = parts' := by
  by_cases none_left : parts = []
  · subst none_left
    by_contra differ
    exact dotted_ne_empty arePart' (Ne.symm differ) same.symm
  · by_cases none_right : parts' = []
    · subst none_right
      exact absurd same (dotted_ne_empty arePart none_left)
    · have pieces := splitOn_dotted arePart none_left
      rw [same, splitOn_dotted arePart' none_right] at pieces
      exact (List.map_injective_iff.mpr fun a b => String.toList_inj.mp) pieces.symm

theorem dotted_concat {parts : List String} (some_part : parts ≠ []) (part : String) :
    dotted (parts ++ [part]) = dotted parts ++ "." ++ part := by
  rw [dotted, String.intercalate_append_of_ne_nil some_part (by simp),
    String.intercalate_singleton]
  rfl

end DottedName
