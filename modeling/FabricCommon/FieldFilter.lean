import Mathlib.Data.List.Basic
import Mathlib.Data.List.Induction
import Mathlib.Logic.Function.Basic

namespace FieldFilter

variable {κ γ ν : Type*} {sat : γ → ν → Prop}

/-- What a filter asks of the value under one key. -/
def Allows (sat : γ → ν → Prop) (cond : Option γ) (value : ν) : Prop :=
  ∀ c, cond = some c → sat c value

/-- A filter is the conjunction of its conditions, one for each of its keys. -/
def Matches (sat : γ → ν → Prop) (filter : κ → Option γ) (doc : κ → ν) : Prop :=
  ∀ key, Allows sat (filter key) (doc key)

@[simp] theorem allows_none {value : ν} : Allows sat none value := by
  intro c held
  cases held

@[simp] theorem allows_some {c : γ} {value : ν} : Allows sat (some c) value ↔ sat c value := by
  constructor
  · intro h
    exact h c rfl
  · intro h c' same
    cases same
    exact h

/-- Two products of sets with the same members have the same factors, if no factor of the first one
is empty. -/
theorem factors_eq [DecidableEq κ] {A B : κ → ν → Prop} (inhabited : ∀ key, ∃ value, A key value)
    (same : ∀ doc : κ → ν, (∀ key, A key (doc key)) ↔ ∀ key, B key (doc key)) (key : κ)
    (value : ν) : A key value ↔ B key value := by
  choose some_doc held using inhabited
  have swapped : ∀ {P : κ → ν → Prop}, (∀ k, P k (some_doc k)) →
      ((∀ k, P k (Function.update some_doc key value k)) ↔ P key value) := by
    intro P all
    constructor
    · intro h
      simpa using h key
    · intro h k
      by_cases at_key : k = key
      · subst at_key
        simpa using h
      · rw [Function.update_of_ne at_key]
        exact all k
  rw [← swapped held, ← swapped ((same some_doc).mp held)]
  exact same _

section Overwriting

variable [DecidableEq κ]

/-- One condition put in under each of the keys, whatever stood there. -/
def overwrite (cond : γ) (filter : κ → Option γ) (keys : List κ) : κ → Option γ :=
  keys.foldl (fun filter key => Function.update filter key (some cond)) filter

variable {cond : γ} {filter : κ → Option γ} {keys used : List κ} {key : κ}

theorem overwrite_append (cond : γ) (filter : κ → Option γ) (keys keys' : List κ) :
    overwrite cond filter (keys ++ keys') = overwrite cond (overwrite cond filter keys) keys' :=
  List.foldl_append

theorem overwrite_apply :
    overwrite cond filter keys key = if key ∈ keys then some cond else filter key := by
  induction keys using List.reverseRecOn with
  | nil => simp [overwrite]
  | append_singleton keys last ih =>
    rw [overwrite_append]
    show Function.update (overwrite cond filter keys) last (some cond) key = _
    by_cases at_last : key = last
    · simp [at_last]
    · rw [Function.update_of_ne at_last, ih]
      simp [at_last]

/-- Overwriting at the keys in use has asked what the filter asks and the condition at the wanted
keys: some other key of the filter lets nothing through, or no condition that was overwritten asked
for more, and at the keys that are not wanted for less either. -/
def Keeps (sat : γ → ν → Prop) (cond : γ) (filter : κ → Option γ) (used keys : List κ) : Prop :=
  (∃ key ∉ used, ∃ c, filter key = some c ∧ ∀ value, ¬ sat c value) ∨
    ((∀ key ∈ keys, ∀ c, filter key = some c → ∀ value, sat cond value → sat c value) ∧
      ∀ key ∈ used, key ∉ keys →
        ∃ c, filter key = some c ∧ ∀ value, sat c value ↔ sat cond value)

/-- If no key that stays is blocked, every key lets some value through. -/
theorem exists_allowed (inhabited : ∃ value, sat cond value)
    (unblocked : ¬ ∃ key ∉ used, ∃ c, filter key = some c ∧ ∀ value, ¬ sat c value) (key : κ) :
    ∃ value, Allows sat (if key ∈ used then some cond else filter key) value := by
  by_cases use : key ∈ used
  · simpa [use] using inhabited
  · by_contra shut
    have none_allowed : ∀ value, ¬ Allows sat (filter key) value := by
      simpa [use] using shut
    cases held : filter key with
    | none =>
      obtain ⟨value, -⟩ := inhabited
      exact none_allowed value (by simp [held])
    | some c =>
      refine unblocked ⟨key, use, c, held, fun value sats => none_allowed value ?_⟩
      simpa [held] using sats

/-- Key by key, overwriting asks what is wanted exactly when it drops and adds nothing. -/
theorem allows_overwritten_iff (selective : ∃ value, ¬ sat cond value)
    (wanted : ∀ key ∈ keys, key ∈ used) :
    (∀ key value, Allows sat (if key ∈ used then some cond else filter key) value ↔
      Allows sat (filter key) value ∧ (key ∈ keys → sat cond value)) ↔
      (∀ key ∈ keys, ∀ c, filter key = some c → ∀ value, sat cond value → sat c value) ∧
        ∀ key ∈ used, key ∉ keys →
          ∃ c, filter key = some c ∧ ∀ value, sat c value ↔ sat cond value := by
  constructor
  · intro same
    refine ⟨fun key sorted c held value sats => ?_, fun key use unsorted => ?_⟩
    · have allowed := ((same key value).mp (by simpa [wanted key sorted] using sats)).1
      rw [held, allows_some] at allowed
      exact allowed
    · have condition : ∀ value, sat cond value ↔ Allows sat (filter key) value := by
        intro value
        simpa [use, unsorted] using same key value
      cases held : filter key with
      | none =>
        obtain ⟨value, refused⟩ := selective
        exact absurd ((condition value).mpr (by simp [held])) refused
      | some c => exact ⟨c, rfl, fun value => by simp [condition value, held]⟩
  · intro kept key value
    by_cases use : key ∈ used
    · rw [if_pos use, allows_some]
      by_cases sorted : key ∈ keys
      · constructor
        · intro sats
          exact ⟨fun c held => kept.1 key sorted c held value sats, fun _ => sats⟩
        · intro both
          exact both.2 sorted
      · obtain ⟨c, held, alike⟩ := kept.2 key use sorted
        simp [held, alike value, sorted]
    · have unsorted : key ∉ keys := fun sorted => use (wanted key sorted)
      simp [use, unsorted]

theorem matches_overwrite_iff (inhabited : ∃ value, sat cond value)
    (selective : ∃ value, ¬ sat cond value) (wanted : ∀ key ∈ keys, key ∈ used) :
    (∀ doc : κ → ν, Matches sat (overwrite cond filter used) doc ↔
      Matches sat filter doc ∧ ∀ key ∈ keys, sat cond (doc key)) ↔
      Keeps sat cond filter used keys := by
  -- both sides ask for something of each value by itself
  have factored : ∀ doc : κ → ν, (Matches sat filter doc ∧ ∀ key ∈ keys, sat cond (doc key)) ↔
      ∀ key, Allows sat (filter key) (doc key) ∧ (key ∈ keys → sat cond (doc key)) :=
    fun doc => forall_and.symm
  simp only [factored]
  simp only [Matches, overwrite_apply]
  by_cases blocked : ∃ key ∉ used, ∃ c, filter key = some c ∧ ∀ value, ¬ sat c value
  · refine iff_of_true (fun doc => ?_) (Or.inl blocked)
    obtain ⟨key, unused, c, held, never⟩ := blocked
    refine iff_of_false (fun all => ?_) (fun all => ?_)
    · have allowed := all key
      rw [if_neg unused, held, allows_some] at allowed
      exact never _ allowed
    · exact never _ ((all key).1 c held)
  · rw [Keeps, or_iff_right blocked, ← allows_overwritten_iff selective wanted]
    constructor
    · exact fun same => factors_eq (exists_allowed inhabited blocked) same
    · exact fun same doc => forall_congr' fun key => same key (doc key)

end Overwriting

end FieldFilter
