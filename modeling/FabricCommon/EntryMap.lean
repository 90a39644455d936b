import FabricCommon.ListRules
import FabricCommon.PanicRun
import Mathlib.Data.List.Nodup

open PanicRun

universe u

/-- The own entries of an object, in their order. -/
structure EntryMap (κ α : Type u) where
  entries : List (κ × α)
  nodup : (entries.map Prod.fst).Nodup

namespace EntryMap

variable {κ α : Type u} {ε : Type*}

theorem ext_entries {map map' : EntryMap κ α} (same : map.entries = map'.entries) : map = map' := by
  cases map
  cases map'
  cases same
  rfl

variable [DecidableEq κ]

theorem map_fst_replaced (entries : List (κ × α)) (key : κ) (value : α) :
    (entries.map fun entry => if entry.1 = key then (key, value) else entry).map Prod.fst =
      entries.map Prod.fst := by
  rw [List.map_map]
  refine List.map_congr_left fun entry _ => ?_
  by_cases at_key : entry.1 = key
  · simp [at_key]
  · simp [at_key]

/-- An assignment to a key that is there. -/
def assign (map : EntryMap κ α) (key : κ) (value : α) : EntryMap κ α where
  entries := map.entries.map fun entry => if entry.1 = key then (key, value) else entry
  nodup := by
    rw [map_fst_replaced]
    exact map.nodup

/-- The loop that goes over the entries there are at its start, and assigns to each of their keys
what it makes of the value. -/
def translate (f : α → Except ε α) (map : EntryMap κ α) : Except ε (EntryMap κ α) :=
  map.entries.foldlM (fun map entry => do return map.assign entry.1 (← f entry.2)) map

variable {map map' : EntryMap κ α} {f : α → Except ε α}

theorem assign_entries {before after : List (κ × α)} {key : κ} {value value' : α}
    (split : map.entries = before ++ (key, value) :: after) :
    (map.assign key value').entries = before ++ (key, value') :: after := by
  have distinct := map.nodup
  rw [split, List.map_append, List.map_cons] at distinct
  have apart : key ∉ before.map Prod.fst ∧ key ∉ after.map Prod.fst := by
    have middle := List.nodup_middle.mp distinct
    simpa using (List.nodup_cons.mp middle).1
  have kept : ∀ entries : List (κ × α), key ∉ entries.map Prod.fst →
      (entries.map fun entry => if entry.1 = key then (key, value') else entry) = entries := by
    intro entries notMem
    conv_rhs => rw [← List.map_id entries]
    refine List.map_congr_left fun entry mem => ?_
    have differs : entry.1 ≠ key := fun same => notMem (same ▸ List.mem_map_of_mem mem)
    simp [differs]
  show map.entries.map _ = _
  rw [split, List.map_append, List.map_cons, kept before apart.1, kept after apart.2]
  simp

theorem foldlM_assign {before rest : List (κ × α)} (split : map.entries = before ++ rest) :
    rest.foldlM (fun map entry => do return map.assign entry.1 (← f entry.2)) map = .ok map' ↔
      ∃ rest', map'.entries = before ++ rest' ∧
        List.Forall₂ (fun entry entry' => entry.1 = entry'.1 ∧ f entry.2 = .ok entry'.2)
          rest rest' := by
  induction rest generalizing before map with
  | nil =>
    rw [List.foldlM_nil, pure_eq_ok]
    constructor
    · intro same
      exact ⟨[], by rw [← same, split], List.Forall₂.nil⟩
    · intro h
      obtain ⟨rest', held, related⟩ := h
      cases related
      exact ext_entries (by rw [split, held])
  | cons entry rest ih =>
    obtain ⟨key, value⟩ := entry
    have next : ∀ value', (map.assign key value').entries =
        (before ++ [(key, value')]) ++ rest := by
      intro value'
      rw [assign_entries split, List.append_assoc, List.singleton_append]
    simp only [List.foldlM_cons, bind_eq_ok, pure_eq_ok]
    constructor
    · intro h
      obtain ⟨_, ⟨value', read, rfl⟩, later⟩ := h
      obtain ⟨rest', held, related⟩ := (ih (next value')).mp later
      refine ⟨(key, value') :: rest', ?_, List.Forall₂.cons ⟨rfl, read⟩ related⟩
      rw [held, List.append_assoc, List.singleton_append]
    · intro h
      obtain ⟨_, held, related⟩ := h
      cases related with
      | cons first related =>
        rename_i entry' rest'
        obtain ⟨key', value'⟩ := entry'
        obtain ⟨same, read⟩ := first
        cases same
        refine ⟨_, ⟨value', read, rfl⟩, (ih (next value')).mpr ⟨rest', ?_, related⟩⟩
        rw [held, List.append_assoc, List.singleton_append]

/-- Since no two keys are the same, each entry is translated once, from the value that it had at the
start. -/
theorem translate_eq_ok :
    map.translate f = .ok map' ↔
      List.Forall₂ (fun entry entry' => entry.1 = entry'.1 ∧ f entry.2 = .ok entry'.2)
        map.entries map'.entries := by
  rw [translate, foldlM_assign (List.nil_append _).symm]
  simp

/-- What is left as it is when it is translated again. -/
theorem translate_settles (settles : ∀ value value', f value = .ok value' → f value' = .ok value')
    (run : map.translate f = .ok map') : map'.translate f = .ok map' := by
  rw [translate_eq_ok, List.forall₂_same]
  intro entry' mem
  obtain ⟨entry, -, -, read⟩ :=
    ListRules.exists_related_of_forall₂ (translate_eq_ok.mp run).flip mem
  exact ⟨rfl, settles _ _ read⟩

theorem returns_translate :
    Returns (map.translate f) ↔ ∀ entry ∈ map.entries, Returns (f entry.2) := by
  constructor
  · intro h entry mem
    obtain ⟨map', run⟩ := h
    obtain ⟨entry', -, related⟩ :=
      ListRules.exists_related_of_forall₂ (translate_eq_ok.mp run) mem
    exact ⟨_, related.2⟩
  · intro h
    have values : Returns (map.entries.mapM fun entry => do return (entry.1, ← f entry.2)) := by
      rw [returns_mapM]
      intro entry mem
      obtain ⟨value, read⟩ := h entry mem
      exact ⟨(entry.1, value), bind_eq_ok.mpr ⟨value, read, rfl⟩⟩
    obtain ⟨entries', run⟩ := values
    have related : List.Forall₂ (fun entry entry' => entry.1 = entry'.1 ∧
        f entry.2 = .ok entry'.2) map.entries entries' := by
      refine (mapM_eq_ok.mp run).imp fun entry entry' h => ?_
      obtain ⟨value, read, h⟩ := bind_eq_ok.mp h
      obtain rfl := pure_eq_ok.mp h
      exact ⟨rfl, read⟩
    have keys : map.entries.map Prod.fst = entries'.map Prod.fst := by
      rw [← List.forall₂_eq_eq_eq, List.forall₂_map_left_iff, List.forall₂_map_right_iff]
      exact related.imp fun _ _ h => h.1
    exact ⟨⟨entries', keys ▸ map.nodup⟩, translate_eq_ok.mpr related⟩

end EntryMap
