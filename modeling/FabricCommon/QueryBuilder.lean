import FabricCommon.FieldFilter
import FabricCommon.JsonEdit
import FabricCommon.StepRun

namespace FabricCommon

open FieldFilter (Allows Keeps Matches overwrite)
open JsonEdit (Json)

abbrev Fields := String → Option Json

/-- The condition that a sort column is given. -/
def notNull : Json := .object [("$gt", .null)]

def directions : List String := ["asc", "desc"]

/-- The sort order, and the selector as the object passed in is left. -/
structure Sorting where
  sort : List Json
  selector : Fields

def Sorting.addColumn (direction : Nat) (s : Sorting) (sortCol : String) : Sorting where
  -- a direction that there is not is undefined, and no part of the text
  sort := s.sort ++
    [.obj (Function.update (fun _ => none) sortCol ((directions[direction]?).map Json.str))]
  selector := Function.update s.selector sortCol (some notNull)

/-- The query as its text reads, and the caller's selector object afterwards. -/
def queryBuilder (selector : Fields := fun _ => none) (sorts : List String := [])
    (direction : Nat := 0) (limit : Rat := 25) : Json × Fields :=
  let sorting := sorts.foldl (Sorting.addColumn direction) ⟨[], selector⟩
  let query := Json.object
    [("selector", .obj sorting.selector), ("sort", .arr sorting.sort), ("limit", .num limit)]
  (query, sorting.selector)

/-- The arguments of one call beside the selector. -/
structure QueryCall where
  sorts : List String
  direction : Nat
  limit : Rat

def QueryCall.build (selector : Fields) (call : QueryCall) : Json × Fields :=
  queryBuilder selector call.sorts call.direction call.limit

/-- The caller's object after the calls that it was reused for. -/
def reused (selector : Fields) (calls : List QueryCall) : Fields :=
  calls.foldl (fun selector call => (call.build selector).2) selector

def sortedBy (calls : List QueryCall) : List String := calls.flatMap QueryCall.sorts

/-- A document by its fields, which the conditions of the selector in a query are about. -/
def Selects (sat : Json → Option Json → Prop) (query : Json) (doc : Fields) : Prop :=
  ∃ fields selector, query = .obj fields ∧ fields "selector" = some (.obj selector) ∧
    Matches sat selector doc

def NonNull (value : Option Json) : Prop := ∃ json, value = some json ∧ json ≠ .null

theorem Sorting.addColumns_selector (direction : Nat) (s : Sorting) (sorts : List String) :
    (sorts.foldl (addColumn direction) s).selector = overwrite notNull s.selector sorts := by
  induction sorts generalizing s with
  | nil => rfl
  | cons sortCol sorts ih => exact ih (s.addColumn direction sortCol)

theorem QueryCall.build_selector (selector : Fields) (call : QueryCall) :
    (call.build selector).2 = overwrite notNull selector call.sorts :=
  Sorting.addColumns_selector call.direction ⟨[], selector⟩ call.sorts

theorem reused_eq (selector : Fields) (calls : List QueryCall) :
    reused selector calls = overwrite notNull selector (sortedBy calls) := by
  induction calls generalizing selector with
  | nil => rfl
  | cons call calls ih =>
    calc reused selector (call :: calls)
        = reused (overwrite notNull selector call.sorts) calls := by
          rw [← QueryCall.build_selector]
          rfl
      _ = overwrite notNull (overwrite notNull selector call.sorts) (sortedBy calls) := ih _
      _ = overwrite notNull selector (sortedBy (call :: calls)) :=
          (FieldFilter.overwrite_append notNull selector call.sorts (sortedBy calls)).symm

section

variable {sat : Json → Option Json → Prop}

theorem QueryCall.selects_build (selector : Fields) (call : QueryCall) (doc : Fields) :
    Selects sat (call.build selector).1 doc ↔
      Matches sat (overwrite notNull selector call.sorts) doc := by
  rw [← build_selector]
  constructor
  · intro h
    obtain ⟨fields, selector', written, held, matched⟩ := h
    cases written
    cases held
    exact matched
  · intro matched
    exact ⟨_, _, rfl, rfl, matched⟩

/-- The built query asks what the caller asked, and a value in each sort column. -/
def Faithful (sat : Json → Option Json → Prop) (selector : Fields) (call : QueryCall)
    (query : Json) : Prop :=
  ∀ doc, Selects sat query doc ↔ Matches sat selector doc ∧ ∀ col ∈ call.sorts, NonNull (doc col)

/-- Whatever the calls before it have left in the caller's object, this call asks the same. -/
def QueryCall.KeepsSelector (sat : Json → Option Json → Prop) (selector : Fields)
    (before : List QueryCall) (call : QueryCall) : Prop :=
  Keeps sat notNull selector (sortedBy before ++ call.sorts) call.sorts

theorem QueryCall.faithful_iff (greaterNull : ∀ value, sat notNull value ↔ NonNull value)
    (selector : Fields) (before : List QueryCall) (call : QueryCall) :
    Faithful sat selector call (call.build (reused selector before)).1 ↔
      call.KeepsSelector sat selector before := by
  have inhabited : ∃ value, sat notNull value :=
    ⟨some (.bool true), (greaterNull _).mpr ⟨_, rfl, by simp⟩⟩
  have selective : ∃ value, ¬ sat notNull value :=
    ⟨none, fun sats => by simpa [NonNull] using (greaterNull none).mp sats⟩
  rw [KeepsSelector, ← FieldFilter.matches_overwrite_iff inhabited selective
    fun col sorted => List.mem_append_right _ sorted]
  refine forall_congr' fun doc => ?_
  rw [selects_build, reused_eq, ← FieldFilter.overwrite_append]
  simp only [greaterNull]

/-- The queries built from one selector object, call after call. -/
theorem queryBuilder_faithful_iff (greaterNull : ∀ value, sat notNull value ↔ NonNull value)
    (selector : Fields) (calls : List QueryCall) :
    StepRun.EachAfter
        (fun before call => Faithful sat selector call (call.build (reused selector before)).1)
        calls ↔
      StepRun.EachAfter (fun before call => call.KeepsSelector sat selector before) calls := by
  unfold StepRun.EachAfter
  simp only [QueryCall.faithful_iff greaterNull]

end

/-- Of the conditions, the bound that every value but null is above, and equality. -/
inductive Meets : Json → Option Json → Prop
  | aboveNull (value : Json) : value ≠ .null → Meets notNull (some value)
  | equal (value : Json) : value ≠ notNull → Meets value (some value)

theorem meets_notNull (value : Option Json) : Meets notNull value ↔ NonNull value := by
  constructor
  · intro h
    cases h with
    | aboveNull value solid => exact ⟨value, rfl, solid⟩
    | equal value other => exact absurd rfl other
  · intro h
    obtain ⟨json, rfl, solid⟩ := h
    exact Meets.aboveNull json solid

theorem meets_str {a b : String} (h : Meets (.str a) (some (.str b))) : a = b := by
  cases h with
  | equal => rfl

/-- The caller asks for one colour. -/
def colored (color : String) : Fields := Function.update (fun _ => none) "color" (some (.str color))

/-- Sorting by another column keeps the colour in the query, in every call. -/
theorem queryBuilder_faithful_size :
    StepRun.EachAfter
      (fun before call => Faithful Meets (colored "red") call
        (call.build (reused (colored "red") before)).1)
      [⟨["size"], 0, 25⟩, ⟨["size"], 1, 25⟩] := by
  refine (queryBuilder_faithful_iff meets_notNull (colored "red") _).mpr ?_
  intro before call after split
  right
  have sizes : ∀ call ∈ [⟨["size"], 0, 25⟩, (⟨["size"], 1, 25⟩ : QueryCall)],
      call.sorts = ["size"] := by simp
  have sorts := sizes call (by simp [split])
  constructor
  · intro col sorted c held
    have at_size : col = "size" := by simpa [sorts] using sorted
    rw [at_size] at held
    exact absurd held (by simp [colored])
  · intro col used unsorted
    have of_before : ∃ call ∈ before, col ∈ call.sorts := by
      simpa [sortedBy, unsorted] using used
    obtain ⟨earlier, mem, sorted⟩ := of_before
    rw [sizes earlier (by simp [split, mem])] at sorted
    exact absurd sorted (by rwa [sorts] at unsorted)

/-- Sorted by the colour too, the query for what is red selects what is blue. -/
theorem queryBuilder_loosens :
    ¬ StepRun.EachAfter
      (fun before call => Faithful Meets (colored "red") call
        (call.build (reused (colored "red") before)).1)
      [⟨["color"], 0, 25⟩] := by
  intro faithful
  have blue : Selects Meets (queryBuilder (colored "red") ["color"] 0 25).1 (colored "blue") := by
    refine ⟨_, _, rfl, rfl, fun col c held => ?_⟩
    by_cases at_color : col = "color"
    · subst at_color
      have same : c = notNull := by simpa [Sorting.addColumn, eq_comm] using held
      rw [same]
      exact Meets.aboveNull _ (by simp)
    · simp [Sorting.addColumn, colored, at_color] at held
  have matched := ((faithful [] _ [] rfl (colored "blue")).mp blue).1
  have red : Meets (.str "red") (some (.str "blue")) := by
    simpa [colored] using matched "color" (.str "red") (by simp [colored])
  exact absurd (meets_str red) (by decide)

end FabricCommon
