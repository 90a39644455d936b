import FabricCommon.PanicRun
import Mathlib.Logic.Function.Basic

namespace JsonEdit

open PanicRun

/-- A JSON value. An object is the partial map of its own keys, so the order of the keys is no part
of it. -/
inductive Json where
  | null
  | bool (value : Bool)
  | num (value : Rat)
  | str (value : String)
  | arr (items : List Json)
  | obj (fields : String → Option Json)

namespace Json

/-- Whether a condition takes the value for true. -/
def truthy : Json → Bool
  | .null => false
  | .bool value => value
  | .num value => value ≠ 0
  | .str value => value ≠ ""
  | .arr _ => true
  | .obj _ => true

/-- An object literal. -/
def object (fields : List (String × Json)) : Json := .obj fun key => fields.lookup key

end Json

abbrev JsonPath := List String

/-- What stands at a path: a value, or only that there is an object, since its fields have paths of
their own. -/
def part : JsonPath → Option Json → Option Json
  | [], some (.obj _) => some (.obj fun _ => none)
  | [], value => value
  | key :: path, some (.obj fields) => part path (fields key)
  | _ :: _, _ => none

variable {ε : Type}

/-- A change of what an object has under one key; `other` says whether a value that is no object
is let pass. -/
def atKey (other : Json → Except ε Unit) (key : String)
    (change : Option Json → Except ε (Option Json)) : Json → Except ε Json
  | .obj fields => do
    let value ← change (fields key)
    return .obj (Function.update fields key value)
  | json => do
    other json
    return json

/-- An edit of the value under a key, which has to be there. -/
def onValue (missing : ε) (edit : Json → Except ε Json) :
    Option Json → Except ε (Option Json)
  | some json => do
    let json' ← edit json
    return some json'
  | none => .error missing

def inside (missing : ε) (key : String) (edit : Json → Except ε Json) : Json → Except ε Json :=
  atKey (fun _ => .error missing) key (onValue missing edit)

def under (missing : ε) (path : JsonPath) (edit : Json → Except ε Json) : Json → Except ε Json :=
  path.foldr (inside missing) edit

/-- An edit that reads its way down a path and changes what is at its end. -/
inductive EditsAt : JsonPath → (Json → Except ε Json) → Prop
  | here (other : Json → Except ε Unit) (key : String)
      (change : Option Json → Except ε (Option Json)) : EditsAt [key] (atKey other key change)
  | inside (missing : ε) (key : String) {path : JsonPath} {edit : Json → Except ε Json} :
      EditsAt path edit → EditsAt (key :: path) (inside missing key edit)

/-- An edit made of edits at the given paths. -/
inductive Edits : List JsonPath → (Json → Except ε Json) → Prop
  | one {path : JsonPath} {edit : Json → Except ε Json} : EditsAt path edit → Edits [path] edit
  | next {paths paths' : List JsonPath} {edit edit' : Json → Except ε Json} :
      Edits paths edit → Edits paths' edit' → Edits (paths ++ paths') (edit >=> edit')
  | fails (paths : List JsonPath) (err : ε) : Edits paths fun _ => .error err

/-- Whatever two edits give one after the other, they give in the other order too. -/
def Swaps (edit edit' : Json → Except ε Json) : Prop :=
  ∀ json json₁ json₂, edit json = .ok json₁ → edit' json₁ = .ok json₂ →
    ∃ json₁', edit' json = .ok json₁' ∧ edit json₁' = .ok json₂

/-- Two edits succeed in one order when they do in the other, with one result. -/
def Commutes (edit edit' : Json → Except ε Json) : Prop := Swaps edit edit' ∧ Swaps edit' edit

/-- What has been made once stays as it is when it is made again. -/
def Settles {α : Type} (make : α → Except ε α) : Prop :=
  ∀ a b, make a = .ok b → make b = .ok b

variable {other other' : Json → Except ε Unit} {key key' : String}
  {change change' : Option Json → Except ε (Option Json)} {missing missing' : ε}
  {edit edit' later : Json → Except ε Json} {json json' : Json} {path path' : JsonPath}
  {paths paths' : List JsonPath}

theorem atKey_plain (plain : ∀ fields, json ≠ .obj fields) :
    atKey other key change json = .ok json' ↔ other json = .ok () ∧ json' = json := by
  have same : atKey other key change json = other json >>= fun _ => pure json := by
    cases json with
    | obj fields => exact absurd rfl (plain fields)
    | _ => rfl
  rw [same, bind_eq_ok]
  constructor
  · intro h
    obtain ⟨⟨⟩, passed, returned⟩ := h
    exact ⟨passed, (pure_eq_ok.mp returned).symm⟩
  · intro h
    obtain ⟨passed, rfl⟩ := h
    exact ⟨⟨⟩, passed, rfl⟩

theorem atKey_obj {fields : String → Option Json} :
    atKey other key change (.obj fields) = .ok json' ↔
      ∃ value, change (fields key) = .ok value ∧
        json' = .obj (Function.update fields key value) := by
  simp only [atKey, bind_eq_ok, pure_eq_ok, @eq_comm _ json']

theorem atKey_eq_ok :
    atKey other key change json = .ok json' ↔
      (∃ fields value, json = .obj fields ∧ change (fields key) = .ok value ∧
        json' = .obj (Function.update fields key value)) ∨
      ((∀ fields, json ≠ .obj fields) ∧ other json = .ok () ∧ json' = json) := by
  by_cases isObject : ∃ fields, json = .obj fields
  · obtain ⟨fields, rfl⟩ := isObject
    simp [atKey_obj]
  · have plain : ∀ fields, json ≠ .obj fields := not_exists.mp isObject
    rw [atKey_plain plain]
    simp [plain]

theorem onValue_eq_ok {value value' : Option Json} :
    onValue missing edit value = .ok value' ↔
      ∃ child child', value = some child ∧ edit child = .ok child' ∧ value' = some child' := by
  cases value with
  | none => simp [onValue]
  | some child =>
    simp only [onValue, bind_eq_ok, pure_eq_ok]
    constructor
    · intro h
      obtain ⟨child', edited, rfl⟩ := h
      exact ⟨child, child', rfl, edited, rfl⟩
    · intro h
      obtain ⟨_, child', same, edited, rfl⟩ := h
      cases same
      exact ⟨child', edited, rfl⟩

theorem inside_eq_ok :
    inside missing key edit json = .ok json' ↔
      ∃ fields child child', json = .obj fields ∧ fields key = some child ∧
        edit child = .ok child' ∧ json' = .obj (Function.update fields key (some child')) := by
  rw [inside, atKey_eq_ok]
  constructor
  · intro h
    rcases h with h | h
    · obtain ⟨fields, value, rfl, made, rfl⟩ := h
      obtain ⟨child, child', held, edited, rfl⟩ := onValue_eq_ok.mp made
      exact ⟨fields, child, child', rfl, held, edited, rfl⟩
    · exact absurd h.2.1 (by simp)
  · intro h
    obtain ⟨fields, child, child', rfl, held, edited, rfl⟩ := h
    exact Or.inl ⟨fields, some child', rfl,
      onValue_eq_ok.mpr ⟨child, child', held, edited, rfl⟩, rfl⟩

theorem EditsAt.under (edits : EditsAt path' edit) (missing : ε) (path : JsonPath) :
    EditsAt (path ++ path') (under missing path edit) := by
  induction path with
  | nil => exact edits
  | cons key path ih => exact EditsAt.inside missing key ih

section Locality

theorem EditsAt.part_eq (edits : EditsAt path edit) (ran : edit json = .ok json') {place : JsonPath}
    (apart : ¬ path <+: place) : part place (some json') = part place (some json) := by
  induction edits generalizing json json' place with
  | here other key change =>
    rcases atKey_eq_ok.mp ran with h | h
    · obtain ⟨fields, value, rfl, made, rfl⟩ := h
      cases place with
      | nil => rfl
      | cons head rest =>
        have differ : head ≠ key := by
          intro same
          subst same
          exact apart (List.prefix_append [head] rest)
        show part rest (Function.update fields key value head) = part rest (fields head)
        rw [Function.update_of_ne differ]
    · rw [h.2.2]
  | inside missing key edits ih =>
    obtain ⟨fields, child, child', rfl, held, edited, rfl⟩ := inside_eq_ok.mp ran
    cases place with
    | nil => rfl
    | cons head rest =>
      show part rest (Function.update fields key (some child') head) = part rest (fields head)
      by_cases same : head = key
      · subst same
        have below : ¬ _ <+: rest := fun h => apart (List.cons_prefix_cons.mpr ⟨rfl, h⟩)
        rw [Function.update_self, held]
        exact ih edited below
      · rw [Function.update_of_ne same]

theorem Edits.part_eq (edits : Edits paths edit) (ran : edit json = .ok json') {place : JsonPath}
    (apart : ∀ path ∈ paths, ¬ path <+: place) :
    part place (some json') = part place (some json) := by
  induction edits generalizing json json' with
  | one edits => exact edits.part_eq ran (apart _ (List.mem_singleton_self _))
  | next first second ih ih' =>
    obtain ⟨between, before, after⟩ := bind_eq_ok.mp ran
    rw [ih' after fun path member => apart path (List.mem_append_right _ member),
      ih before fun path member => apart path (List.mem_append_left _ member)]
  | fails paths err => exact absurd ran (by simp)

end Locality

section Commutation

theorem swaps_of_keys_ne (differ : key ≠ key') :
    Swaps (atKey other key change) (atKey other' key' change') := by
  intro json json₁ json₂ first second
  rcases atKey_eq_ok.mp first with h | h
  · obtain ⟨fields, value, rfl, made, rfl⟩ := h
    obtain ⟨value', made', rfl⟩ := atKey_obj.mp second
    rw [Function.update_of_ne differ.symm] at made'
    refine ⟨.obj (Function.update fields key' value'), atKey_obj.mpr ⟨value', made', rfl⟩, ?_⟩
    refine atKey_obj.mpr ⟨value, ?_, ?_⟩
    · rw [Function.update_of_ne differ]
      exact made
    · rw [Function.update_comm differ]
  · obtain ⟨plain, passed, rfl⟩ := h
    obtain ⟨passed', rfl⟩ := (atKey_plain plain).mp second
    exact ⟨json₂, (atKey_plain plain).mpr ⟨passed', rfl⟩, first⟩

theorem Swaps.inside (swaps : Swaps edit edit') :
    Swaps (inside missing key edit) (inside missing' key edit') := by
  intro json json₁ json₂ first second
  obtain ⟨fields, child, child₁, rfl, held, edited, rfl⟩ := inside_eq_ok.mp first
  obtain ⟨_, _, child₂, same, held', edited', rfl⟩ := inside_eq_ok.mp second
  cases Json.obj.inj same
  rw [Function.update_self] at held'
  cases Option.some.inj held'
  obtain ⟨child₁', before, after⟩ := swaps child child₁ child₂ edited edited'
  refine ⟨.obj (Function.update fields key (some child₁')),
    inside_eq_ok.mpr ⟨fields, child, child₁', rfl, held, before, rfl⟩, ?_⟩
  refine inside_eq_ok.mpr ⟨_, child₁', child₂, rfl, Function.update_self .., after, ?_⟩
  rw [Function.update_idem, Function.update_idem]

theorem EditsAt.swaps (edits : EditsAt path edit) (edits' : EditsAt path' edit')
    (apart : ¬ path <+: path') (apart' : ¬ path' <+: path) : Swaps edit edit' := by
  induction edits generalizing path' edit' with
  | here other key change =>
    have differ : ∀ rest, path' ≠ key :: rest := by
      intro rest same
      subst same
      exact apart (List.prefix_append [key] rest)
    cases edits' with
    | here other' key' change' => exact swaps_of_keys_ne fun same => differ [] (by rw [same])
    | inside missing' key' edits' =>
      exact swaps_of_keys_ne fun same => differ _ (by rw [same])
  | inside missing key edits ih =>
    cases edits' with
    | here other' key' change' =>
      refine swaps_of_keys_ne fun same => apart' ?_
      rw [same]
      exact List.prefix_append [key'] _
    | inside missing' key' edits' =>
      by_cases same : key = key'
      · subst same
        apply Swaps.inside
        apply ih edits'
        · exact fun h => apart (List.cons_prefix_cons.mpr ⟨rfl, h⟩)
        · exact fun h => apart' (List.cons_prefix_cons.mpr ⟨rfl, h⟩)
      · exact swaps_of_keys_ne same

theorem Commutes.symm (commutes : Commutes edit edit') : Commutes edit' edit :=
  ⟨commutes.2, commutes.1⟩

theorem Commutes.next (first : Commutes edit later) (second : Commutes edit' later) :
    Commutes (edit >=> edit') later := by
  constructor
  · intro json json₁ json₂ ran ran'
    obtain ⟨between, before, after⟩ := bind_eq_ok.mp ran
    obtain ⟨between₁, moved, rest⟩ := second.1 between json₁ json₂ after ran'
    obtain ⟨between₂, moved', rest'⟩ := first.1 json between between₁ before moved
    exact ⟨between₂, moved', bind_eq_ok.mpr ⟨between₁, rest', rest⟩⟩
  · intro json json₁ json₂ ran ran'
    obtain ⟨between, before, after⟩ := bind_eq_ok.mp ran'
    obtain ⟨between₁, moved, rest⟩ := first.2 json json₁ between ran before
    obtain ⟨between₂, moved', rest'⟩ := second.2 between₁ between json₂ rest after
    exact ⟨between₂, bind_eq_ok.mpr ⟨between₁, moved, moved'⟩, rest'⟩

theorem commutes_fails (err : ε) : Commutes (fun _ => .error err) edit := by
  constructor
  · intro json json₁ json₂ ran
    exact absurd ran (by simp)
  · intro json json₁ json₂ _ ran
    exact absurd ran (by simp)

theorem Commutes.eq_ok (commutes : Commutes edit edit') :
    edit json >>= edit' = .ok json' ↔ edit' json >>= edit = .ok json' := by
  rw [bind_eq_ok, bind_eq_ok]
  constructor
  · intro h
    obtain ⟨between, before, after⟩ := h
    exact commutes.1 json between json' before after
  · intro h
    obtain ⟨between, before, after⟩ := h
    exact commutes.2 json between json' before after

theorem Edits.commutes_one (edits : Edits paths edit) (edits' : EditsAt path' edit')
    (apart : ∀ path ∈ paths, ¬ path <+: path' ∧ ¬ path' <+: path) : Commutes edit edit' := by
  induction edits with
  | one edits =>
    have here := apart _ (List.mem_singleton_self _)
    exact ⟨edits.swaps edits' here.1 here.2, edits'.swaps edits here.2 here.1⟩
  | next first second ih ih' =>
    apply Commutes.next
    · exact ih fun path member => apart path (List.mem_append_left _ member)
    · exact ih' fun path member => apart path (List.mem_append_right _ member)
  | fails paths err => exact commutes_fails err

theorem Edits.commutes (edits : Edits paths edit) (edits' : Edits paths' edit')
    (apart : ∀ path ∈ paths, ∀ path' ∈ paths', ¬ path <+: path' ∧ ¬ path' <+: path) :
    Commutes edit edit' := by
  induction edits' with
  | one edits' =>
    exact edits.commutes_one edits' fun path member =>
      apart path member _ (List.mem_singleton_self _)
  | next first second ih ih' =>
    apply Commutes.symm
    apply Commutes.next
    · exact (ih fun path member path' member' =>
        apart path member path' (List.mem_append_left _ member')).symm
    · exact (ih' fun path member path' member' =>
        apart path member path' (List.mem_append_right _ member')).symm
  | fails paths err => exact (commutes_fails err).symm

end Commutation

section Idempotence

theorem Settles.bind_self {α : Type} {make : α → Except ε α} (settles : Settles make) (a : α) :
    make a >>= make = make a := by
  cases made : make a with
  | error err => rfl
  | ok b => exact settles a b made

theorem Settles.atKey (settles : Settles change) : Settles (atKey other key change) := by
  intro json json' ran
  rcases atKey_eq_ok.mp ran with h | h
  · obtain ⟨fields, value, rfl, made, rfl⟩ := h
    refine atKey_obj.mpr ⟨value, ?_, ?_⟩
    · rw [Function.update_self]
      exact settles (fields key) value made
    · rw [Function.update_idem]
  · obtain ⟨plain, passed, rfl⟩ := h
    exact ran

theorem Settles.inside (settles : Settles edit) : Settles (inside missing key edit) := by
  apply Settles.atKey
  intro value value' made
  obtain ⟨child, child', rfl, edited, rfl⟩ := onValue_eq_ok.mp made
  exact onValue_eq_ok.mpr ⟨child', child', rfl, settles child child' edited, rfl⟩

theorem Settles.under (settles : Settles edit) (missing : ε) (path : JsonPath) :
    Settles (under missing path edit) := by
  induction path with
  | nil => exact settles
  | cons key path ih => exact ih.inside

theorem Settles.next (first : Settles edit) (second : Settles edit')
    (swaps : Swaps edit edit') : Settles (edit >=> edit') := by
  intro json json' ran
  obtain ⟨between, before, after⟩ := bind_eq_ok.mp ran
  obtain ⟨between', _, last⟩ := swaps json between json' before after
  exact bind_eq_ok.mpr ⟨json', first between' json' last, second between json' after⟩

/-- An edit that finds what it would make leaves the object as it is. -/
theorem atKey_of_held {fields : String → Option Json}
    (held : change (fields key) = .ok (fields key)) :
    atKey other key change (.obj fields) = .ok (.obj fields) := by
  refine atKey_obj.mpr ⟨fields key, held, ?_⟩
  rw [Function.update_eq_self]

theorem inside_of_held {fields : String → Option Json} {child : Json}
    (found : fields key = some child) (held : edit child = .ok child) :
    inside missing key edit (.obj fields) = .ok (.obj fields) := by
  apply atKey_of_held
  rw [found]
  exact onValue_eq_ok.mpr ⟨child, child, rfl, held, rfl⟩

end Idempotence

section Focus

/-- What stands at a path through objects. -/
def valueAt : JsonPath → Json → Option Json
  | [], json => some json
  | key :: path, .obj fields => (fields key).bind (valueAt path)
  | _ :: _, _ => none

/-- Replace what stands at a path. -/
def put (child : Json) : JsonPath → Json → Json
  | [], _ => child
  | key :: path, .obj fields =>
    .obj (Function.update fields key ((fields key).map (put child path)))
  | _ :: _, json => json

variable {child child' : Json}

theorem valueAt_cons (found : valueAt (key :: path) json = some child) :
    ∃ fields next, json = .obj fields ∧ fields key = some next ∧
      valueAt path next = some child := by
  cases json with
  | obj fields =>
    obtain ⟨next, held, below⟩ := Option.bind_eq_some_iff.mp found
    exact ⟨fields, next, rfl, held, below⟩
  | _ => cases found

theorem valueAt_append (path path' : JsonPath) (json : Json) :
    valueAt (path ++ path') json = (valueAt path json).bind (valueAt path') := by
  induction path generalizing json with
  | nil => rfl
  | cons key path ih =>
    cases json with
    | obj fields =>
      show (fields key).bind (valueAt (path ++ path')) = ((fields key).bind (valueAt path)).bind _
      rw [Option.bind_assoc]
      exact congrArg _ (funext ih)
    | _ => rfl

theorem put_cons {fields : String → Option Json} {next : Json} (held : fields key = some next) :
    put child (key :: path) (.obj fields) =
      .obj (Function.update fields key (some (put child path next))) := by
  simp only [put, held, Option.map_some]

theorem valueAt_put (found : valueAt path json = some child) :
    valueAt path (put child' path json) = some child' := by
  induction path generalizing json with
  | nil => rfl
  | cons key path ih =>
    obtain ⟨fields, next, rfl, held, below⟩ := valueAt_cons found
    rw [put_cons held]
    simp only [valueAt, Function.update_self, Option.bind_some, ih below]

theorem put_put (found : valueAt path json = some child) {a b : Json} :
    put b path (put a path json) = put b path json := by
  induction path generalizing json with
  | nil => rfl
  | cons key path ih =>
    obtain ⟨fields, next, rfl, held, below⟩ := valueAt_cons found
    rw [put_cons held, put_cons held, put_cons (Function.update_self ..), ih below,
      Function.update_idem]

theorem put_self (found : valueAt path json = some child) : put child path json = json := by
  induction path generalizing json with
  | nil => exact (Option.some.inj found).symm
  | cons key path ih =>
    obtain ⟨fields, next, rfl, held, below⟩ := valueAt_cons found
    rw [put_cons held, ih below, ← held, Function.update_eq_self]

/-- An edit below a path is an edit of what stands there. -/
theorem under_eq_ok (found : valueAt path json = some child) :
    under missing path edit json = .ok json' ↔
      ∃ child', edit child = .ok child' ∧ json' = put child' path json := by
  induction path generalizing json json' with
  | nil =>
    cases Option.some.inj found
    simp [under, put]
  | cons key path ih =>
    obtain ⟨fields, next, rfl, held, below⟩ := valueAt_cons found
    show inside missing key (under missing path edit) (.obj fields) = .ok json' ↔ _
    rw [inside_eq_ok]
    constructor
    · intro h
      obtain ⟨_, next', _, same, held', edited, rfl⟩ := h
      cases Json.obj.inj same
      cases held.symm.trans held'
      obtain ⟨child', made, rfl⟩ := (ih below).mp edited
      exact ⟨child', made, (put_cons held).symm⟩
    · intro h
      obtain ⟨child', made, rfl⟩ := h
      exact ⟨fields, next, _, rfl, held, (ih below).mpr ⟨child', made, rfl⟩, put_cons held⟩

theorem edit_ran_of_under (ran : under missing path edit json = .ok json') :
    ∃ child child', edit child = .ok child' := by
  induction path generalizing json json' with
  | nil => exact ⟨json, json', ran⟩
  | cons key path ih =>
    obtain ⟨_, _, _, _, _, below, _⟩ := inside_eq_ok.mp ran
    exact ih below

end Focus

end JsonEdit
