import FabricCommon.CaEnrolment
import FabricCommon.DottedName

namespace FabricCommon

open DottedName RequestRun

/-- An affiliation in the CA's answer to a listing: its full name, and its list if it has one. -/
inductive AffiliationNode where
  | node (name : String) (affiliations : Option (List AffiliationNode))

namespace AffiliationNode

def name : AffiliationNode → String
  | node name _ => name

def affiliations : AffiliationNode → Option (List AffiliationNode)
  | node _ affiliations => affiliations

/-- A list that is omitted is read as an empty one. -/
def entry (tree : AffiliationNode) : List AffiliationNode := tree.affiliations.getD []

/-- The name occurs in the tree, so many levels below its root. -/
inductive At : AffiliationNode → Nat → String → Prop
  | root (tree : AffiliationNode) : At tree 0 tree.name
  | inner {tree child : AffiliationNode} {depth : Nat} {name : String} :
      child ∈ tree.entry → At child depth name → At tree (depth + 1) name

/-- The names are those of a CA: each affiliation adds a part to the name of the one it is in, and
no two in one list have the same name. -/
inductive Named : List String → AffiliationNode → Prop
  | intro {parts : List String} {tree : AffiliationNode} (part : AffiliationNode → String) :
      tree.name = dotted parts → (tree.entry.map name).Nodup →
      (∀ child ∈ tree.entry, IsPart (part child)) →
      (∀ child ∈ tree.entry, Named (parts ++ [part child]) child) → Named parts tree

end AffiliationNode

/-- The actions of `CaAction`, and those of `init` and of a listing. -/
inductive AdminAction where
  | ca (action : CaAction)
  | getAllAffiliations (registrar : User)
  | toOrgAdmin (result : Enrollment) (nodeType : NodeType)
  | sleep (ms : Nat)

namespace AdminAction

def Value : AdminAction → Type
  | .ca action => action.Value
  | .getAllAffiliations _ => ServiceResponse AffiliationNode
  | .toOrgAdmin _ _ | .sleep _ => Unit

abbrev Reply (action : AdminAction) : Type := Except CaError action.Value

end AdminAction

abbrev AdminM := ExceptT CaError (Proc AdminAction AdminAction.Reply)

def AdminAction.perform (action : AdminAction) : AdminM action.Value :=
  ExceptT.mk (.ask action .done)

def CaM.lift {α : Type} (x : CaM α) : AdminM α :=
  ExceptT.mk (Proc.lift AdminAction.ca x.run)

/-- The error of taking `undefined` apart, or of iterating over it. -/
def typeError : CaError := ⟨"TypeError", none⟩

abbrev AffiliationsMap := String → Option (List String)

def AffiliationsMap.add (map : AffiliationsMap) (tree : AffiliationNode) : AffiliationsMap :=
  Function.update map tree.name (some (tree.entry.map AffiliationNode.name))

def AffiliationServiceBuilder.getAll (service : AffiliationServiceBuilder) :
    AdminM (AffiliationsMap × String) := do
  let resp : ServiceResponse AffiliationNode ←
    (AdminAction.getAllAffiliations service.registrar).perform
  match resp.result with
  | none => throw typeError
  | some result =>
    match result.affiliations with
    | none => throw typeError
    | some affiliations =>
      return (affiliations.foldl AffiliationsMap.add fun _ => none, result.name)

/-- The name occurs in what `getAll` returns: as the second component, as a key, or in a list. -/
def Lists (listing : AffiliationsMap × String) (name : String) : Prop :=
  name = listing.2 ∨ ∃ key subs, listing.1 key = some subs ∧ (name = key ∨ name ∈ subs)

namespace AffiliationNode

variable {tree child : AffiliationNode} {parts : List String} {depth : Nat} {name' : String}

theorem at_zero : tree.At 0 name' ↔ name' = tree.name := by
  constructor
  · intro h
    cases h
    rfl
  · intro h
    rw [h]
    exact At.root tree

theorem at_succ : tree.At (depth + 1) name' ↔ ∃ child ∈ tree.entry, child.At depth name' := by
  constructor
  · intro h
    cases h with
    | inner mem h => exact ⟨_, mem, h⟩
  · intro h
    obtain ⟨child, mem, h⟩ := h
    exact At.inner mem h

/-- The name of an affiliation says how deep it is. -/
theorem Named.at_eq_dotted (named : tree.Named parts) (arePart : ∀ part ∈ parts, IsPart part)
    (occurs : tree.At depth name') :
    ∃ path, (∀ part ∈ path, IsPart part) ∧ path.length = parts.length + depth ∧ parts <+: path ∧
      name' = dotted path := by
  induction occurs generalizing parts with
  | root tree =>
    cases named with
    | intro part isNamed => exact ⟨parts, arePart, rfl, List.prefix_rfl, isNamed⟩
  | @inner tree child depth name mem _ ih =>
    cases named with
    | intro part _ _ isPart below =>
      obtain ⟨path, areParts, length, longer, same⟩ :=
        ih (below child mem) (isPart_concat arePart (isPart child mem))
      refine ⟨path, areParts, ?_, (List.prefix_append _ _).trans longer, same⟩
      rw [length, List.length_append, List.length_singleton]
      omega

/-- Where an affiliation occurs, so do the ones it is in. -/
theorem Named.at_prefix (named : tree.Named parts) (arePart : ∀ part ∈ parts, IsPart part)
    (occurs : tree.At depth name') {path path' : List String} (same : name' = dotted path')
    (arePart' : ∀ part ∈ path', IsPart part) (above : parts <+: path) (within : path <+: path') :
    tree.At (path.length - parts.length) (dotted path) := by
  have at_root : ∀ {tree : AffiliationNode} {parts : List String}, tree.Named parts →
      path = parts → tree.At (path.length - parts.length) (dotted path) := by
    intro tree parts named here
    rw [here, Nat.sub_self, at_zero]
    cases named with
    | intro part isNamed => exact isNamed.symm
  induction occurs generalizing parts with
  | root tree =>
    obtain ⟨own, areParts, length, -, isOwn⟩ := named.at_eq_dotted arePart (At.root tree)
    rw [← dotted_injective areParts arePart' (isOwn.symm.trans same)] at within
    have shorter := within.length_le
    exact at_root named (above.eq_of_length_le (by omega)).symm
  | @inner tree child depth name mem occurs ih =>
    by_cases here : path = parts
    · exact at_root named here
    · cases named with
      | intro part _ _ isPart below =>
        have arePart'' := isPart_concat arePart (isPart child mem)
        obtain ⟨own, areParts, -, longer, isOwn⟩ := (below child mem).at_eq_dotted arePart'' occurs
        rw [dotted_injective areParts arePart' (isOwn.symm.trans same)] at longer
        have deeper : parts.length < path.length := by
          by_contra short
          exact here (above.eq_of_length_le (Nat.le_of_not_lt short)).symm
        have above' : parts ++ [part child] <+: path :=
          List.prefix_of_prefix_length_le longer within (by simpa using Nat.succ_le_of_lt deeper)
        have occurs' := ih (below child mem) arePart'' same above'
        rw [show path.length - parts.length = path.length - (parts ++ [part child]).length + 1 by
          simp only [List.length_append, List.length_singleton]
          omega]
        exact At.inner mem occurs'

theorem Named.depth_unique (named : tree.Named parts) (arePart : ∀ part ∈ parts, IsPart part)
    {depth' : Nat} (occurs : tree.At depth name') (occurs' : tree.At depth' name') :
    depth = depth' := by
  obtain ⟨path, areParts, length, -, same⟩ := named.at_eq_dotted arePart occurs
  obtain ⟨path', areParts', length', -, same'⟩ := named.at_eq_dotted arePart occurs'
  have paths := dotted_injective areParts areParts' (same.symm.trans same')
  rw [paths] at length
  omega

end AffiliationNode

/-- With distinct names no entry of the map is overwritten. -/
theorem AffiliationsMap.foldl_add_eq_some {affiliations : List AffiliationNode}
    (distinct : (affiliations.map AffiliationNode.name).Nodup) {key : String} {subs : List String} :
    (affiliations.foldl add fun _ => none) key = some subs ↔
      ∃ tree ∈ affiliations, tree.name = key ∧ tree.entry.map AffiliationNode.name = subs := by
  induction affiliations using List.reverseRecOn with
  | nil => simp
  | append_singleton affiliations last ih =>
    rw [List.map_append, List.nodup_append] at distinct
    obtain ⟨front, -, apart⟩ := distinct
    rw [List.foldl_append, List.foldl_cons, List.foldl_nil, add]
    by_cases at_last : key = last.name
    · subst at_last
      have others : ∀ tree ∈ affiliations, tree.name ≠ last.name := fun tree mem same =>
        apart _ (List.mem_map_of_mem mem) _ (by simp) same
      rw [Function.update_self]
      constructor
      · intro same
        exact ⟨last, by simp, rfl, Option.some.inj same⟩
      · intro h
        obtain ⟨tree, mem, same, read⟩ := h
        rcases List.mem_append.mp mem with mem | mem
        · exact absurd same (others tree mem)
        · rw [← List.mem_singleton.mp mem, read]
    · rw [Function.update_of_ne at_last, ih front]
      simp [Ne.symm at_last]

namespace AffiliationServiceBuilder

variable {S : Type} {serve : (action : AdminAction) → S → action.Reply × S} {s : S}
  {service : AffiliationServiceBuilder} {success : Bool} {tree : AffiliationNode}
  {parts : List String}

/-- `getAll` ends normally, and every name that occurs in the tree occurs in its result. -/
def ListsAll (serve : (action : AdminAction) → S → action.Reply × S)
    (service : AffiliationServiceBuilder) (s : S) (tree : AffiliationNode) : Prop :=
  ∃ listing, (service.getAll.run.exec serve s).value = .ok listing ∧
    ∀ depth name, tree.At depth name → Lists listing name

theorem getAll_value {reply : ServiceResponse AffiliationNode}
    (answered : (serve (.getAllAffiliations service.registrar) s).1 = .ok reply)
    (given : reply.result = some tree) :
    (service.getAll.run.exec serve s).value =
      tree.affiliations.elim (.error typeError) fun affiliations =>
        .ok (affiliations.foldl AffiliationsMap.add fun _ => none, tree.name) := by
  unfold getAll
  have asked : ((AdminAction.getAllAffiliations service.registrar).perform.run.exec serve s).value =
      .ok reply := answered
  refine (congrArg Ran.value (exec_bind_ok asked)).trans ?_
  simp only [given]
  cases tree.affiliations with
  | none => rfl
  | some affiliations => rfl

/-- What is listed is what occurs in the first two levels below the root. -/
theorem lists_iff (named : tree.Named parts) {affiliations : List AffiliationNode}
    (given : tree.affiliations = some affiliations) {name : String} :
    Lists (affiliations.foldl AffiliationsMap.add fun _ => none, tree.name) name ↔
      ∃ depth ≤ 2, tree.At depth name := by
  have entries : tree.entry = affiliations := by simp [AffiliationNode.entry, given]
  have distinct : (affiliations.map AffiliationNode.name).Nodup := by
    cases named with
    | intro part _ distinct => rwa [entries] at distinct
  unfold Lists
  simp only [AffiliationsMap.foldl_add_eq_some distinct]
  constructor
  · intro h
    rcases h with root | ⟨key, subs, ⟨child, mem, rfl, rfl⟩, first | second⟩
    · exact ⟨0, by omega, AffiliationNode.at_zero.mpr root⟩
    · refine ⟨1, by omega, AffiliationNode.at_succ.mpr ⟨child, entries ▸ mem, ?_⟩⟩
      exact AffiliationNode.at_zero.mpr first
    · obtain ⟨sub, mem', rfl⟩ := List.mem_map.mp second
      refine ⟨2, by omega, AffiliationNode.at_succ.mpr ⟨child, entries ▸ mem, ?_⟩⟩
      exact AffiliationNode.at_succ.mpr ⟨sub, mem', AffiliationNode.at_zero.mpr rfl⟩
  · intro h
    obtain ⟨depth, shallow, occurs⟩ := h
    match depth, shallow with
    | 0, _ => exact Or.inl (AffiliationNode.at_zero.mp occurs)
    | 1, _ =>
      obtain ⟨child, mem, occurs⟩ := AffiliationNode.at_succ.mp occurs
      refine Or.inr ⟨child.name, _, ⟨child, entries ▸ mem, rfl, rfl⟩, Or.inl ?_⟩
      exact AffiliationNode.at_zero.mp occurs
    | 2, _ =>
      obtain ⟨child, mem, occurs⟩ := AffiliationNode.at_succ.mp occurs
      obtain ⟨sub, mem', occurs⟩ := AffiliationNode.at_succ.mp occurs
      refine Or.inr ⟨child.name, _, ⟨child, entries ▸ mem, rfl, rfl⟩, Or.inr ?_⟩
      exact List.mem_map.mpr ⟨sub, mem', (AffiliationNode.at_zero.mp occurs).symm⟩

theorem listsAll_iff {reply : ServiceResponse AffiliationNode}
    (answered : (serve (.getAllAffiliations service.registrar) s).1 = .ok reply)
    (given : reply.result = some tree) (named : tree.Named parts)
    (arePart : ∀ part ∈ parts, IsPart part) :
    ListsAll serve service s tree ↔
      tree.affiliations ≠ none ∧ ∀ depth name, tree.At depth name → depth ≤ 2 := by
  unfold ListsAll
  rw [getAll_value answered given]
  cases listed : tree.affiliations with
  | none => simp
  | some affiliations =>
    constructor
    · intro h
      obtain ⟨listing, same, all⟩ := h
      obtain rfl := Except.ok.inj same
      refine ⟨by simp, fun depth name occurs => ?_⟩
      obtain ⟨depth', shallow, occurs'⟩ := (lists_iff named listed).mp (all depth name occurs)
      rwa [named.depth_unique arePart occurs occurs']
    · intro h
      refine ⟨_, rfl, fun depth name occurs => (lists_iff named listed).mpr ?_⟩
      exact ⟨depth, h.2 depth name occurs, occurs⟩

end AffiliationServiceBuilder

end FabricCommon
