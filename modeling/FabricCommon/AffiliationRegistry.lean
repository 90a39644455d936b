import FabricCommon.AffiliationListing
import FabricCommon.CaRegistry
import Mathlib.Data.List.Nodup

namespace FabricCommon

open DottedName

abbrev AdminServer (S : Type) := (action : AdminAction) → S → action.Reply × S

/-- What the CA promises beside the laws of its affiliations: creating one loses none, and a
listing answers with the tree of all of them. -/
structure AffiliationTreeLaws {S : Type} (serve : AdminServer S)
    (affiliations : S → String → Bool) : Prop where
  single : AffiliationLaws (fun action => serve (.ca action)) affiliations
  create_keeps : ∀ req registrar s (response : ServiceResponse AffiliationResult),
    (serve (.ca (.createAffiliation req registrar)) s).1 = .ok response →
      ∀ name, affiliations s name = true →
        affiliations (serve (.ca (.createAffiliation req registrar)) s).2 name = true
  listing : ∀ registrar s, ∃ (response : ServiceResponse AffiliationNode) (tree : AffiliationNode),
    (serve (.getAllAffiliations registrar) s).1 = .ok response ∧ response.result = some tree ∧
      tree.Named [] ∧ ∀ path, path ≠ [] → (∀ part ∈ path, IsPart part) →
        ((∃ depth, tree.At depth (dotted path)) ↔ affiliations s (dotted path) = true)

/-- Affiliations with what is below each and what stands next to it. -/
inductive Forest where
  | nil
  | cons (part : String) (below rest : Forest)
  deriving DecidableEq

namespace Forest

def holds : Forest → List String → Bool
  | nil, _ => false
  | cons _ _ _, [] => false
  | cons part below rest, p :: path =>
    if p = part then path.isEmpty || below.holds path else rest.holds (p :: path)

def chain : List String → Forest
  | [] => nil
  | p :: path => cons p (chain path) nil

/-- The affiliation at the end of a path, with those that are missing on the way to it. -/
def insert : Forest → List String → Forest
  | nil, path => chain path
  | cons part below rest, [] => cons part below rest
  | cons part below rest, p :: path =>
    if p = part then cons part (below.insert path) rest
    else cons part below (rest.insert (p :: path))

/-- The parts at the top. -/
def top : Forest → List String
  | nil => []
  | cons part _ rest => part :: rest.top

def WellFormed : Forest → Prop
  | nil => True
  | cons part below rest => IsPart part ∧ part ∉ rest.top ∧ below.WellFormed ∧ rest.WellFormed

/-- The entries of a listing, without the lists that would be empty. -/
def render : Forest → List String → List AffiliationNode
  | nil, _ => []
  | cons part below rest, above =>
    .node (dotted (above ++ [part]))
      (if below = nil then none else some (below.render (above ++ [part]))) :: rest.render above

theorem holds_chain {path : List String} (long : path ≠ []) : (chain path).holds path = true := by
  induction path with
  | nil => exact absurd rfl long
  | cons p path ih =>
    cases path with
    | nil => simp [chain, holds]
    | cons q path => simpa [chain, holds] using ih (by simp)

theorem holds_insert (forest : Forest) {path : List String} (long : path ≠ []) :
    (forest.insert path).holds path = true := by
  induction forest generalizing path with
  | nil => exact holds_chain long
  | cons part below rest below_ih rest_ih =>
    cases path with
    | nil => exact absurd rfl long
    | cons p path =>
      by_cases same : p = part
      · cases path with
        | nil => simp [insert, holds, same]
        | cons q path => simpa [insert, holds, same] using below_ih (by simp)
      · simpa [insert, holds, same] using rest_ih long

theorem holds_insert_of_holds {forest : Forest} (path : List String) {other : List String}
    (held : forest.holds other = true) : (forest.insert path).holds other = true := by
  induction forest generalizing path other with
  | nil => simp [holds] at held
  | cons part below rest below_ih rest_ih =>
    cases path with
    | nil => exact held
    | cons p path =>
      cases other with
      | nil => simp [holds] at held
      | cons o other =>
        by_cases at_part : o = part
        · by_cases same : p = part
          · simp only [holds, insert, at_part, same, if_true, Bool.or_eq_true] at held ⊢
            exact held.imp id fun held => below_ih path held
          · simpa [holds, insert, at_part, same] using held
        · by_cases same : p = part
          · simpa [holds, insert, at_part, same] using held
          · simp only [holds, insert, at_part, same, if_false] at held ⊢
            exact rest_ih (p :: path) held

theorem top_insert {forest : Forest} {p q : String} {path : List String}
    (mem : q ∈ (forest.insert (p :: path)).top) : q ∈ forest.top ∨ q = p := by
  induction forest with
  | nil => simpa [insert, chain, top] using mem
  | cons part below rest _ rest_ih =>
    by_cases same : p = part
    · simp only [insert, same, if_true] at mem
      exact Or.inl mem
    · simp only [insert, same, if_false, top, List.mem_cons] at mem
      rcases mem with first | later
      · exact Or.inl (by simp [top, first])
      · exact (rest_ih later).imp (fun old => by simp [top, old]) id

theorem wellFormed_chain {path : List String} (arePart : ∀ part ∈ path, IsPart part) :
    (chain path).WellFormed := by
  induction path with
  | nil => trivial
  | cons p path ih =>
    obtain ⟨isPart, arePart⟩ := List.forall_mem_cons.mp arePart
    exact ⟨isPart, by simp [top], ih arePart, trivial⟩

theorem wellFormed_insert {forest : Forest} (wellFormed : forest.WellFormed) {path : List String}
    (arePart : ∀ part ∈ path, IsPart part) : (forest.insert path).WellFormed := by
  induction forest generalizing path with
  | nil => exact wellFormed_chain arePart
  | cons part below rest below_ih rest_ih =>
    cases path with
    | nil => exact wellFormed
    | cons p path =>
      obtain ⟨isPart, fresh, below_wf, rest_wf⟩ := wellFormed
      by_cases same : p = part
      · simp only [insert, same, if_true]
        exact ⟨isPart, fresh, below_ih below_wf (List.forall_mem_cons.mp arePart).2, rest_wf⟩
      · simp only [insert, same, if_false]
        refine ⟨isPart, fun mem => ?_, below_wf, rest_ih rest_wf arePart⟩
        rcases top_insert mem with old | new
        · exact fresh old
        · exact same new.symm

/-- The entries of a listing are named by the parts at the top. -/
theorem names_render (forest : Forest) (above : List String) :
    (forest.render above).map AffiliationNode.name =
      forest.top.map fun part => dotted (above ++ [part]) := by
  induction forest with
  | nil => rfl
  | cons part below rest _ rest_ih => simp [render, top, AffiliationNode.name, rest_ih]

theorem entry_node (name : String) (forest : Forest) (above : List String) :
    (AffiliationNode.node name (if forest = nil then none else some (forest.render above))).entry =
      forest.render above := by
  by_cases empty : forest = nil
  · simp [AffiliationNode.entry, AffiliationNode.affiliations, empty, render]
  · simp [AffiliationNode.entry, AffiliationNode.affiliations, empty]

theorem top_distinct {forest : Forest} (wellFormed : forest.WellFormed) :
    forest.top.Nodup ∧ ∀ part ∈ forest.top, IsPart part := by
  induction forest with
  | nil => simp [top]
  | cons part below rest _ rest_ih =>
    obtain ⟨isPart, fresh, -, rest_wf⟩ := wellFormed
    obtain ⟨distinct, arePart⟩ := rest_ih rest_wf
    exact ⟨List.nodup_cons.mpr ⟨fresh, distinct⟩, List.forall_mem_cons.mpr ⟨isPart, arePart⟩⟩

theorem nodup_render {forest : Forest} (wellFormed : forest.WellFormed) {above : List String}
    (arePart : ∀ part ∈ above, IsPart part) :
    ((forest.render above).map AffiliationNode.name).Nodup := by
  obtain ⟨distinct, tops⟩ := top_distinct wellFormed
  rw [names_render]
  refine List.Nodup.map_on (fun part mem part' mem' same => ?_) distinct
  have paths := dotted_injective (isPart_concat arePart (tops part mem))
    (isPart_concat arePart (tops part' mem')) same
  simpa using paths

theorem named_of_entries {forest : Forest} {tree : AffiliationNode} {above : List String}
    (wellFormed : forest.WellFormed) (arePart : ∀ part ∈ above, IsPart part)
    (isNamed : tree.name = dotted above) (entries : tree.entry = forest.render above)
    (named : ∀ child ∈ forest.render above,
      ∃ part ∈ forest.top, child.Named (above ++ [part])) : tree.Named above := by
  choose! part parted using named
  rw [← entries] at parted
  refine AffiliationNode.Named.intro part isNamed ?_ ?_ fun child mem => (parted child mem).2
  · rw [entries]
    exact nodup_render wellFormed arePart
  · intro child mem
    exact (top_distinct wellFormed).2 _ (parted child mem).1

theorem named_render {forest : Forest} (wellFormed : forest.WellFormed) {above : List String}
    (arePart : ∀ part ∈ above, IsPart part) :
    ∀ child ∈ forest.render above, ∃ part ∈ forest.top, child.Named (above ++ [part]) := by
  induction forest generalizing above with
  | nil => simp [render]
  | cons part below rest below_ih rest_ih =>
    obtain ⟨isPart, fresh, below_wf, rest_wf⟩ := wellFormed
    rw [render, List.forall_mem_cons]
    constructor
    · have arePart' := isPart_concat arePart isPart
      refine ⟨part, by simp [top], ?_⟩
      exact named_of_entries below_wf arePart' rfl (entry_node _ below _)
        (below_ih below_wf arePart')
    · intro child mem
      obtain ⟨part', mem', named⟩ := rest_ih rest_wf arePart child mem
      exact ⟨part', by simp [top, mem'], named⟩

theorem eq_of_at {child : AffiliationNode} {above path : List String} {part p : String}
    {depth : Nat} (named : child.Named (above ++ [part]))
    (arePart : ∀ q ∈ above ++ [part], IsPart q) (arePart' : ∀ q ∈ above ++ p :: path, IsPart q)
    (occurs : child.At depth (dotted (above ++ p :: path))) : p = part := by
  obtain ⟨own, areParts, -, within, same⟩ := named.at_eq_dotted arePart occurs
  rw [← dotted_injective arePart' areParts same, List.prefix_append_right_inj] at within
  exact (List.cons_prefix_cons.mp within).1.symm

/-- Below its own name a node lists what its children list. -/
theorem at_node_iff {below : Forest} {names path : List String} {q : String}
    (arePart : ∀ part ∈ names ++ q :: path, IsPart part) :
    (∃ depth, (AffiliationNode.node (dotted names)
        (if below = nil then none else some (below.render names))).At depth
          (dotted (names ++ q :: path))) ↔
      ∃ child ∈ below.render names, ∃ depth, child.At depth (dotted (names ++ q :: path)) := by
  constructor
  · intro h
    obtain ⟨depth, occurs⟩ := h
    cases depth with
    | zero =>
      have named := AffiliationNode.at_zero.mp occurs
      have paths := dotted_injective arePart (fun part mem => arePart part (by simp [mem])) named
      simp at paths
    | succ depth =>
      obtain ⟨child, mem, occurs⟩ := AffiliationNode.at_succ.mp occurs
      rw [entry_node (dotted names) below names] at mem
      exact ⟨child, mem, depth, occurs⟩
  · intro h
    obtain ⟨child, mem, depth, occurs⟩ := h
    rw [← entry_node (dotted names) below names] at mem
    exact ⟨depth + 1, AffiliationNode.At.inner mem occurs⟩

/-- What is held is what occurs in the listing. -/
theorem holds_iff_at {forest : Forest} (wellFormed : forest.WellFormed) {above path : List String}
    (arePart : ∀ part ∈ above ++ path, IsPart part) :
    forest.holds path = true ↔ path ≠ [] ∧
      ∃ child ∈ forest.render above, ∃ depth, child.At depth (dotted (above ++ path)) := by
  induction forest generalizing above path with
  | nil => simp [holds, render]
  | cons part below rest below_ih rest_ih =>
    obtain ⟨isPart, fresh, below_wf, rest_wf⟩ := id wellFormed
    cases path with
    | nil => simp [holds]
    | cons p path =>
      have abovePart : ∀ q ∈ above, IsPart q := fun q mem => arePart q (by simp [mem])
      have firstPart := isPart_concat abovePart isPart
      have first := named_of_entries below_wf firstPart rfl (entry_node _ below _)
        (named_render below_wf firstPart)
      simp only [holds, render, List.exists_mem_cons_iff, ne_eq, reduceCtorEq, not_false_eq_true,
        true_and]
      by_cases same : p = part
      · subst same
        have elsewhere : ¬ ∃ child ∈ rest.render above, ∃ depth,
            child.At depth (dotted (above ++ p :: path)) := by
          intro h
          obtain ⟨child, mem, depth, occurs⟩ := h
          obtain ⟨other, at_top, named⟩ := named_render rest_wf abovePart child mem
          have otherPart := isPart_concat abovePart ((top_distinct rest_wf).2 other at_top)
          exact fresh (eq_of_at named otherPart arePart occurs ▸ at_top)
        have joined : above ++ p :: path = (above ++ [p]) ++ path := by simp
        rw [if_pos rfl, Bool.or_eq_true, or_iff_left elsewhere]
        cases path with
        | nil => exact iff_of_true (Or.inl rfl) ⟨0, AffiliationNode.At.root _⟩
        | cons q path =>
          rw [joined, at_node_iff (joined ▸ arePart), below_ih below_wf (joined ▸ arePart)]
          simp
      · have elsewhere : ¬ ∃ depth, (AffiliationNode.node (dotted (above ++ [part]))
            (if below = nil then none else some (below.render (above ++ [part])))).At depth
              (dotted (above ++ p :: path)) := by
          intro h
          obtain ⟨depth, occurs⟩ := h
          exact same (eq_of_at first firstPart arePart occurs)
        rw [if_neg same, or_iff_right elsewhere, rest_ih rest_wf arePart]
        simp

end Forest

/-- A CA that keeps its affiliations as a forest, and has its administrator enrolled. -/
structure AffiliationRegistry where
  forest : Forest
  wellFormed : forest.WellFormed

/-- The parts of a name. -/
abbrev AffiliationPath := { path : List String // path ≠ [] ∧ ∀ part ∈ path, IsPart part }

def AffiliationPath.parse (name : String) : Option AffiliationPath :=
  let parts := (name.toList.splitOn '.').map String.ofList
  if valid : parts ≠ [] ∧ ∀ part ∈ parts, IsPart part then some ⟨parts, valid⟩ else none

theorem AffiliationPath.parse_dotted (path : AffiliationPath) :
    parse (dotted path.val) = some path := by
  have parts : ((dotted path.val).toList.splitOn '.').map String.ofList = path.val := by
    rw [splitOn_dotted path.property.2 path.property.1]
    simp
  simp only [parse, parts]
  exact dif_pos path.property

namespace AffiliationRegistry

open CaRegistry (fault)

variable (s : AffiliationRegistry)

def holds (name : String) : Bool :=
  (AffiliationPath.parse name).elim false fun path => s.forest.holds path.val

def insert (path : AffiliationPath) : AffiliationRegistry :=
  ⟨s.forest.insert path.val, Forest.wellFormed_insert s.wellFormed path.property.2⟩

def tree : AffiliationNode :=
  .node "" (if s.forest = .nil then none else some (s.forest.render []))

def create (req : AffiliationRequest) :
    Except CaError (ServiceResponse AffiliationResult) × AffiliationRegistry :=
  if s.holds req.name then (.error (fault 66 "Affiliation already exists"), s)
  else
    match AffiliationPath.parse req.name with
    | none => (.error (fault 46 "Invalid affiliation name"), s)
    | some path => (.ok ⟨true, some ⟨req.name, "ca"⟩⟩, s.insert path)

def serve : AdminServer AffiliationRegistry
  | .ca (.getAffiliation name _), s =>
    if s.holds name then (.ok ⟨true, some ⟨name, "ca"⟩⟩, s)
    else (.error (fault 63 "Failed to get affiliation: sql: no rows in result set"), s)
  | .ca (.createAffiliation req _), s => s.create req
  | .ca (.getIdentity _ _), s =>
    (.error (fault 63 "Failed to get User: sql: no rows in result set"), s)
  | .ca (.createIdentity req _), s => (.ok (req.enrollmentID ++ "pw"), s)
  | .ca (.enroll _ _), s => (.ok ⟨"key", "certificate", "rootCertificate"⟩, s)
  | .ca (.cryptoExistLocal _), s => (.ok false, s)
  | .ca (.loadFromLocal _ mspid), s => (.ok (some ⟨"admin", mspid, "certificate"⟩), s)
  | .ca (.toAdminCerts _ _), s | .ca (.toMSP _ _), s | .ca (.toTLS _ _), s => (.ok (), s)
  | .getAllAffiliations _, s => (.ok ⟨true, some s.tree⟩, s)
  | .toOrgAdmin _ _, s | .sleep _, s => (.ok (), s)

variable {s}

theorem create_cases (req : AffiliationRequest) (s : AffiliationRegistry) :
    (∃ e, s.create req = (.error e, s)) ∨
      s.holds req.name = false ∧ ∃ path response, AffiliationPath.parse req.name = some path ∧
        s.create req = (.ok response, s.insert path) := by
  unfold create
  by_cases known : s.holds req.name = true
  · exact Or.inl ⟨_, if_pos known⟩
  · rw [if_neg known]
    cases read : AffiliationPath.parse req.name with
    | none => exact Or.inl ⟨_, rfl⟩
    | some path => exact Or.inr ⟨eq_false_of_ne_true known, path, _, rfl, rfl⟩

theorem create_ok {req : AffiliationRequest} {response : ServiceResponse AffiliationResult}
    (made : (s.create req).1 = .ok response) :
    s.holds req.name = false ∧ ∃ path, AffiliationPath.parse req.name = some path ∧
      (s.create req).2 = s.insert path := by
  rcases create_cases req s with ⟨e, failed⟩ | ⟨absent, path, _, read, created⟩
  · rw [failed] at made
    cases made
  · exact ⟨absent, path, read, congrArg Prod.snd created⟩

theorem tree_entry (s : AffiliationRegistry) : s.tree.entry = s.forest.render [] :=
  Forest.entry_node "" s.forest []

theorem tree_named (s : AffiliationRegistry) : s.tree.Named [] := by
  have none_above : ∀ part ∈ ([] : List String), IsPart part := by simp
  exact Forest.named_of_entries s.wellFormed none_above rfl s.tree_entry
    (Forest.named_render s.wellFormed none_above)

/-- Below the root the tree lists exactly what is held. -/
theorem tree_at_iff (s : AffiliationRegistry) {path : List String} (long : path ≠ [])
    (arePart : ∀ part ∈ path, IsPart part) :
    (∃ depth, s.tree.At depth (dotted path)) ↔ s.holds (dotted path) = true := by
  have read : AffiliationPath.parse (dotted path) = some ⟨path, long, arePart⟩ :=
    AffiliationPath.parse_dotted ⟨path, long, arePart⟩
  have held : s.holds (dotted path) = s.forest.holds path := by simp [holds, read]
  rw [held, Forest.holds_iff_at s.wellFormed (List.nil_append path ▸ arePart), ← s.tree_entry,
    List.nil_append]
  constructor
  · intro h
    obtain ⟨depth, occurs⟩ := h
    cases depth with
    | zero =>
      have named : dotted path = "" := AffiliationNode.at_zero.mp occurs
      exact absurd named (dotted_ne_empty arePart long)
    | succ depth =>
      obtain ⟨child, mem, occurs⟩ := AffiliationNode.at_succ.mp occurs
      exact ⟨long, child, mem, depth, occurs⟩
  · intro h
    obtain ⟨-, child, mem, depth, occurs⟩ := h
    exact ⟨depth + 1, AffiliationNode.At.inner mem occurs⟩

theorem laws : AffiliationTreeLaws serve holds where
  single := {
    lookup_present := fun name registrar s known =>
      ⟨⟨true, some ⟨name, "ca"⟩⟩, congrArg Prod.fst (if_pos known), Option.some_ne_none _⟩
    lookup_absent := fun name registrar s absent => by
      refine ⟨fault 63 "Failed to get affiliation: sql: no rows in result set", ?_, by decide⟩
      have absent : ¬ s.holds name = true := by simp [absent]
      exact congrArg Prod.fst (if_neg absent)
    lookup_keeps := fun name registrar s => by
      have same : (serve (.ca (.getAffiliation name registrar)) s).2 = s := by
        by_cases known : s.holds name = true
        · exact congrArg Prod.snd (if_pos known)
        · exact congrArg Prod.snd (if_neg known)
      exact congrArg holds same
    create_absent := fun req registrar s response made => (create_ok made).1
    create_adds := fun req registrar s response made => by
      obtain ⟨_, path, read, created⟩ := create_ok made
      rw [show (serve (.ca (.createAffiliation req registrar)) s).2 = _ from created]
      simp only [holds, read]
      exact Forest.holds_insert s.forest path.property.1
    create_fails := fun req registrar s e failed => by
      rcases create_cases req s with ⟨e', refused⟩ | ⟨_, path, _, _, created⟩
      · exact congrArg (fun out => holds out.2) refused
      · have made : (s.create req).1 = .error e := failed
        rw [created] at made
        cases made }
  create_keeps req registrar s response made name known := by
    obtain ⟨_, path, read, created⟩ := create_ok made
    rw [show (serve (.ca (.createAffiliation req registrar)) s).2 = _ from created]
    unfold holds at known ⊢
    cases named : AffiliationPath.parse name with
    | none => simp [named] at known
    | some path' =>
      rw [named] at known
      exact Forest.holds_insert_of_holds path.val known
  listing registrar s :=
    ⟨⟨true, some s.tree⟩, s.tree, rfl, rfl, s.tree_named, fun _ long arePart =>
      s.tree_at_iff long arePart⟩

end AffiliationRegistry

end FabricCommon
