import FabricCommon.AffiliationRegistry
import FabricCommon.CaAttempts
import FabricCommon.PanicRun
import Mathlib.Data.List.Infix

namespace FabricCommon

open DottedName RequestRun CheckThenCreate

def NodeType.text : NodeType → String
  | orderer => "orderer"
  | peer => "peer"

/-- A `CaCryptoGen` with the name of the CA's administrator. -/
structure AdminCryptoGen extends CryptoGen where
  userName : String

namespace AdminCryptoGen

variable (gen : AdminCryptoGen) (nodeType : NodeType)

/-- `e.toString().includes(...)`. -/
def notReady (e : CaError) : Bool :=
  decide ("Calling enrollment endpoint failed with error".toList <:+:
    ("Error: " ++ e.message).toList)

/-- The enrolment of the administrator, or none when the CA is not ready. -/
def enrollAdmin : AdminM (Option Enrollment) :=
  tryCatch
    (do
      let result : Enrollment ←
        (AdminAction.ca (.enroll ⟨gen.userName, gen.password, none⟩ [])).perform
      return some result)
    fun e => if notReady e then return none else throw e

/-- At most so many attempts; a call that needs more of them has not ended. -/
def initAdmin : Nat → AdminM Unit
  | 0 => throw ⟨"not ended", none⟩
  | attempts + 1 => do
    match ← gen.enrollAdmin with
    | none =>
      (AdminAction.sleep 1000).perform
      initAdmin attempts
    | some result =>
      (AdminAction.ca (.toMSP result (.user nodeType))).perform
      (AdminAction.toOrgAdmin result nodeType).perform
      (AdminAction.ca (.toAdminCerts result.certificate (.user nodeType))).perform

def affiliationRoot (affiliationRoot : Option String) : String :=
  if truthy affiliationRoot then interpolate affiliationRoot else gen.orgName nodeType

/-- `loadFromLocal` with its last argument set, which throws where it would return null. -/
def loadAdmin (mspid : String) : AdminM User := do
  let user : Option User ← (AdminAction.ca (.loadFromLocal nodeType mspid)).perform
  match user with
  | some user => return user
  | none =>
    throw ⟨"User [" ++ gen.userHostName nodeType ++ "] from " ++ nodeType.text ++
      " organization [" ++ mspid ++ "] not found", none⟩

/-- The parts that `init` adds to the root. -/
def leaves : List String := ["client", "user", nodeType.text]

def init (mspid : String) (affiliationRoot : Option String) (attempts : Nat) : AdminM User := do
  let root := gen.affiliationRoot nodeType affiliationRoot
  gen.initAdmin nodeType attempts
  let adminUser ← gen.loadAdmin nodeType mspid
  let affiliationService : AffiliationServiceBuilder := ⟨adminUser⟩
  let _ ← (affiliationService.createIfNotExist (root ++ ".client") (some true)).lift
  let _ ← (affiliationService.createIfNotExist (root ++ ".user") (some true)).lift
  let _ ← (affiliationService.createIfNotExist (root ++ "." ++ nodeType.text) (some true)).lift
  return adminUser

end AdminCryptoGen

variable {S : Type} {serve : AdminServer S} {affiliations : S → String → Bool}

theorem createIfNotExist_ensures {ca : CaServer S} (laws : AffiliationLaws ca affiliations)
    (keeps : ∀ req registrar s (response : ServiceResponse AffiliationResult),
      (ca (.createAffiliation req registrar) s).1 = .ok response →
        ∀ name, affiliations s name = true →
          affiliations (ca (.createAffiliation req registrar) s).2 name = true)
    (service : AffiliationServiceBuilder) (name : String) (force : Option Bool) {s : S}
    {made : AffiliationResult ⊕ ServiceResponse AffiliationResult}
    (ended : ((service.createIfNotExist name force).run.exec ca s).value = .ok made) :
    let s' := ((service.createIfNotExist name force).run.exec ca s).state
    affiliations s' name = true ∧
      ∀ other, affiliations s other = true → affiliations s' other = true := by
  have looked := laws.lookup_keeps name service.registrar s
  rw [service.createIfNotExist_run] at ended ⊢
  cases known : affiliations s name with
  | true =>
    obtain ⟨response, answered, there⟩ := laws.lookup_present name service.registrar s known
    obtain ⟨entry, held⟩ := heldOf_present Sum.inl answered there
    rw [Attempt.exec_held held]
    exact ⟨(congrFun looked name).trans known, fun other => by rw [← looked]; exact id⟩
  | false =>
    obtain ⟨e, failed, missing⟩ := laws.lookup_absent name service.registrar s known
    have held : (service.attempt name force).held
        (ca (service.attempt name force).lookup s).1 = none := heldOf_absent Sum.inl failed missing
    rw [Attempt.exec_created held rfl] at ended ⊢
    obtain ⟨response, accepted, -⟩ := PanicRun.map_eq_ok.mp ended
    refine ⟨laws.create_adds _ _ _ response accepted, fun other there => ?_⟩
    rw [← looked] at there
    exact keeps _ _ _ response accepted other there

/-- A call of `createIfNotExist` that ends normally leaves its affiliation there, and all others. -/
theorem AffiliationTreeLaws.ensures (ca : AffiliationTreeLaws serve affiliations)
    (service : AffiliationServiceBuilder) (name : String) (force : Option Bool) {s : S}
    {made : AffiliationResult ⊕ ServiceResponse AffiliationResult}
    (ended : ((service.createIfNotExist name force).lift.run.exec serve s).value = .ok made) :
    affiliations ((service.createIfNotExist name force).lift.run.exec serve s).state name = true ∧
      ∀ other, affiliations s other = true →
        affiliations ((service.createIfNotExist name force).lift.run.exec serve s).state other =
          true := by
  have lifted := exec_lift AdminAction.ca serve (service.createIfNotExist name force).run s
  have alone := createIfNotExist_ensures ca.single ca.create_keeps service name force
    ((congrArg Ran.value lifted).symm.trans ended)
  have state : ((service.createIfNotExist name force).lift.run.exec serve s).state = _ :=
    congrArg Ran.state lifted
  rw [state]
  exact alone

namespace AdminCryptoGen

variable {gen : AdminCryptoGen} {nodeType : NodeType} {mspid : String}
  {affiliationRoot : Option String} {attempts : Nat}

/-- After `init` the affiliations that it asks for are there. -/
theorem init_ensures (ca : AffiliationTreeLaws serve affiliations) {s : S} {admin : User}
    (ended : ((gen.init nodeType mspid affiliationRoot attempts).run.exec serve s).value =
      .ok admin) :
    ∀ leaf ∈ leaves nodeType,
      affiliations ((gen.init nodeType mspid affiliationRoot attempts).run.exec serve s).state
        (gen.affiliationRoot nodeType affiliationRoot ++ "." ++ leaf) = true := by
  unfold init at ended ⊢
  obtain ⟨_, -, loading, same⟩ := exec_bind_inv ended
  obtain ⟨user, -, first, same'⟩ := exec_bind_inv loading
  obtain ⟨_, client, second, after⟩ := exec_bind_inv first
  obtain ⟨_, user, third, after'⟩ := exec_bind_inv second
  obtain ⟨_, node, -, after''⟩ := exec_bind_inv third
  rw [same, same', after, after', after'']
  obtain ⟨client, -⟩ := ca.ensures _ _ _ client
  obtain ⟨user, keeps⟩ := ca.ensures _ _ _ user
  obtain ⟨node, keeps'⟩ := ca.ensures _ _ _ node
  intro leaf mem
  have one_of : leaf = "client" ∨ leaf = "user" ∨ leaf = nodeType.text := by
    simpa [leaves] using mem
  rcases one_of with rfl | rfl | rfl
  · have joined : gen.affiliationRoot nodeType affiliationRoot ++ "." ++ "client" =
        gen.affiliationRoot nodeType affiliationRoot ++ ".client" := by
      rw [String.append_assoc]
      rfl
    rw [joined]
    exact keeps' _ (keeps _ client)
  · have joined : gen.affiliationRoot nodeType affiliationRoot ++ "." ++ "user" =
        gen.affiliationRoot nodeType affiliationRoot ++ ".user" := by
      rw [String.append_assoc]
      rfl
    rw [joined]
    exact keeps' _ user
  · exact node

/-- What `init` has created recursively: the affiliations under the root's parts, and those that
these are in. -/
def Created (nodeType : NodeType) (parts path : List String) : Prop :=
  path ≠ [] ∧ ∃ leaf ∈ leaves nodeType, path <+: parts ++ [leaf]

/-- `getAll` ends normally, and each created affiliation occurs in its result. -/
def ListsCreated (serve : AdminServer S) (admin : User) (s : S) (nodeType : NodeType)
    (parts : List String) : Prop :=
  ∃ listing, ((⟨admin⟩ : AffiliationServiceBuilder).getAll.run.exec serve s).value = .ok listing ∧
    ∀ path, Created nodeType parts path → Lists listing (dotted path)

theorem leaves_arePart (nodeType : NodeType) : ∀ leaf ∈ leaves nodeType, IsPart leaf := by
  cases nodeType with
  | orderer => simp only [leaves, NodeType.text, List.forall_mem_cons]; decide
  | peer => simp only [leaves, NodeType.text, List.forall_mem_cons]; decide

theorem listsCreated_iff (ca : AffiliationTreeLaws serve affiliations) {s : S} {admin : User}
    {parts : List String} (arePart : ∀ part ∈ parts, IsPart part) (someParts : parts ≠ [])
    (there : ∀ leaf ∈ leaves nodeType, affiliations s (dotted (parts ++ [leaf])) = true) :
    ListsCreated serve admin s nodeType parts ↔ parts.length = 1 := by
  obtain ⟨response, tree, answered, given, named, holds⟩ := ca.listing admin s
  have none_above : ∀ part ∈ ([] : List String), IsPart part := by simp
  have whole : ∀ leaf ∈ leaves nodeType, ∀ part ∈ parts ++ [leaf], IsPart part := fun leaf mem =>
    isPart_concat arePart (leaves_arePart nodeType leaf mem)
  have occurs : ∀ path, Created nodeType parts path → tree.At path.length (dotted path) := by
    intro path created
    obtain ⟨_, leaf, mem, within⟩ := created
    obtain ⟨depth, occurs⟩ := (holds _ (by simp) (whole leaf mem)).mpr (there leaf mem)
    exact named.at_prefix none_above occurs rfl (whole leaf mem) List.nil_prefix within
  have deep : tree.At (parts.length + 1) (dotted (parts ++ ["client"])) := by
    have created : Created nodeType parts (parts ++ ["client"]) :=
      ⟨by simp, "client", by simp [leaves], List.prefix_rfl⟩
    simpa using occurs _ created
  unfold ListsCreated
  rw [AffiliationServiceBuilder.getAll_value answered given]
  cases listed : tree.affiliations with
  | none =>
    obtain ⟨child, mem, -⟩ := AffiliationNode.at_succ.mp deep
    simp [AffiliationNode.entry, listed] at mem
  | some entries =>
    constructor
    · intro h
      obtain ⟨listing, same, all⟩ := h
      obtain rfl := Except.ok.inj same
      have mentioned := all (parts ++ ["client"])
        ⟨by simp, "client", by simp [leaves], List.prefix_rfl⟩
      obtain ⟨depth, shallow, occurs'⟩ :=
        (AffiliationServiceBuilder.lists_iff named listed).mp mentioned
      have here := named.depth_unique none_above occurs' deep
      have positive : 0 < parts.length := List.length_pos_iff.mpr someParts
      omega
    · intro single
      refine ⟨_, rfl, fun path created => ?_⟩
      rw [AffiliationServiceBuilder.lists_iff named listed]
      refine ⟨path.length, ?_, occurs path created⟩
      obtain ⟨_, leaf, -, within⟩ := created
      have shorter := within.length_le
      rw [List.length_append, List.length_singleton] at shorter
      omega

end AdminCryptoGen

/-- `getAll` after a listing of any tree, and after `init` on any domain. -/
theorem getAll_listsAll_iff :
    (∀ (serve : AdminServer S) (service : AffiliationServiceBuilder) (s : S)
        (response : ServiceResponse AffiliationNode) (tree : AffiliationNode) (parts : List String),
      (serve (.getAllAffiliations service.registrar) s).1 = .ok response →
      response.result = some tree → tree.Named parts → (∀ part ∈ parts, IsPart part) →
        (service.ListsAll serve s tree ↔
          tree.affiliations ≠ none ∧ ∀ depth name, tree.At depth name → depth ≤ 2)) ∧
    ∀ (serve : AdminServer S) (affiliations : S → String → Bool),
      AffiliationTreeLaws serve affiliations →
        ∀ (gen : AdminCryptoGen) (nodeType : NodeType) (mspid : String)
          (affiliationRoot : Option String) (attempts : Nat) (s : S) (admin : User)
          (parts : List String),
          (∀ part ∈ parts, IsPart part) → parts ≠ [] →
          gen.affiliationRoot nodeType affiliationRoot = dotted parts →
          ((gen.init nodeType mspid affiliationRoot attempts).run.exec serve s).value =
            .ok admin →
          (AdminCryptoGen.ListsCreated serve admin
              ((gen.init nodeType mspid affiliationRoot attempts).run.exec serve s).state
              nodeType parts ↔
            parts.length = 1) := by
  constructor
  · intro serve service s response tree parts answered given named arePart
    exact AffiliationServiceBuilder.listsAll_iff answered given named arePart
  · intro serve affiliations ca gen nodeType mspid affiliationRoot attempts s admin parts arePart
      someParts root ended
    refine AdminCryptoGen.listsCreated_iff ca arePart someParts fun leaf mem => ?_
    rw [dotted_concat someParts, ← root]
    exact AdminCryptoGen.init_ensures ca ended leaf mem

/-- A CA without affiliations. -/
def emptyRegistry : AffiliationRegistry := ⟨.nil, trivial⟩

/-- A peer organisation of the domain. -/
def genOf (domain : String) : AdminCryptoGen where
  orgName _ := domain
  hostName _ := "peer0." ++ domain
  userHostName _ := "Admin@" ++ domain
  password := some "adminpw"
  TLS := true
  allowedType := ["peer", "client"]
  userName := "admin"

def admin : User := ⟨"admin", "Org1MSP", "certificate"⟩

/-- What `init` leaves when it runs for the domain at the CA without affiliations. -/
def initialised (domain : String) : RequestRun.Ran AffiliationRegistry AdminAction.Reply
    (Except CaError User) :=
  ((genOf domain).init .peer "Org1MSP" none 1).run.exec AffiliationRegistry.serve emptyRegistry

theorem tree_org1 : (initialised "org1").state.tree = .node "" (some [.node "org1"
    (some [.node "org1.client" none, .node "org1.user" none, .node "org1.peer" none])]) := rfl

/-- The listing afterwards is complete for a domain of one part. -/
theorem getAll_listsAll_org1 :
    (⟨admin⟩ : AffiliationServiceBuilder).ListsAll AffiliationRegistry.serve
        (initialised "org1").state (initialised "org1").state.tree ∧
      AdminCryptoGen.ListsCreated AffiliationRegistry.serve admin (initialised "org1").state .peer
        ["org1"] := by
  have org1 : ∀ part ∈ ["org1"], IsPart part := by
    simp only [List.forall_mem_singleton]
    decide
  constructor
  · refine (getAll_listsAll_iff.1 AffiliationRegistry.serve ⟨admin⟩ (initialised "org1").state
      ⟨true, some (initialised "org1").state.tree⟩ _ [] rfl rfl
      (AffiliationRegistry.tree_named _) (by simp)).mpr ?_
    rw [tree_org1]
    refine ⟨by simp [AffiliationNode.affiliations], fun depth name occurs => ?_⟩
    by_contra deep
    obtain ⟨more, rfl⟩ : ∃ more, depth = more + 3 := ⟨depth - 3, by omega⟩
    simp [AffiliationNode.at_succ, AffiliationNode.entry, AffiliationNode.affiliations] at occurs
  · exact (getAll_listsAll_iff.2 _ _ AffiliationRegistry.laws (genOf "org1") .peer "Org1MSP" none 1
      emptyRegistry admin ["org1"] org1 (by simp) rfl rfl).mpr rfl

/-- For a domain of two parts, what was created for it is not listed. -/
theorem init_unlisted :
    (initialised "example.com").value = .ok admin ∧
      ¬ AdminCryptoGen.ListsCreated AffiliationRegistry.serve admin
        (initialised "example.com").state .peer ["example", "com"] := by
  have ended : (initialised "example.com").value = .ok admin := rfl
  refine ⟨ended, fun listed => ?_⟩
  have parts : ∀ part ∈ ["example", "com"], IsPart part := by
    simp only [List.forall_mem_cons]
    decide
  have there := AdminCryptoGen.init_ensures AffiliationRegistry.laws ended
  have single := (AdminCryptoGen.listsCreated_iff AffiliationRegistry.laws parts (by simp)
    fun leaf mem => ?_).mp listed
  · cases single
  · rw [dotted_concat (by simp)]
    exact there leaf mem

end FabricCommon
