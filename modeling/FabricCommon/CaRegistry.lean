import FabricCommon.CaServices

namespace FabricCommon

/-- The CA and the local disk, as what they reply to each action. -/
abbrev CaServer (S : Type) := (action : CaAction) → S → action.Reply × S

variable {S : Type}

/-- What the CA promises of its identities; `registry` gives the secret of each. -/
structure IdentityLaws (serve : CaServer S) (registry : S → String → Option String) : Prop where
  lookup_registered : ∀ id registrar s, registry s id ≠ none →
    ∃ response : ServiceResponse Identity, (serve (.getIdentity id registrar) s).1 = .ok response ∧
      response.result ≠ none
  lookup_absent : ∀ id registrar s, registry s id = none →
    ∃ e, (serve (.getIdentity id registrar) s).1 = .error e ∧ isNotExistError e = true
  create_absent : ∀ req registrar s (secret : String),
    (serve (.createIdentity req registrar) s).1 = .ok secret →
      registry s req.enrollmentID = none
  create_registers : ∀ req registrar s (secret : String),
    (serve (.createIdentity req registrar) s).1 = .ok secret →
      registry (serve (.createIdentity req registrar) s).2 =
        Function.update (registry s) req.enrollmentID (some secret)
  create_assigns : ∀ req registrar s (secret : String),
    (serve (.createIdentity req registrar) s).1 = .ok secret → truthy req.enrollmentSecret →
      req.enrollmentSecret = some secret
  create_fails : ∀ req registrar s e, (serve (.createIdentity req registrar) s).1 = .error e →
    registry (serve (.createIdentity req registrar) s).2 = registry s
  others_keep : ∀ action s, (∀ req registrar, action ≠ .createIdentity req registrar) →
    registry (serve action s).2 = registry s

/-- The same of its affiliations. -/
structure AffiliationLaws (serve : CaServer S) (affiliations : S → String → Bool) : Prop where
  lookup_present : ∀ name registrar s, affiliations s name = true →
    ∃ response : ServiceResponse AffiliationResult,
      (serve (.getAffiliation name registrar) s).1 = .ok response ∧ response.result ≠ none
  lookup_absent : ∀ name registrar s, affiliations s name = false →
    ∃ e, (serve (.getAffiliation name registrar) s).1 = .error e ∧ isNoAffiliationError e = true
  lookup_keeps : ∀ name registrar s,
    affiliations (serve (.getAffiliation name registrar) s).2 = affiliations s
  create_absent : ∀ req registrar s (response : ServiceResponse AffiliationResult),
    (serve (.createAffiliation req registrar) s).1 = .ok response →
      affiliations s req.name = false
  create_adds : ∀ req registrar s (response : ServiceResponse AffiliationResult),
    (serve (.createAffiliation req registrar) s).1 = .ok response →
      affiliations (serve (.createAffiliation req registrar) s).2 req.name = true
  create_fails : ∀ req registrar s e, (serve (.createAffiliation req registrar) s).1 = .error e →
    affiliations (serve (.createAffiliation req registrar) s).2 = affiliations s

section

variable {serve : CaServer S} {registry : S → String → Option String}
  {affiliations : S → String → Bool}

theorem IdentityLaws.clash (ca : IdentityLaws serve registry) (req : IdentityRequest)
    (registrar : User) {s : S} (known : registry s req.enrollmentID ≠ none) :
    ∃ e, (serve (.createIdentity req registrar) s).1 = .error e := by
  cases made : (serve (.createIdentity req registrar) s).1 with
  | error e => exact ⟨e, rfl⟩
  | ok secret => exact absurd (ca.create_absent req registrar s secret made) known

theorem AffiliationLaws.clash (ca : AffiliationLaws serve affiliations)
    (req : AffiliationRequest) (registrar : User) {s : S}
    (known : affiliations s req.name = true) :
    ∃ e, (serve (.createAffiliation req registrar) s).1 = .error e := by
  cases made : (serve (.createAffiliation req registrar) s).1 with
  | error e => exact ⟨e, rfl⟩
  | ok response =>
    have absent := ca.create_absent req registrar s response made
    rw [known] at absent
    cases absent

end

/-- A CA that keeps its entries in lists, next to a disk without crypto material. -/
structure CaRegistry where
  identities : List (String × String)
  affiliations : List String
  deriving DecidableEq, Repr

namespace CaRegistry

def fault (code : Int) (text : String) : CaError :=
  ⟨"fabric-ca request failed", some [⟨code, text⟩]⟩

def secretOf (s : CaRegistry) (id : String) : Option String := s.identities.lookup id

def holds (s : CaRegistry) (name : String) : Bool := s.affiliations.contains name

/-- The secret of a new identity; one that is not given is made up from the identity. -/
def newSecret (req : IdentityRequest) : String :=
  if truthy req.enrollmentSecret then interpolate req.enrollmentSecret else req.enrollmentID ++ "pw"

def createIdentity (req : IdentityRequest) (s : CaRegistry) : Except CaError String × CaRegistry :=
  if (s.secretOf req.enrollmentID).isSome then
    (.error (fault 74 ("Identity '" ++ req.enrollmentID ++ "' is already registered")), s)
  else
    (.ok (newSecret req),
      { s with identities := (req.enrollmentID, newSecret req) :: s.identities })

def createAffiliation (req : AffiliationRequest) (s : CaRegistry) :
    Except CaError (ServiceResponse AffiliationResult) × CaRegistry :=
  if s.holds req.name then (.error (fault 66 "Affiliation already exists"), s)
  else
    (.ok ⟨true, some ⟨req.name, "ca"⟩⟩, { s with affiliations := req.name :: s.affiliations })

def serve : CaServer CaRegistry
  | .getIdentity id _, s =>
    if (s.secretOf id).isSome then (.ok ⟨true, some ⟨id, "client", [], "", -1⟩⟩, s)
    else (.error (fault 63 "Failed to get User: sql: no rows in result set"), s)
  | .createIdentity req _, s => createIdentity req s
  | .getAffiliation name _, s =>
    if s.holds name then (.ok ⟨true, some ⟨name, "ca"⟩⟩, s)
    else (.error (fault 63 "Failed to get affiliation: sql: no rows in result set"), s)
  | .createAffiliation req _, s => createAffiliation req s
  | .enroll req _, s =>
    if req.enrollmentSecret.isSome && req.enrollmentSecret == s.secretOf req.enrollmentID then
      (.ok ⟨"key", "certificate", "rootCertificate"⟩, s)
    else (.error (fault 20 "Authentication failure"), s)
  | .cryptoExistLocal _, s => (.ok false, s)
  | .loadFromLocal _ _, s => (.ok none, s)
  | .toAdminCerts _ _, s | .toMSP _ _, s | .toTLS _ _, s => (.ok (), s)

theorem createIdentity_cases (req : IdentityRequest) (s : CaRegistry) :
    ((s.secretOf req.enrollmentID).isSome = true ∧
      ∃ e, createIdentity req s = (.error e, s)) ∨
    (s.secretOf req.enrollmentID = none ∧ createIdentity req s =
      (.ok (newSecret req),
        { s with identities := (req.enrollmentID, newSecret req) :: s.identities })) := by
  unfold createIdentity
  by_cases known : (s.secretOf req.enrollmentID).isSome = true
  · exact Or.inl ⟨known, _, if_pos known⟩
  · exact Or.inr ⟨by simpa using known, if_neg known⟩

theorem createAffiliation_cases (req : AffiliationRequest) (s : CaRegistry) :
    (s.holds req.name = true ∧ ∃ e, createAffiliation req s = (.error e, s)) ∨
    (s.holds req.name = false ∧ ∃ response, createAffiliation req s =
      (.ok response, { s with affiliations := req.name :: s.affiliations })) := by
  unfold createAffiliation
  by_cases known : s.holds req.name = true
  · exact Or.inl ⟨known, _, if_pos known⟩
  · exact Or.inr ⟨by simpa using known, _, if_neg known⟩

theorem secretOf_register (req : IdentityRequest) (s : CaRegistry) (secret : String) :
    secretOf { s with identities := (req.enrollmentID, secret) :: s.identities } =
      Function.update (secretOf s) req.enrollmentID (some secret) := by
  funext id
  by_cases same : id = req.enrollmentID
  · simp [secretOf, same]
  · have apart : (id == req.enrollmentID) = false := by simpa using same
    simp [secretOf, List.lookup_cons, same, apart]

theorem createIdentity_ok {req : IdentityRequest} {s : CaRegistry} {secret : String}
    (made : (createIdentity req s).1 = .ok secret) :
    s.secretOf req.enrollmentID = none ∧ newSecret req = secret ∧ (createIdentity req s).2 =
      { s with identities := (req.enrollmentID, secret) :: s.identities } := by
  rcases createIdentity_cases req s with ⟨_, e, clash⟩ | ⟨absent, created⟩
  · rw [clash] at made
    cases made
  · rw [created] at made
    cases Except.ok.inj made
    exact ⟨absent, rfl, congrArg Prod.snd created⟩

theorem createAffiliation_ok {req : AffiliationRequest} {s : CaRegistry}
    {response : ServiceResponse AffiliationResult}
    (made : (createAffiliation req s).1 = .ok response) :
    s.holds req.name = false ∧
      (createAffiliation req s).2 = { s with affiliations := req.name :: s.affiliations } := by
  rcases createAffiliation_cases req s with ⟨_, e, clash⟩ | ⟨absent, _, created⟩
  · rw [clash] at made
    cases made
  · exact ⟨absent, congrArg Prod.snd created⟩

theorem accepts_identity {req : IdentityRequest} (registrar : User) {s : CaRegistry}
    (absent : s.secretOf req.enrollmentID = none) :
    ∃ secret : String, (serve (.createIdentity req registrar) s).1 = .ok secret := by
  rcases createIdentity_cases req s with ⟨known, -⟩ | ⟨-, created⟩
  · rw [absent] at known
    cases known
  · exact ⟨newSecret req, congrArg Prod.fst created⟩

theorem accepts_affiliation {req : AffiliationRequest} (registrar : User) {s : CaRegistry}
    (absent : s.holds req.name = false) : ∃ response : ServiceResponse AffiliationResult,
      (serve (.createAffiliation req registrar) s).1 = .ok response := by
  rcases createAffiliation_cases req s with ⟨known, -⟩ | ⟨-, response, created⟩
  · rw [absent] at known
    cases known
  · exact ⟨response, congrArg Prod.fst created⟩

theorem newSecret_of_given {req : IdentityRequest} (given : truthy req.enrollmentSecret = true) :
    req.enrollmentSecret = some (newSecret req) := by
  unfold newSecret
  rw [if_pos given]
  cases secret : req.enrollmentSecret with
  | none =>
    rw [secret] at given
    cases given
  | some secret => rfl

theorem identityLaws : IdentityLaws serve secretOf where
  lookup_registered id registrar s known := by
    have known : (s.secretOf id).isSome = true := Option.isSome_iff_ne_none.mpr known
    refine ⟨⟨true, some ⟨id, "client", [], "", -1⟩⟩, ?_, Option.some_ne_none _⟩
    exact congrArg Prod.fst (if_pos known)
  lookup_absent id registrar s absent := by
    refine ⟨fault 63 "Failed to get User: sql: no rows in result set", ?_, by decide⟩
    have absent : ¬ (s.secretOf id).isSome = true := by simp [absent]
    exact congrArg Prod.fst (if_neg absent)
  create_absent req registrar s secret made := (createIdentity_ok made).1
  create_registers req registrar s secret made := by
    obtain ⟨-, -, after⟩ := createIdentity_ok made
    exact (congrArg secretOf after).trans (secretOf_register req s secret)
  create_assigns req registrar s secret made given := by
    obtain ⟨-, rfl, -⟩ := createIdentity_ok made
    exact newSecret_of_given given
  create_fails req registrar s e failed := by
    rcases createIdentity_cases req s with ⟨_, e', clash⟩ | ⟨_, created⟩
    · exact congrArg (fun out => secretOf out.2) clash
    · have made : (createIdentity req s).1 = .error e := failed
      rw [created] at made
      cases made
  others_keep action s other := by
    cases action with
    | createIdentity req registrar => exact absurd rfl (other req registrar)
    | getIdentity id registrar =>
      show secretOf (ite _ _ _ : _ × CaRegistry).2 = _
      split <;> rfl
    | getAffiliation name registrar =>
      show secretOf (ite _ _ _ : _ × CaRegistry).2 = _
      split <;> rfl
    | createAffiliation req registrar =>
      show secretOf (createAffiliation req s).2 = _
      rcases createAffiliation_cases req s with ⟨_, e, clash⟩ | ⟨_, response, created⟩
      · rw [clash]
      · rw [created]
        rfl
    | enroll req dns =>
      show secretOf (ite _ _ _ : _ × CaRegistry).2 = _
      split <;> rfl
    | _ => rfl

theorem affiliationLaws : AffiliationLaws serve holds where
  lookup_present name registrar s known := by
    refine ⟨⟨true, some ⟨name, "ca"⟩⟩, ?_, Option.some_ne_none _⟩
    exact congrArg Prod.fst (if_pos known)
  lookup_absent name registrar s absent := by
    refine ⟨fault 63 "Failed to get affiliation: sql: no rows in result set", ?_, by decide⟩
    have absent : ¬ s.holds name = true := by simp [absent]
    exact congrArg Prod.fst (if_neg absent)
  lookup_keeps name registrar s := by
    show holds (ite _ _ _ : _ × CaRegistry).2 = _
    split <;> rfl
  create_absent req registrar s response made := (createAffiliation_ok made).1
  create_adds req registrar s response made := by
    rw [show (serve (.createAffiliation req registrar) s).2 = _ from (createAffiliation_ok made).2]
    simp [holds]
  create_fails req registrar s e failed := by
    rcases createAffiliation_cases req s with ⟨_, e', clash⟩ | ⟨_, response, created⟩
    · exact congrArg (fun out => holds out.2) clash
    · have made : (createAffiliation req s).1 = .error e := failed
      rw [created] at made
      cases made

end CaRegistry

end FabricCommon
