import FabricCommon.ConfigFactory

namespace FabricCommon

open JsonEdit PanicRun

namespace ConfigFactory

/-- `json[key]`, of an object by its own keys. Nothing is read of null. -/
def getKey (key : String) : Json → Except ConfigError (Option Json)
  | .obj fields => .ok (fields key)
  | .null => .error .TypeError
  | _ => .ok none

/-- A chain of reads; nothing is read of undefined. -/
def readAt : JsonPath → Json → Except ConfigError Json
  | [], json => .ok json
  | key :: path, json => do
    let some child ← getKey key json | .error .TypeError
    readAt path child

def getOrg (OrgName channelGroupType : String) (config : Json) :
    Except ConfigError (Option Json) := do
  let groups ← readAt (orgs channelGroupType) config
  getKey OrgName groups

/-- What is given where a function is expected. -/
inductive Predicate where
  | function (p : Json → Bool)
  | string (value : String)

/-- `items.find(predicate)`: before it looks at an item it checks that the predicate is a function.
Only a list has `find`. -/
def findIn : Json → Predicate → Except ConfigError (Option Json)
  | .arr items, .function p => .ok (items.find? p)
  | _, _ => .error .TypeError

def pushAdmin (adminCert : String) : Option Json → Except ConfigError (Option Json)
  | some admins => do
    let found ← findIn admins (.string adminCert)
    if found.any Json.truthy then return some admins
    else match admins with
      | .arr items => return some (.arr (items ++ [.str adminCert]))
      | _ => .error .TypeError
  | none => .error .TypeError

def mspConfig (OrgName channelGroupType : String) : JsonPath :=
  orgs channelGroupType ++ [OrgName, "values", "MSP", "value", "config"]

variable (_toBase64 : Json → Except ConfigError String)

def addAdmin (OrgName channelGroupType admin : String) : Edit := fun config => do
  let org ← getOrg OrgName channelGroupType config
  if org.any Json.truthy then
    let adminCert ← _toBase64 (.str admin)
    reach (mspConfig OrgName channelGroupType)
      (atKey (fun _ => .error .TypeError) "admins" (pushAdmin adminCert)) config
  else return config

/-- A sequence of calls. -/
def addAdmins (OrgName channelGroupType : String) (admins : List String) : Edit := fun config =>
  admins.foldlM (fun config admin => addAdmin _toBase64 OrgName channelGroupType admin config)
    config

end ConfigFactory

open ConfigFactory

/-- A certificate file with its content. -/
structure AdminFile (_toBase64 : Json → Except ConfigError String) where
  path : String
  cert : String
  content : _toBase64 (.str path) = .ok cert

/-- The list with the certificates that are not in it yet, each once, in the order they came. -/
def withAdmins (old : List Json) (certs : List String) : List Json :=
  old ++ ((certs.filter fun cert => !old.any (isText cert)).eraseDups).map Json.str

section

variable {_toBase64 : Json → Except ConfigError String} (OrgName channelGroupType : String)
  (files : List (AdminFile _toBase64)) (config : Json)

def AdminsInserted : Prop :=
  ∃ config', addAdmins _toBase64 OrgName channelGroupType (files.map AdminFile.path) config =
      .ok config' ∧
    (getOrg OrgName channelGroupType config = .ok none → config' = config) ∧
    ∀ old, valueAt (mspConfig OrgName channelGroupType ++ ["admins"]) config = some (.arr old) →
      config' = put (.arr (withAdmins old (files.map AdminFile.cert)))
        (mspConfig OrgName channelGroupType ++ ["admins"]) config

variable {OrgName channelGroupType files config}

theorem readAt_eq_ok {path : JsonPath} {json child : Json}
    (found : valueAt path json = some child) :
    readAt path json = .ok child := by
  induction path generalizing json with
  | nil => exact congrArg Except.ok (Option.some.inj found)
  | cons key path ih =>
    obtain ⟨fields, next, rfl, held, below⟩ := valueAt_cons found
    simp only [readAt, getKey, held]
    exact ih below

theorem not_pushAdmin {adminCert : String} {old new : Option Json} :
    pushAdmin adminCert old ≠ .ok new := by
  cases old with
  | none => exact nofun
  | some admins => cases admins <;> exact nofun

variable {groups : String → Option Json}

theorem getOrg_eq (found : valueAt (orgs channelGroupType) config = some (.obj groups)) :
    getOrg OrgName channelGroupType config = .ok (groups OrgName) := by
  simp only [getOrg, readAt_eq_ok found]
  rfl

theorem addAdmin_missing (found : valueAt (orgs channelGroupType) config = some (.obj groups))
    (missing : (groups OrgName).any Json.truthy = false) (admin : String) :
    addAdmin _toBase64 OrgName channelGroupType admin config = .ok config := by
  simp only [addAdmin, getOrg_eq found]
  exact if_neg (Bool.eq_false_iff.mp missing)

/-- A certificate is no function, so no call gets past the search for it. -/
theorem not_addAdmin_existing
    (found : valueAt (orgs channelGroupType) config = some (.obj groups))
    (existing : (groups OrgName).any Json.truthy = true) {admin : String} {config' : Json} :
    addAdmin _toBase64 OrgName channelGroupType admin config ≠ .ok config' := by
  intro run
  obtain ⟨org, got, run⟩ := bind_eq_ok.mp run
  cases (getOrg_eq found).symm.trans got
  rw [if_pos existing] at run
  obtain ⟨adminCert, _, run⟩ := bind_eq_ok.mp run
  obtain ⟨child, child', edited⟩ := edit_ran_of_under run
  rcases atKey_eq_ok.mp edited with h | h
  · obtain ⟨_, value, _, pushed, _⟩ := h
    exact not_pushAdmin pushed
  · exact absurd h.2.1 nofun

theorem existing_of_admins (found : valueAt (orgs channelGroupType) config = some (.obj groups))
    {old : List Json} (held : valueAt (mspConfig OrgName channelGroupType ++ ["admins"]) config =
      some (.arr old)) : (groups OrgName).any Json.truthy = true := by
  rw [mspConfig, List.append_assoc, valueAt_append, found] at held
  obtain ⟨_, org, same, present, below⟩ := valueAt_cons held
  cases same
  obtain ⟨_, _, rfl, _⟩ := valueAt_cons below
  rw [present]
  rfl

theorem addAdmins_missing (found : valueAt (orgs channelGroupType) config = some (.obj groups))
    (missing : (groups OrgName).any Json.truthy = false) (admins : List String) :
    addAdmins _toBase64 OrgName channelGroupType admins config = .ok config := by
  induction admins with
  | nil => rfl
  | cons admin admins ih =>
    rw [addAdmins, List.foldlM_cons, addAdmin_missing found missing]
    exact ih

theorem not_addAdmins_existing
    (found : valueAt (orgs channelGroupType) config = some (.obj groups))
    (existing : (groups OrgName).any Json.truthy = true) {admin : String} {admins : List String}
    {config' : Json} :
    addAdmins _toBase64 OrgName channelGroupType (admin :: admins) config ≠ .ok config' := by
  intro run
  rw [addAdmins, List.foldlM_cons] at run
  obtain ⟨_, first, _⟩ := bind_eq_ok.mp run
  exact not_addAdmin_existing found existing first

theorem adminsInserted_iff (OrgName channelGroupType : String)
    (files : List (AdminFile _toBase64)) (config : Json) (groups : String → Option Json)
    (found : valueAt (orgs channelGroupType) config = some (.obj groups)) :
    AdminsInserted OrgName channelGroupType files config ↔
      files = [] ∨ (groups OrgName).any Json.truthy = false := by
  constructor
  · intro h
    obtain ⟨config', run, _⟩ := h
    cases files with
    | nil => exact .inl rfl
    | cons file files =>
      refine .inr (Bool.eq_false_iff.mpr fun existing => ?_)
      exact not_addAdmins_existing found existing run
  · intro h
    rcases h with rfl | missing
    · refine ⟨config, rfl, fun _ => rfl, ?_⟩
      intro old held
      have same : withAdmins old (([] : List (AdminFile _toBase64)).map AdminFile.cert) = old :=
        List.append_nil old
      rw [same, put_self held]
    · refine ⟨config, addAdmins_missing found missing _, fun _ => rfl, ?_⟩
      intro old held
      rw [existing_of_admins found held] at missing
      cases missing

end

/-- One organisation, whose list of admins is empty. -/
def oneOrg : String → Option Json := fun key =>
  [("Org1", Json.object [("values", .object [("MSP", .object [("value", .object [("config",
    .object [("admins", .arr [])])])])])])].lookup key

def oneOrgConfig : Json :=
  .object [("channel_group", .object [("groups", .object [("Application",
    .object [("groups", .obj oneOrg)])])])]

def adminFile : AdminFile fun _ => .ok "YWRtaW4=" where
  path := "admin.pem"
  cert := "YWRtaW4="
  content := rfl

theorem adminsInserted_iff_missing :
    AdminsInserted "Org2" "Application" [adminFile] oneOrgConfig ↔
      [adminFile] = [] ∨ (oneOrg "Org2").any Json.truthy = false :=
  adminsInserted_iff "Org2" "Application" [adminFile] oneOrgConfig oneOrg rfl

theorem not_adminsInserted_first :
    ¬ AdminsInserted "Org1" "Application" [adminFile] oneOrgConfig := by
  intro h
  obtain ⟨config', run, _⟩ := h
  have found : valueAt (orgs "Application") oneOrgConfig = some (.obj oneOrg) := rfl
  exact not_addAdmins_existing found rfl run

end FabricCommon
