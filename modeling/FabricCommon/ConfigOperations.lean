import FabricCommon.ConfigFactory

namespace FabricCommon

open JsonEdit PanicRun ConfigFactory

namespace ConfigFactory

variable {edit : Edit} {path rest : JsonPath}

theorem reach_edits (edits : EditsAt rest edit) (path : JsonPath) :
    Edits [path ++ rest] (reach path edit) := Edits.one (edits.under .TypeError path)

theorem assign_settles (key : String) (value : Except ConfigError Json) :
    Settles (assign key value) := by
  apply Settles.atKey
  intro old new made
  exact made

theorem deleteKey_settles (key : String) : Settles (deleteKey key) := by
  apply Settles.atKey
  intro old new made
  exact made

/-- An update that keeps what it made, and that finds nothing to do in what is created. -/
theorem updateOrCreate_settles {key : String} {update : Edit} {create : Except ConfigError Json}
    (again : Settles update)
    (stays : ∀ old new, old.truthy = true → update old = .ok new → new.truthy = true)
    (created : ∀ new, create = .ok new → update new = .ok new) :
    Settles (updateOrCreate key update create) := by
  have made_again : ∀ new, create = .ok new → updateElse update create (some new) = .ok new := by
    intro new made
    show (if new.truthy then update new else create) = .ok new
    split
    · exact created new made
    · exact made
  apply Settles.atKey
  intro old new ran
  obtain ⟨json, made, returned⟩ := bind_eq_ok.mp ran
  cases pure_eq_ok.mp returned
  refine bind_eq_ok.mpr ⟨json, ?_, rfl⟩
  cases old with
  | none => exact made_again json made
  | some value =>
    by_cases truthy : value.truthy = true
    · have updated : update value = .ok json := (if_pos truthy).symm.trans made
      exact (if_pos (stays value json truthy updated)).trans (again value json updated)
    · exact made_again json ((if_neg truthy).symm.trans made)

theorem reach_settles (settles : Settles edit) (path : JsonPath) : Settles (reach path edit) :=
  settles.under .TypeError path

/-- An edit below a key leaves an object an object. -/
theorem inside_truthy {key : String} {json json' : Json}
    (ran : inside .TypeError key edit json = .ok json') : json'.truthy = true := by
  obtain ⟨fields, child, child', _, _, _, rfl⟩ := inside_eq_ok.mp ran
  rfl

/-- `setAnchorPeers` and `setCapability` write one property of `value`, in what is there or in a new
object. -/
theorem writeValue_settles {key property : String} {json : Json} {fields : String → Option Json}
    (value : fields "value" = some (.object [(property, json)])) :
    Settles (updateOrCreate key (reach ["value"] (assign property (.ok json)))
      (.ok (.obj fields))) := by
  apply updateOrCreate_settles
  · exact reach_settles (assign_settles property (.ok json)) ["value"]
  · intro old new _ ran
    exact inside_truthy ran
  · intro new made
    cases Except.ok.inj made
    apply inside_of_held value
    show assign property (.ok json) (.obj fun key => List.lookup key [(property, json)]) = _
    apply atKey_of_held
    rw [List.lookup_cons_self]
    rfl

theorem setAnchorPeers_settles (orgName : String) (anchorPeers : List HostPort) :
    Settles (setAnchorPeers orgName anchorPeers) := by
  apply reach_settles
  apply writeValue_settles
  rfl

theorem setCapability_settles (version : String) : Settles (setCapability version) := by
  apply reach_settles
  apply writeValue_settles
  rfl

theorem newOrg_truthy {_toBase64 : Json → Except ConfigError String} {MSPID : String}
    {pems : OrgPems} {org : Json} (made : newOrg _toBase64 MSPID pems = .ok org) :
    org.truthy = true := by
  obtain ⟨admins, _, made⟩ := bind_eq_ok.mp made
  obtain ⟨root_certs, _, made⟩ := bind_eq_ok.mp made
  obtain ⟨tls_root_certs, _, made⟩ := bind_eq_ok.mp made
  cases pure_eq_ok.mp made
  rfl

theorem createOrUpdateOrg_settles (_toBase64 : Json → Except ConfigError String)
    (OrgName MSPID channelGroupType : String) (pems : OrgPems) (skipIfExist : Bool) :
    Settles (createOrUpdateOrg _toBase64 OrgName MSPID channelGroupType pems skipIfExist) := by
  apply reach_settles
  cases skipIfExist with
  | true =>
    apply updateOrCreate_settles
    · intro old new kept
      cases Except.ok.inj kept
      rfl
    · intro old new truthy kept
      cases Except.ok.inj kept
      exact truthy
    · intro new _
      rfl
  | false =>
    apply updateOrCreate_settles
    · intro old new made
      exact made
    · intro old new _ made
      exact newOrg_truthy made
    · intro new made
      exact made

theorem pushAddress_settles (newAddr : String) : Settles (pushAddress newAddr) := by
  have listed : ∀ addresses : List Json, addresses.any (isText newAddr) = true →
      pushAddress newAddr (some (.arr addresses)) = .ok (some (.arr addresses)) :=
    fun addresses found => if_pos found
  intro old new ran
  cases old with
  | none => exact absurd ran (by simp [pushAddress])
  | some json =>
    cases json with
    | arr addresses =>
      by_cases found : addresses.any (isText newAddr) = true
      · cases Except.ok.inj ((listed addresses found).symm.trans ran)
        exact listed addresses found
      · have pushed : some (.arr (addresses ++ [.str newAddr])) = new :=
          Except.ok.inj ((if_neg found).symm.trans ran)
        rw [← pushed]
        apply listed
        simp [isText]
    | str addresses =>
      by_cases found : newAddr.toList <:+: addresses.toList
      · have kept : some (.str addresses) = new := Except.ok.inj ((if_pos found).symm.trans ran)
        rw [← kept]
        exact if_pos found
      · exact absurd ((if_neg found).symm.trans ran) (by simp)
    | _ => exact absurd ran (by simp [pushAddress])

theorem addOrdererAddress_settles (newAddr : String) : Settles (addOrdererAddress newAddr) :=
  reach_settles (pushAddress_settles newAddr).atKey _

theorem setConsensusType_settles (type : String) : Settles (setConsensusType type) := by
  unfold setConsensusType
  split
  · apply Settles.next
    · exact reach_settles (assign_settles _ _) _
    · exact reach_settles (deleteKey_settles _) _
    · apply EditsAt.swaps
      · exact (EditsAt.here _ _ _).under _ _
      · exact (EditsAt.here _ _ _).under _ _
      · simp [consensusValue, ordererValues, channelGroup]
      · simp [consensusValue, ordererValues, channelGroup]
  · intro old new ran
    exact absurd ran (by simp)

end ConfigFactory

namespace ConfigOp

variable (_toBase64 : Json → Except ConfigError String)

theorem run_edits (op : ConfigOp) : Edits op.targets (op.run _toBase64) := by
  cases op with
  | deleteMSP OrgName channelGroupType => exact reach_edits (EditsAt.here _ _ _) _
  | assignDictator MSPID channelGroupType =>
    exact reach_edits (EditsAt.here _ _ _) (channelGroup channelGroupType ++ ["policies", "Admins"])
  | setAnchorPeers orgName anchorPeers =>
    exact reach_edits (EditsAt.here _ _ _) (orgs "Application" ++ [orgName, "values"])
  | createOrUpdateOrg OrgName MSPID channelGroupType pems skipIfExist =>
    exact reach_edits (EditsAt.here _ _ _) _
  | setCapability version => exact reach_edits (EditsAt.here _ _ _) _
  | addOrdererAddress newAddr =>
    exact reach_edits (EditsAt.here _ _ _) ["channel_group", "values", "OrdererAddresses", "value"]
  | setConsensusType type =>
    show Edits _ (ConfigFactory.setConsensusType type)
    unfold ConfigFactory.setConsensusType
    split
    · exact (reach_edits (EditsAt.here _ _ _) _).next (reach_edits (EditsAt.here _ _ _) _)
    · exact Edits.fails _ _
  | setConsensusMetadata consenters options => exact reach_edits (EditsAt.here _ _ _) _
  | maintenanceMode isDirectionIn => exact reach_edits (EditsAt.here _ _ _) _

theorem run_settles (op : ConfigOp)
    (other : ∀ consenters options, op ≠ .setConsensusMetadata consenters options) :
    Settles (op.run _toBase64) := by
  cases op with
  | deleteMSP OrgName channelGroupType => exact reach_settles (deleteKey_settles _) _
  | assignDictator MSPID channelGroupType => exact reach_settles (assign_settles _ _) _
  | setAnchorPeers orgName anchorPeers => exact setAnchorPeers_settles orgName anchorPeers
  | createOrUpdateOrg OrgName MSPID channelGroupType pems skipIfExist =>
    exact createOrUpdateOrg_settles _toBase64 OrgName MSPID channelGroupType pems skipIfExist
  | setCapability version => exact setCapability_settles version
  | addOrdererAddress newAddr => exact addOrdererAddress_settles newAddr
  | setConsensusType type => exact setConsensusType_settles type
  | setConsensusMetadata consenters options => exact absurd rfl (other consenters options)
  | maintenanceMode isDirectionIn => exact reach_settles (assign_settles _ _) _

end ConfigOp

/-- An operation changes nothing outside its targets, operations with targets apart can change
places, and all but one change nothing more when they are repeated. -/
theorem config_operations_local_commuting_idempotent
    (_toBase64 : Json → Except ConfigError String) :
    (∀ (op : ConfigOp) (config config' : Json), op.run _toBase64 config = .ok config' →
      ∀ place : JsonPath, (∀ path ∈ op.targets, ¬ path <+: place) →
        part place (some config') = part place (some config)) ∧
    (∀ op op' : ConfigOp, op.Apart op' → ∀ config config' : Json,
      op.run _toBase64 config >>= op'.run _toBase64 = .ok config' ↔
        op'.run _toBase64 config >>= op.run _toBase64 = .ok config') ∧
    (∀ op : ConfigOp, (∀ consenters options, op ≠ .setConsensusMetadata consenters options) →
      ∀ config : Json,
        op.run _toBase64 config >>= op.run _toBase64 = op.run _toBase64 config) := by
  refine ⟨?_, ?_, ?_⟩
  · intro op config config' ran place apart
    exact (op.run_edits _toBase64).part_eq ran apart
  · intro op op' apart config config'
    exact ((op.run_edits _toBase64).commutes (op'.run_edits _toBase64) apart).eq_ok
  · intro op other config
    exact (op.run_settles _toBase64 other).bind_self config

/-- A channel whose orderer still runs on Kafka, with one more property that no operation knows. -/
def kafkaConfig : Json :=
  .object [
    ("channel_group", .object [
      ("groups", .object [
        ("Orderer", .object [
          ("values", .object [
            ("ConsensusType", .object [
              ("value", .object [("type", .str "kafka"), ("metadata", .null)])]),
            ("KafkaBrokers", .object [("mod_policy", .str "Admins")]),
            ("BatchSize", .object [("version", .str "0")])])])])])]

theorem kafkaConfig_moves_to_etcdraft :
    ∃ draft both : Json,
      (ConfigOp.setConsensusType "etcdraft").run (fun _ => .ok "cGVt") kafkaConfig = .ok draft ∧
      part (ordererValues ++ ["BatchSize", "version"]) (some draft) = some (.str "0") ∧
      (ConfigOp.setConsensusType "etcdraft").run (fun _ => .ok "cGVt") kafkaConfig >>=
        (ConfigOp.maintenanceMode true).run (fun _ => .ok "cGVt") = .ok both ∧
      (ConfigOp.maintenanceMode true).run (fun _ => .ok "cGVt") kafkaConfig >>=
        (ConfigOp.setConsensusType "etcdraft").run (fun _ => .ok "cGVt") = .ok both ∧
      (ConfigOp.setConsensusType "etcdraft").run (fun _ => .ok "cGVt") draft = .ok draft := by
  have laws := config_operations_local_commuting_idempotent fun _ => .ok "cGVt"
  have apart : (ConfigOp.setConsensusType "etcdraft").Apart (.maintenanceMode true) := by
    simp [ConfigOp.Apart, ConfigOp.targets, consensusValue, ordererValues, channelGroup]
  refine ⟨_, _, rfl, ?_, rfl, ?_, ?_⟩
  · apply (laws.1 (.setConsensusType "etcdraft") kafkaConfig _ rfl _ ?_).trans
    · rfl
    · simp [ConfigOp.targets, consensusValue, ordererValues, channelGroup]
  · exact (laws.2.1 _ _ apart kafkaConfig _).mp rfl
  · exact laws.2.2 (.setConsensusType "etcdraft") (by simp) kafkaConfig

end FabricCommon
