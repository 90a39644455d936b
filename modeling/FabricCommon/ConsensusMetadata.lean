import FabricCommon.ConfigFactory

namespace FabricCommon

open JsonEdit PanicRun ConfigFactory

/-- A port that `parseInt` takes for a number that a double holds exactly. -/
structure GivenPort where
  json : Json
  number : Int
  parses : parseInt json = .num number
  safe : number.natAbs < 2 ^ 53

/-- A consenter with the paths of its certificate files, which can be read. -/
structure GivenConsenter (_toBase64 : Json → Except ConfigError String) where
  client_tls_cert : String
  client_text : String
  client_read : _toBase64 (.str client_tls_cert) = .ok client_text
  server_tls_cert : String
  server_text : String
  server_read : _toBase64 (.str server_tls_cert) = .ok server_text
  host : String
  port : Option GivenPort

namespace GivenConsenter

variable {_toBase64 : Json → Except ConfigError String} (c : GivenConsenter _toBase64)

/-- The object that the caller passes. -/
def toJson : Json :=
  .object ([("client_tls_cert", .str c.client_tls_cert),
    ("server_tls_cert", .str c.server_tls_cert), ("host", .str c.host)] ++
    c.port.toList.map fun port => ("port", port.json))

/-- The object that a configuration has for it. -/
def encoded : Json :=
  .object [("client_tls_cert", .str c.client_text), ("server_tls_cert", .str c.server_text),
    ("host", .str c.host), ("port", .num ((c.port.elim 7050 GivenPort.number : Int) : Rat))]

/-- The caller has passed the texts of the files as their paths, and a whole number as the port. -/
def Encoded : Prop :=
  c.client_text = c.client_tls_cert ∧ c.server_text = c.server_tls_cert ∧
    ∃ n : Int, n.natAbs < 2 ^ 53 ∧ c.port.map GivenPort.json = some (.num n)

theorem GivenPort.number_of_json {port : GivenPort} {n : Int} (safe : n.natAbs < 2 ^ 53)
    (same : port.json = .num n) : port.number = n := by
  have parses := port.parses
  rw [same, parseInt_num safe] at parses
  simpa using parses.symm

theorem newConsenter_eq : newConsenter _toBase64 c.toJson = .ok c.encoded := by
  have client := c.client_read
  have server := c.server_read
  cases given : c.port with
  | none =>
    have default : parseInt (.num 7050) = .num 7050 := parseInt_num (n := 7050) (by decide)
    simp [toJson, Json.object, newConsenter, encoded, pemOf, given, List.lookup_cons, client,
      server, bind, Except.bind, default]
    rfl
  | some port =>
    simp [toJson, Json.object, newConsenter, encoded, pemOf, given, List.lookup_cons, client,
      server, bind, Except.bind, port.parses]
    rfl

theorem toJson_eq_encoded : c.toJson = c.encoded ↔ c.Encoded := by
  constructor
  · intro same
    have fields := congrFun (Json.obj.inj same)
    have client := fields "client_tls_cert"
    have server := fields "server_tls_cert"
    have port := fields "port"
    simp [List.lookup_cons] at client server
    refine ⟨client.symm, server.symm, ?_⟩
    cases given : c.port with
    | none => simp [given, List.lookup_cons] at port
    | some given' =>
      simp [given, List.lookup_cons] at port
      exact ⟨given'.number, given'.safe, congrArg some port⟩
  · intro h
    obtain ⟨client, server, n, safe, given⟩ := h
    obtain ⟨port, held, number⟩ := Option.map_eq_some_iff.mp given
    simp [toJson, encoded, client, server, held, number, GivenPort.number_of_json safe number]

end GivenConsenter

section

variable {_toBase64 : Json → Except ConfigError String}
  (consenters : List (GivenConsenter _toBase64)) (options : String → Option Json)

def setGiven : Edit :=
  setConsensusMetadata _toBase64 (some (.arr (consenters.map GivenConsenter.toJson)))
    (some (.obj options))

/-- The metadata that the arguments stand for. -/
def metadataOf : Json :=
  .object [("consenters", .arr (consenters.map GivenConsenter.encoded)),
    ("options", .obj options)]

/-- The call leaves the metadata that its arguments stand for, and made again changes nothing. -/
def MetadataReplaced (config : Json) : Prop :=
  ∃ config', setGiven consenters options config = .ok config' ∧
    valueAt (consensusValue ++ ["metadata"]) config' = some (metadataOf consenters options) ∧
    setGiven consenters options config' = .ok config'

/-- Nothing of the old metadata stays beside what is set. -/
def Replaceable : Option Json → Prop
  | none => True
  | some (.obj fields) => ∀ key, key ≠ "consenters" → key ≠ "options" → fields key = none
  | some json => json.truthy = false

variable {consenters options}

theorem newMetadata_eq :
    newMetadata _toBase64 (some (.arr (consenters.map GivenConsenter.toJson)))
      (some (.obj options)) = .ok (metadataOf consenters options) := by
  have mapped : (consenters.map GivenConsenter.toJson).mapM (newConsenter _toBase64) =
      .ok (consenters.map GivenConsenter.encoded) := by
    rw [mapM_eq_ok, List.forall₂_map_left_iff, List.forall₂_map_right_iff, List.forall₂_same]
    exact fun c _ => c.newConsenter_eq
  simp only [newMetadata, mapped]
  rfl

/-- The update of metadata that is there, which is made with the list as it is passed. -/
def updateGiven (consenters : List (GivenConsenter _toBase64)) (options : String → Option Json) :
    Edit :=
  assignGiven "options" (some (.obj options)) >=>
    assignGiven "consenters" (some (.arr (consenters.map GivenConsenter.toJson)))

theorem updateGiven_obj (fields : String → Option Json) :
    updateGiven consenters options (.obj fields) =
      .ok (.obj (Function.update (Function.update fields "options" (some (.obj options)))
        "consenters" (some (.arr (consenters.map GivenConsenter.toJson))))) := rfl

theorem updateGiven_plain {json json' : Json} (plain : ∀ fields, json ≠ .obj fields)
    (run : updateGiven consenters options json = .ok json') : json' = json := by
  obtain ⟨between, first, second⟩ := bind_eq_ok.mp run
  have first : assign "options" (.ok (.obj options)) json = .ok between := first
  have second : assign "consenters" (.ok (.arr (consenters.map GivenConsenter.toJson))) between =
    .ok json' := second
  obtain ⟨_, rfl⟩ := (atKey_plain plain).mp first
  exact ((atKey_plain plain).mp second).2

theorem toJsons_eq : consenters.map GivenConsenter.toJson = consenters.map GivenConsenter.encoded ↔
    ∀ c ∈ consenters, c.Encoded := by
  rw [List.map_inj_left]
  exact forall₂_congr fun c _ => c.toJson_eq_encoded

theorem updateGiven_eq_metadataOf {fields : String → Option Json} :
    updateGiven consenters options (.obj fields) = .ok (metadataOf consenters options) ↔
      (∀ c ∈ consenters, c.Encoded) ∧ Replaceable (some (.obj fields)) := by
  rw [updateGiven_obj, ← toJsons_eq]
  constructor
  · intro same
    have held := congrFun (Json.obj.inj (Except.ok.inj same))
    constructor
    · have list := held "consenters"
      rw [Function.update_self] at list
      exact Json.arr.inj (Option.some.inj list)
    · intro key differs differs'
      have other := held key
      rw [Function.update_of_ne differs, Function.update_of_ne differs'] at other
      rw [other]
      simp [List.lookup_cons, beq_eq_false_iff_ne.mpr differs, beq_eq_false_iff_ne.mpr differs']
  · intro h
    obtain ⟨list, others⟩ := h
    rw [list]
    refine congrArg (fun fields => Except.ok (Json.obj fields)) (funext fun key => ?_)
    by_cases first : key = "consenters"
    · subst first
      rfl
    · by_cases second : key = "options"
      · subst second
        rfl
      · rw [Function.update_of_ne first, Function.update_of_ne second, others key first second]
        simp [List.lookup_cons, beq_eq_false_iff_ne.mpr first, beq_eq_false_iff_ne.mpr second]

variable (consenters options) in
theorem replaceable_metadataOf : Replaceable (some (metadataOf consenters options)) := by
  intro key differs differs'
  simp [List.lookup_cons, beq_eq_false_iff_ne.mpr differs, beq_eq_false_iff_ne.mpr differs']

variable (consenters options) in
/-- What the property says of the metadata, on its own. -/
theorem updateElse_eq_metadataOf {old : Option Json} :
    updateElse (updateGiven consenters options) (.ok (metadataOf consenters options)) old =
        .ok (metadataOf consenters options) ↔
      (∀ json, old = some json → json.truthy = true → ∀ c ∈ consenters, c.Encoded) ∧
        Replaceable old := by
  cases old with
  | none => simp [updateElse, Replaceable]
  | some json =>
    by_cases truth : json.truthy = true
    · have chosen : updateElse (updateGiven consenters options)
          (.ok (metadataOf consenters options)) (some json) =
            updateGiven consenters options json := if_pos truth
      rw [chosen]
      by_cases isObject : ∃ fields, json = .obj fields
      · obtain ⟨fields, rfl⟩ := isObject
        rw [updateGiven_eq_metadataOf]
        simp [Json.truthy]
      · have plain : ∀ fields, json ≠ .obj fields := not_exists.mp isObject
        constructor
        · intro run
          exact absurd (updateGiven_plain plain run).symm (plain _)
        · intro h
          cases json with
          | obj fields => exact absurd rfl (plain fields)
          | _ => exact absurd truth (by simpa [Replaceable] using h.2)
    · have falsy : json.truthy = false := Bool.eq_false_iff.mpr truth
      have plain : ∀ fields, json ≠ .obj fields := by
        intro fields same
        subst same
        exact truth rfl
      have replaceable : Replaceable (some json) := by
        cases json with
        | obj fields => exact absurd rfl (plain fields)
        | _ => exact falsy
      simp [updateElse, falsy, replaceable]

theorem setGiven_eq_ok {config config' : Json} {fields : String → Option Json}
    (found : valueAt consensusValue config = some (.obj fields)) :
    setGiven consenters options config = .ok config' ↔ ∃ metadata,
      updateElse (updateGiven consenters options) (.ok (metadataOf consenters options))
        (fields "metadata") = .ok metadata ∧
      config' = put (.obj (Function.update fields "metadata" (some metadata))) consensusValue
        config := by
  rw [setGiven, setConsensusMetadata, newMetadata_eq, reach, under_eq_ok found]
  constructor
  · intro h
    obtain ⟨child', made, rfl⟩ := h
    obtain ⟨value, changed, rfl⟩ := atKey_obj.mp made
    obtain ⟨metadata, updated, same⟩ := bind_eq_ok.mp changed
    cases pure_eq_ok.mp same
    exact ⟨metadata, updated, rfl⟩
  · intro h
    obtain ⟨metadata, updated, rfl⟩ := h
    exact ⟨_, atKey_obj.mpr ⟨some metadata, bind_eq_ok.mpr ⟨metadata, updated, rfl⟩, rfl⟩, rfl⟩

section

variable {config : Json} {fields : String → Option Json}

theorem valueAt_updated (found : valueAt consensusValue config = some (.obj fields))
    (metadata : Json) :
    valueAt consensusValue (put (.obj (Function.update fields "metadata" (some metadata)))
      consensusValue config) = some (.obj (Function.update fields "metadata" (some metadata))) :=
  valueAt_put found

theorem encoded_of_metadataReplaced (found : valueAt consensusValue config = some (.obj fields))
    (h : MetadataReplaced consenters options config) :
    (∀ c ∈ consenters, c.Encoded) ∧ Replaceable (fields "metadata") := by
  have again := valueAt_updated found
  obtain ⟨config', run, held, rerun⟩ := h
  obtain ⟨metadata, updated, rfl⟩ := (setGiven_eq_ok found).mp run
  have same : metadata = metadataOf consenters options := by
    rw [valueAt_append, again] at held
    simpa [valueAt] using held
  subst same
  -- the second call finds metadata that the first one has made
  obtain ⟨metadata', updated', fixed⟩ := (setGiven_eq_ok (again _)).mp rerun
  rw [Function.update_self] at updated'
  rw [put_put found, Function.update_idem] at fixed
  have same : metadata' = metadataOf consenters options := by
    have read := congrArg (valueAt consensusValue) fixed
    rw [again, again] at read
    have value := congrFun (Json.obj.inj (Option.some.inj read)) "metadata"
    rw [Function.update_self, Function.update_self] at value
    exact (Option.some.inj value).symm
  subst same
  have encoded := ((updateElse_eq_metadataOf consenters options).mp updated').1 _ rfl rfl
  exact ⟨encoded, ((updateElse_eq_metadataOf consenters options).mp updated).2⟩

theorem metadataReplaced_of_encoded (found : valueAt consensusValue config = some (.obj fields))
    (encoded : ∀ c ∈ consenters, c.Encoded) (replaceable : Replaceable (fields "metadata")) :
    MetadataReplaced consenters options config := by
  have again := valueAt_updated found
  have updated := (updateElse_eq_metadataOf consenters options).mpr
    ⟨fun _ _ _ => encoded, replaceable⟩
  have updated' := (updateElse_eq_metadataOf consenters options).mpr
    ⟨fun _ _ _ => encoded, replaceable_metadataOf consenters options⟩
  refine ⟨_, (setGiven_eq_ok found).mpr ⟨_, updated, rfl⟩, ?_, ?_⟩
  · rw [valueAt_append, again]
    simp [valueAt]
  · refine (setGiven_eq_ok (again _)).mpr ⟨metadataOf consenters options, ?_, ?_⟩
    · rw [Function.update_self]
      exact updated'
    · rw [put_put found, Function.update_idem]

theorem metadataReplaced_iff (consenters : List (GivenConsenter _toBase64))
    (options : String → Option Json) (config : Json) (fields : String → Option Json)
    (found : valueAt consensusValue config = some (.obj fields)) :
    MetadataReplaced consenters options config ↔
      (∀ c ∈ consenters, c.Encoded) ∧ Replaceable (fields "metadata") := by
  constructor
  · exact encoded_of_metadataReplaced found
  · intro h
    exact metadataReplaced_of_encoded found h.1 h.2

end

end

/-- A channel of the ordering service with the given consensus. -/
def consensusConfig (fields : String → Option Json) : Json :=
  .object [("channel_group", .object [("groups", .object [("Orderer", .object [("values",
    .object [("ConsensusType", .object [("value", .obj fields)])])])])])]

theorem valueAt_consensusConfig (fields : String → Option Json) :
    valueAt consensusValue (consensusConfig fields) = some (.obj fields) := rfl

/-- A file named by the text of its own bytes. -/
def textFile : Json → Except ConfigError String
  | .str "Y2VydA==" => .ok "Y2VydA=="
  | _ => .error (.Error "ENOENT: no such file or directory")

/-- A consenter as it stands in a configuration. -/
def encodedConsenter : GivenConsenter textFile where
  client_tls_cert := "Y2VydA=="
  client_text := "Y2VydA=="
  client_read := rfl
  server_tls_cert := "Y2VydA=="
  server_text := "Y2VydA=="
  server_read := rfl
  host := "orderer0"
  port := some ⟨.num 7050, 7050, parseInt_num (n := 7050) (by decide), by decide⟩

def tickOptions : String → Option Json
  | "tick_interval" => some (.str "500ms")
  | _ => none

theorem metadataReplaced_encoded :
    MetadataReplaced [encodedConsenter] tickOptions (consensusConfig fun _ => none) := by
  refine (metadataReplaced_iff [encodedConsenter] tickOptions (consensusConfig fun _ => none)
    (fun _ => none) (valueAt_consensusConfig _)).mpr ⟨fun c member => ?_, trivial⟩
  rw [List.mem_singleton.mp member]
  exact ⟨rfl, rfl, 7050, by decide, rfl⟩

/-- A consenter whose files hold other bytes than their paths say. -/
def ordererConsenter : GivenConsenter fun _ => .ok "Y2VydA==" where
  client_tls_cert := "client.crt"
  client_text := "Y2VydA=="
  client_read := rfl
  server_tls_cert := "server.crt"
  server_text := "Y2VydA=="
  server_read := rfl
  host := "orderer0"
  port := none

theorem not_metadataReplaced_twice :
    ¬ MetadataReplaced [ordererConsenter] (fun _ => none) (consensusConfig fun _ => none) := by
  intro h
  have encoded := (encoded_of_metadataReplaced (valueAt_consensusConfig _) h).1
  exact absurd (encoded ordererConsenter List.mem_cons_self).1 (by decide)

end FabricCommon
