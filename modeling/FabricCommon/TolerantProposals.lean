import FabricCommon.QueryHub

namespace FabricCommon

open LifecycleProposal

/-- The calls of a lifecycle proposal that let one answer of a peer pass, with their arguments. -/
inductive TolerantCall where
  | installChaincode (packageTarGz : String) (packageId : Option String)
  | approveForMyOrg (id : DefinitionId) (PackageID : Option String)
  | queryChaincodeDefinition (name : String)

namespace TolerantCall

variable (protos : LifecycleProtos) (readFileSync : String → Except String Buffer)

/-- The call on a fresh proposal, with the flag that it sets on the result. -/
def run (call : TolerantCall) (result : ProposalResponse) : Except LifecycleError Bool :=
  match call with
  | installChaincode packageTarGz packageId =>
    (fresh.installChaincode protos readFileSync packageTarGz packageId (.ok result)).result.map
      (·.installed)
  | approveForMyOrg id PackageID =>
    (fresh.approveForMyOrg id PackageID (.ok result)).result.map (·.noChange)
  | queryChaincodeDefinition name =>
    (fresh.queryChaincodeDefinition protos (some name) (.ok result)).result.map (·.notFound)

/-- The tolerated answer. -/
def symptom (call : TolerantCall) (response : PeerResponse) : Bool :=
  match call with
  | installChaincode _ packageId => hasInstalled response packageId
  | approveForMyOrg id _ => hasNoChange response id.name id.sequence
  | queryChaincodeDefinition name => hasNoDefinition response (some name)

/-- The package file can be read, and a name is one. -/
def WellPosed : TolerantCall → Prop
  | installChaincode packageTarGz _ => PanicRun.Returns (readFileSync packageTarGz)
  | approveForMyOrg _ _ => True
  | queryChaincodeDefinition name => name ≠ ""

/-- The payload is the message that the call expects, with a policy as its `validation_parameter`;
the payloads of approvals are not decoded. -/
def Decodable (call : TolerantCall) (payload : Buffer) : Prop :=
  match call with
  | installChaincode _ _ => PanicRun.Returns (protos.decodeInstallChaincodeResult payload)
  | approveForMyOrg _ _ => True
  | queryChaincodeDefinition _ => PanicRun.Returns (decodeNamed protos payload)

end TolerantCall

section Verdict

variable {α β : Type} {result : ProposalResponse} {tolerates : PeerResponse → Bool}

/-- The verdict on the answers of the peers, with the value of a call that gets through. -/
def verdict (result : ProposalResponse) (tolerates : PeerResponse → Bool) (value : α) :
    Except LifecycleError α :=
  if result.errors ≠ [] then .error (.intercepted (.SYSTEM_ERROR result.errors))
  else if result.untolerated tolerates ≠ [] then
    .error (.intercepted
      (.ENDORSE_ERROR ((result.untolerated tolerates).map EndorsementResponse.report)))
  else .ok value

/-- Only a call that gets through has a value of its own. -/
theorem verdict_cases (result : ProposalResponse) (tolerates : PeerResponse → Bool) :
    (∃ err, ∀ {α : Type} (value : α), verdict result tolerates value = .error err) ∨
      ∀ {α : Type} (value : α), verdict result tolerates value = .ok value := by
  by_cases errors : result.errors = []
  · by_cases cleared : result.untolerated tolerates = []
    · exact .inr fun value => by simp [verdict, errors, cleared]
    · exact .inl ⟨_, fun value => by simp [verdict, errors, cleared]; rfl⟩
  · exact .inl ⟨_, fun value => by simp [verdict, errors]; rfl⟩

theorem verdict_eq_ok {value value' : α} (h : verdict result tolerates value = .ok value') :
    value' = value := by
  unfold verdict at h
  split at h
  next => cases h
  next =>
    split at h
    next => cases h
    next => exact (Except.ok.inj h).symm

theorem verdict_eq_ENDORSE_ERROR {value : α} {errors : List (String × ReportedResponse)}
    (h : verdict result tolerates value = .error (.intercepted (.ENDORSE_ERROR errors))) :
    errors = (result.untolerated tolerates).map EndorsementResponse.report := by
  unfold verdict at h
  split at h
  next => cases h
  next =>
    split at h
    next =>
      cases h
      rfl
    next => cases h

theorem send_eq_verdict {p : LifecycleProposal} {handler : ResultHandler}
    (lets : handler.tolerates = tolerates) (distinct : (result.responses.map (·.url)).Nodup) :
    (p.setResultHandler handler).send (.ok result) = verdict result tolerates result := by
  subst lets
  simp only [send, setResultHandler, ResultHandler.apply, verdict,
    EndorseALL_eq distinct (errorsFilter_eq _)]
  by_cases errors : result.errors = []
  · by_cases cleared : result.untolerated handler.tolerates = []
    · simp [errors, cleared]
    · simp [errors, cleared]
  · simp [errors]

theorem returns_decoded {decode : Buffer → Except String α}
    (each : ∀ r ∈ result.responses, PanicRun.Returns (decode r.response.payload)) :
    ∃ values, decoded decode (getResponses result) = .ok values := by
  have payloads : ∀ response ∈ getResponses result, PanicRun.Returns (decode response.payload) := by
    intro response member
    obtain ⟨r, listed, rfl⟩ := List.mem_map.mp member
    exact each r listed
  obtain ⟨values, results⟩ := PanicRun.returns_mapM.mpr payloads
  exact ⟨values, decoded_eq_ok.mpr (PanicRun.mapM_eq_ok.mp results)⟩

theorem all_getResponses (p : PeerResponse → Bool) :
    (getResponses result).all p = result.responses.all fun r => p r.response := by
  rw [getResponses, List.all_map]
  rfl

end Verdict

section

variable {protos : LifecycleProtos} {readFileSync : String → Except String Buffer}
  {result : ProposalResponse}

theorem TolerantCall.run_eq_verdict {call : TolerantCall}
    (distinct : (result.responses.map (·.url)).Nodup) (posed : call.WellPosed readFileSync)
    (decodable : ∀ r ∈ result.responses, call.Decodable protos r.response.payload) :
    call.run protos readFileSync result =
      verdict result call.symptom (result.responses.all fun r => call.symptom r.response) := by
  cases call with
  | installChaincode packageTarGz packageId =>
    obtain ⟨fileContent, file⟩ := posed
    obtain ⟨queryResults, results⟩ := returns_decoded decodable
    have sent := send_eq_verdict (p := fresh)
      (show (ResultHandler.skipIfInstalled packageId).tolerates = _ from rfl) distinct
    rcases verdict_cases result (hasInstalled · packageId) with h | h
    · obtain ⟨err, h⟩ := h
      have sent := sent.trans (h result)
      simp only [run, LifecycleProposal.installChaincode, file, sent]
      exact (h _).symm
    · have sent := sent.trans (h result)
      simp only [run, LifecycleProposal.installChaincode, file, sent, results, all_getResponses]
      exact (h _).symm
  | approveForMyOrg id PackageID =>
    have sent := send_eq_verdict (p := fresh)
      (show (ResultHandler.skipIfNoChange id.name id.sequence).tolerates = _ from rfl) distinct
    rcases verdict_cases result (hasNoChange · id.name id.sequence) with h | h
    · obtain ⟨err, h⟩ := h
      have sent := sent.trans (h result)
      simp only [run, LifecycleProposal.approveForMyOrg, sent]
      exact (h _).symm
    · have sent := sent.trans (h result)
      simp only [run, LifecycleProposal.approveForMyOrg, sent, all_getResponses]
      exact (h _).symm
  | queryChaincodeDefinition name =>
    have named : truthy (some name) = true := decide_eq_true posed
    have decodes : ∀ r ∈ result.responses,
        PanicRun.Returns (decodeDefinitions protos (some name) r.response.payload) := by
      intro r member
      obtain ⟨definition, decoded⟩ := decodable r member
      exact ⟨[definition], by simp only [decodeDefinitions, named, decoded]; rfl⟩
    obtain ⟨queryResults, results⟩ := returns_decoded decodes
    have tolerates : (ResultHandler.skipIfNoDefinition (some name)).tolerates =
        (hasNoDefinition · (some name)) := by
      funext response
      simp only [ResultHandler.tolerates, named, Bool.true_and]
    have sent := send_eq_verdict (p := fresh) tolerates distinct
    rcases verdict_cases result (hasNoDefinition · (some name)) with h | h
    · obtain ⟨err, h⟩ := h
      have sent := sent.trans (h result)
      simp only [run, LifecycleProposal.queryChaincodeDefinition, sent]
      exact (h _).symm
    · have sent := sent.trans (h result)
      simp only [run, LifecycleProposal.queryChaincodeDefinition, sent, results, all_getResponses]
      exact (h _).symm

/-- The answer that `join` passes over. -/
def joinedAlready (channelName : String) (response : PeerResponse) : Bool :=
  hasJoined channelName ⟨response.status, response.message⟩

theorem join_eq (channelName : String) (distinct : (result.responses.map (·.url)).Nodup) :
    QueryHub.join channelName (.ok result) =
      if result.errors ≠ [] then .error (.intercepted (.SYSTEM_ERROR result.errors))
      else if result.untolerated (joinedAlready channelName) ≠ [] then
        .error (.intercepted (.ENDORSE_ERROR
          ((result.untolerated fun _ => false).map EndorsementResponse.report)))
      else .ok (if result.untolerated (fun _ => false) = [] then some result else none) := by
  have endorsed : EndorseALL result none =
      if result.errors ≠ [] then .error (.SYSTEM_ERROR result.errors)
      else if (result.untolerated fun _ => false) ≠ [] then
        .error (.ENDORSE_ERROR ((result.untolerated fun _ => false).map EndorsementResponse.report))
      else .ok result := EndorseALL_eq distinct fun _ => rfl
  by_cases errors : result.errors = []
  · by_cases failed : (result.untolerated fun _ => false) = []
    · have cleared : result.untolerated (joinedAlready channelName) = [] :=
        untolerated_eq_nil.mpr fun r member bad =>
          absurd (untolerated_eq_nil.mp failed r member bad) Bool.false_ne_true
      simp only [QueryHub.join, sendHandled, endorsed]
      simp [errors, failed, cleared]
    · have passed : ((result.untolerated fun _ => false).map EndorsementResponse.report).all
          (fun entry => hasJoined channelName entry.2) = true ↔
            result.untolerated (joinedAlready channelName) = [] := by
        rw [untolerated_eq_nil, List.all_map, List.all_eq_true]
        simp only [ProposalResponse.untolerated, List.mem_filter, and_true, decide_eq_true_eq,
          and_imp]
        rfl
      have sent : sendHandled (EndorseALL · none) (.ok result) =
          .error (.intercepted (.ENDORSE_ERROR
            ((result.untolerated fun _ => false).map EndorsementResponse.report))) := by
        simp [sendHandled, endorsed, errors, failed]
      simp only [QueryHub.join, sent, passed]
      by_cases cleared : result.untolerated (joinedAlready channelName) = []
      · simp [errors, failed, cleared]
      · simp [errors, cleared]
  · simp only [QueryHub.join, sendHandled, endorsed]
    simp [errors]

end

section

variable {α : Type}

def SystemError (run : Except LifecycleError α) : Prop :=
  ∃ errors, run = .error (.intercepted (.SYSTEM_ERROR errors))

def EndorseError (run : Except LifecycleError α) : Prop :=
  ∃ errors, run = .error (.intercepted (.ENDORSE_ERROR errors))

/-- The run fails for a transport error, otherwise for an untolerated failure, otherwise not. -/
def DecidedBy (result : ProposalResponse) (tolerates : PeerResponse → Bool)
    (run : Except LifecycleError α) : Prop :=
  (SystemError run ↔ result.errors ≠ []) ∧
    (result.errors = [] → (EndorseError run ↔
      ∃ r ∈ result.responses, r.Failed ∧ tolerates r.response = false)) ∧
    (result.errors = [] → (¬ ∃ r ∈ result.responses, r.Failed ∧ tolerates r.response = false) →
      ∃ value, run = .ok value)

theorem decidedBy_of_eq {result : ProposalResponse} {tolerates : PeerResponse → Bool}
    {run : Except LifecycleError α} {reported : List (String × ReportedResponse)} {value : α}
    (h : run = if result.errors ≠ [] then .error (.intercepted (.SYSTEM_ERROR result.errors))
      else if result.untolerated tolerates ≠ [] then
        .error (.intercepted (.ENDORSE_ERROR reported))
      else .ok value) : DecidedBy result tolerates run := by
  have passed : result.untolerated tolerates = [] ↔
      ¬ ∃ r ∈ result.responses, r.Failed ∧ tolerates r.response = false := by
    rw [untolerated_eq_nil]
    simp
  subst h
  refine ⟨?_, ?_, ?_⟩
  · by_cases errors : result.errors = []
    · by_cases cleared : result.untolerated tolerates = []
      · simp [SystemError, errors, cleared]
      · simp [SystemError, errors, cleared]
    · simp [SystemError, errors]
  · intro errors
    rw [← not_iff_not, ← passed]
    by_cases cleared : result.untolerated tolerates = []
    · simp [EndorseError, errors, cleared]
    · simp [EndorseError, errors, cleared]
  · intro errors rest
    exact ⟨value, by simp [errors, passed.mpr rest]⟩

theorem tolerant_outcome (protos : LifecycleProtos) (readFileSync : String → Except String Buffer)
    (result : ProposalResponse) (distinct : (result.responses.map (·.url)).Nodup) :
    (∀ call : TolerantCall, call.WellPosed readFileSync →
      (∀ r ∈ result.responses, call.Decodable protos r.response.payload) →
        DecidedBy result call.symptom (call.run protos readFileSync result) ∧
        (∀ flag, call.run protos readFileSync result = .ok flag →
          (flag = true ↔ ∀ r ∈ result.responses, call.symptom r.response = true)) ∧
        ∀ errors, call.run protos readFileSync result =
            .error (.intercepted (.ENDORSE_ERROR errors)) →
          errors = (result.untolerated call.symptom).map EndorsementResponse.report) ∧
      ∀ channelName, DecidedBy result (joinedAlready channelName)
        (QueryHub.join channelName (.ok result)) := by
  constructor
  · intro call posed decodable
    have run := call.run_eq_verdict distinct posed decodable
    refine ⟨decidedBy_of_eq run, ?_, ?_⟩
    · intro flag completed
      rw [verdict_eq_ok (run.symm.trans completed)]
      exact List.all_eq_true
    · intro errors failed
      exact verdict_eq_ENDORSE_ERROR (run.symm.trans failed)
  · intro channelName
    exact decidedBy_of_eq (join_eq channelName distinct)

/-- An answer with sequence 1 and a `validation_parameter` that no message begins with. -/
def brokenPolicy : ProposalResponse :=
  ⟨[], [⟨⟨200, "", [0x08, 1, 0x2a, 1, 0xff]⟩, "grpcs://peer0:7051"⟩]⟩

/-- What the classes make of that answer. -/
def brokenPolicyProtos : LifecycleProtos :=
  { emptyProtos with
    decodeQueryChaincodeDefinitionResult := fun _ =>
      .ok ⟨⟨ProtoLong.int64 1, "", "", "", [0xff], none, false⟩, []⟩
    decodeApplicationPolicy := fun bytes =>
      if bytes = [] then .ok ⟨none, none⟩ else .error "index out of range: 1 + 10 > 1" }

/-- A definition that is sent as it should be is not returned for the policy inside. -/
theorem not_decidedBy_brokenPolicy :
    (brokenPolicy.responses.map (·.url)).Nodup ∧
      (∀ r ∈ brokenPolicy.responses, PanicRun.Returns
        (brokenPolicyProtos.decodeQueryChaincodeDefinitionResult r.response.payload)) ∧
      ¬ DecidedBy brokenPolicy (TolerantCall.queryChaincodeDefinition "cc").symptom
        ((TolerantCall.queryChaincodeDefinition "cc").run brokenPolicyProtos (fun _ => .ok [])
          brokenPolicy) := by
  refine ⟨by decide, fun r _ => ⟨_, rfl⟩, fun h => ?_⟩
  have succeeds : ¬ ∃ r ∈ brokenPolicy.responses, r.Failed ∧
      (TolerantCall.queryChaincodeDefinition "cc").symptom r.response = false := by
    simp [brokenPolicy, EndorsementResponse.Failed]
  obtain ⟨flag, completed⟩ := h.2.2 rfl succeeds
  have throws : (TolerantCall.queryChaincodeDefinition "cc").run brokenPolicyProtos
      (fun _ => .ok []) brokenPolicy = .error (.decode "index out of range: 1 + 10 > 1") := rfl
  rw [throws] at completed
  cases completed

/-- A rollout that was half done before. -/
def partialInstall : ProposalResponse :=
  ⟨[], [⟨⟨200, "", []⟩, "grpcs://peer0:7051"⟩,
    ⟨⟨500, installedPrefix ++ " (package ID 'cc:1')", []⟩, "grpcs://peer1:7051"⟩]⟩

theorem tolerant_outcome_partialInstall :
    DecidedBy partialInstall (TolerantCall.installChaincode "cc.tar.gz" none).symptom
      ((TolerantCall.installChaincode "cc.tar.gz" none).run emptyProtos (fun _ => .ok [])
        partialInstall) :=
  ((tolerant_outcome emptyProtos (fun _ => .ok []) partialInstall (by decide)).1
    (.installChaincode "cc.tar.gz" none) ⟨[], rfl⟩ fun _ _ => ⟨⟨"", ""⟩, rfl⟩).1

end

end FabricCommon
