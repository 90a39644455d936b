import FabricCommon.LifecycleProposal
import FabricCommon.ListRules
import FabricCommon.PanicRun

namespace FabricCommon

open PanicRun ProtoLong LifecycleProposal

/-- A peer that answers with the list of the definitions committed on a channel. -/
structure ListingPeer (protos : LifecycleProtos) where
  url : String
  message : String
  payload : Buffer
  definitions : List ChaincodeDefinition
  encoded : protos.decodeQueryChaincodeDefinitionsResult payload = .ok definitions

section

variable {protos : LifecycleProtos}

def ListingPeer.response (peer : ListingPeer protos) : EndorsementResponse :=
  ⟨⟨200, peer.message, peer.payload⟩, peer.url⟩

def listing (peers : List (ListingPeer protos)) : ProposalResponse :=
  ⟨[], peers.map ListingPeer.response⟩

end

variable (protos : LifecycleProtos) (p : LifecycleProposal)

/-- The record has the fields that a query for the definition by its name gives, whatever approvals
the peer reports with it. -/
def AgreesWithNamed (definition : ChaincodeDefinition) (record : QueriedDefinition) : Prop :=
  ∀ url message payload approvals out, truthy (some definition.name) →
    protos.decodeQueryChaincodeDefinitionResult payload = .ok ⟨definition.fields, approvals⟩ →
    (p.queryChaincodeDefinition protos (some definition.name)
      (.ok ⟨[], [⟨⟨200, message, payload⟩, url⟩]⟩)).result = .ok out →
    ∃ named, out.queryResults = [[named]] ∧ record.fields = named.fields

/-- The listing returns with one agreeing record for each definition, in order, for each peer. -/
def ListsLikeNamed (peers : List (ListingPeer protos)) : Prop :=
  ∃ out, (p.queryChaincodeDefinition protos none (.ok (listing peers))).result = .ok out ∧
    List.Forall₂ (fun peer => List.Forall₂ (AgreesWithNamed protos p) peer.definitions)
      peers out.queryResults

variable {protos p}

theorem listing_result (peers : List (ListingPeer protos)) :
    (p.queryChaincodeDefinition protos none (.ok (listing peers))).result =
      (decoded (decodeListed protos) (getResponses (listing peers))).map
        (⟨(getResponses (listing peers)).all (hasNoDefinition · none), ·⟩) := by
  have success : ∀ r ∈ (listing peers).responses, ¬ r.Failed := by
    intro r member
    obtain ⟨peer, _, rfl⟩ := List.mem_map.mp member
    exact fun failed => failed rfl
  exact queryChaincodeDefinition_result rfl fun r member failed => absurd failed (success r member)

theorem decodeListed_nil {payload : Buffer}
    (encoded : protos.decodeQueryChaincodeDefinitionsResult payload = .ok []) :
    decodeListed protos payload = .ok [] := by
  simp only [decodeListed, encoded]
  rfl

/-- The elements are decoded twice, and the second time they are no encoded bytes. -/
theorem not_decodeListed_cons {payload : Buffer} {definition : ChaincodeDefinition}
    {definitions : List ChaincodeDefinition} {records : List QueriedDefinition}
    (encoded : protos.decodeQueryChaincodeDefinitionsResult payload =
      .ok (definition :: definitions))
    (rejects : ∃ err, protos.decodeChaincodeDefinition definition = .error err) :
    decodeListed protos payload ≠ .ok records := by
  intro decoded
  simp only [decodeListed, encoded] at decoded
  have each := mapM_eq_ok.mp decoded
  obtain ⟨record, _, first, _, _⟩ := List.forall₂_cons_left_iff.mp each
  obtain ⟨resultSingle, again, _⟩ := bind_eq_ok.mp first
  obtain ⟨err, rejected⟩ := rejects
  rw [rejected] at again
  cases again

theorem decodeListed_of_listing {peers : List (ListingPeer protos)} {out : QueryDefinitionResult}
    (run : (p.queryChaincodeDefinition protos none (.ok (listing peers))).result = .ok out) :
    List.Forall₂ (fun peer records => decodeListed protos peer.payload = .ok records)
      peers out.queryResults := by
  have each := queryChaincodeDefinition_eq_ok run
  have unnamed : decodeDefinitions protos none = decodeListed protos := rfl
  simpa [getResponses, listing, ListingPeer.response, unnamed] using each

theorem listing_of_decodeListed {peers : List (ListingPeer protos)}
    {queryResults : List (List QueriedDefinition)}
    (each : List.Forall₂ (fun peer records => decodeListed protos peer.payload = .ok records)
      peers queryResults) :
    ∃ notFound, (p.queryChaincodeDefinition protos none (.ok (listing peers))).result =
      .ok ⟨notFound, queryResults⟩ := by
  have all : decoded (decodeListed protos) (getResponses (listing peers)) = .ok queryResults := by
    refine decoded_eq_ok.mpr ?_
    simpa [getResponses, listing, ListingPeer.response] using each
  rw [listing_result, all]
  exact ⟨_, rfl⟩

theorem listsLikeNamed_iff (p : LifecycleProposal) (peers : List (ListingPeer protos))
    (rejects : ∀ definition, ∃ err, protos.decodeChaincodeDefinition definition = .error err) :
    ListsLikeNamed protos p peers ↔ ∀ peer ∈ peers, peer.definitions = [] := by
  constructor
  · intro h peer member
    obtain ⟨out, run, _⟩ := h
    have each := decodeListed_of_listing run
    obtain ⟨records, _, decoded⟩ := ListRules.exists_related_of_forall₂ each member
    cases held : peer.definitions with
    | nil => rfl
    | cons definition definitions =>
      have encoded := peer.encoded
      rw [held] at encoded
      exact absurd decoded (not_decodeListed_cons encoded (rejects definition))
  · intro h
    have each : List.Forall₂ (fun peer records => decodeListed protos peer.payload = .ok records)
        peers (peers.map fun _ => []) := by
      rw [List.forall₂_map_right_iff, List.forall₂_same]
      intro peer member
      have encoded := peer.encoded
      rw [h peer member] at encoded
      exact decodeListed_nil encoded
    obtain ⟨notFound, run⟩ := listing_of_decodeListed (p := p) each
    refine ⟨_, run, ?_⟩
    rw [List.forall₂_map_right_iff, List.forall₂_same]
    intro peer member
    rw [h peer member]
    exact .nil

/-- Classes that decode one message, that of an empty list and that of a list of `definition`. -/
def listingProtos (payload : Buffer) (definition : ChaincodeDefinition) : LifecycleProtos :=
  { emptyProtos with
    decodeQueryChaincodeDefinitionsResult := fun bytes =>
      if bytes = [] then .ok []
      else if bytes = payload then .ok [definition]
      else .error "invalid wire type" }

def basicDefinition : ChaincodeDefinition :=
  ⟨"cc", int64 1, "1.0", "escc", "vscc", [], none, false⟩

def basicPayload : Buffer :=
  [0x0a, 23, 0x0a, 2, 0x63, 0x63, 0x10, 1, 0x1a, 3, 0x31, 0x2e, 0x30, 0x22, 4, 0x65, 0x73, 0x63,
    0x63, 0x2a, 4, 0x76, 0x73, 0x63, 0x63]

/-- The peer of a channel without chaincodes. -/
def emptyPeer : ListingPeer (listingProtos basicPayload basicDefinition) where
  url := "grpcs://peer0:7051"
  message := ""
  payload := []
  definitions := []
  encoded := rfl

def basicPeer : ListingPeer (listingProtos basicPayload basicDefinition) where
  url := "grpcs://peer0:7051"
  message := ""
  payload := basicPayload
  definitions := [basicDefinition]
  encoded := rfl

theorem listsLikeNamed_iff_empty :
    ListsLikeNamed _ fresh [emptyPeer] ↔ ∀ peer ∈ [emptyPeer], peer.definitions = [] :=
  listsLikeNamed_iff fresh [emptyPeer] fun _ => ⟨_, rfl⟩

theorem not_listsLikeNamed_basic : ¬ ListsLikeNamed _ fresh [basicPeer] := by
  intro h
  obtain ⟨out, run, _⟩ := h
  obtain ⟨records, _, decoded⟩ := ListRules.exists_related_of_forall₂
    (decodeListed_of_listing run) (List.mem_singleton_self basicPeer)
  exact not_decodeListed_cons basicPeer.encoded ⟨_, rfl⟩ decoded

section Fields

theorem singleChaincodeDefinitionAmend_eq_ok {sequence : QueriedSequence}
    {definition : DefinitionFields SLong Buffer}
    {fields : DefinitionFields QueriedSequence ApplicationPolicy} :
    singleChaincodeDefinitionAmend protos sequence definition = .ok fields ↔
      ∃ parameter, protos.decodeApplicationPolicy definition.validation_parameter = .ok parameter ∧
        fields = { definition with sequence, validation_parameter := parameter } := by
  simp only [singleChaincodeDefinitionAmend, bind_eq_ok, pure_eq_ok, @eq_comm _ fields]

theorem decodeNamed_eq_ok {payload : Buffer} {named : QueriedDefinition} :
    decodeNamed protos payload = .ok named ↔ ∃ resultSingle fields,
      protos.decodeQueryChaincodeDefinitionResult payload = .ok resultSingle ∧
      singleChaincodeDefinitionAmend protos (.number resultSingle.fields.sequence.val.toInt)
        resultSingle.fields = .ok fields ∧
      named = ⟨none, fields, some resultSingle.approvals⟩ := by
  simp only [decodeNamed, bind_eq_ok, pure_eq_ok, @eq_comm _ named, exists_and_left]

theorem decodeListed_sequence {payload : Buffer} {records : List QueriedDefinition}
    (decoded : decodeListed protos payload = .ok records) :
    ∀ record ∈ records, ∃ n, record.fields.sequence = .long n := by
  obtain ⟨definitions, _, decoded⟩ := bind_eq_ok.mp decoded
  intro record member
  obtain ⟨definition, _, made⟩ :=
    ListRules.exists_related_of_forall₂ (mapM_eq_ok.mp decoded).flip member
  obtain ⟨resultSingle, _, made⟩ := bind_eq_ok.mp made
  obtain ⟨fields, amended, made⟩ := bind_eq_ok.mp made
  obtain ⟨parameter, _, rfl⟩ := singleChaincodeDefinitionAmend_eq_ok.mp amended
  obtain rfl := pure_eq_ok.mp made
  exact ⟨_, rfl⟩

/-- Were a decoded element let pass, a record of the listing would still keep its sequence as it is
decoded, where the query by name converts it. -/
theorem listed_fields_of_passing
    (passes : ∀ definition, protos.decodeChaincodeDefinition definition = .ok definition)
    {payload : Buffer} {definitions : List ChaincodeDefinition} {records : List QueriedDefinition}
    (encoded : protos.decodeQueryChaincodeDefinitionsResult payload = .ok definitions)
    (decoded : decodeListed protos payload = .ok records) :
    List.Forall₂ (fun definition record => ∀ payload approvals named,
      protos.decodeQueryChaincodeDefinitionResult payload = .ok ⟨definition.fields, approvals⟩ →
      decodeNamed protos payload = .ok named →
      record.fields = { named.fields with sequence := .long definition.fields.sequence.val } ∧
        named.fields.sequence = .number definition.fields.sequence.val.toInt)
      definitions records := by
  simp only [decodeListed, encoded, passes] at decoded
  refine (mapM_eq_ok.mp decoded).imp fun definition record made => ?_
  intro payload approvals named single run
  obtain ⟨_, passed, made⟩ := bind_eq_ok.mp made
  cases passed
  obtain ⟨_, amended, made⟩ := bind_eq_ok.mp made
  obtain ⟨parameter, policy, rfl⟩ := singleChaincodeDefinitionAmend_eq_ok.mp amended
  obtain ⟨resultSingle, fields, same, amended', rfl⟩ := decodeNamed_eq_ok.mp run
  cases single.symm.trans same
  obtain ⟨parameter', policy', rfl⟩ := singleChaincodeDefinitionAmend_eq_ok.mp amended'
  cases policy.symm.trans policy'
  cases made
  exact ⟨rfl, rfl⟩

end Fields

end FabricCommon
