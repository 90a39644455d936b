import FabricCommon.EntryMap
import FabricCommon.GateText
import FabricCommon.LedgerReports
import FabricCommon.StepRun

namespace FabricCommon

open PanicRun

/-- A field of certificates: the buffers of the message, or the text they were replaced by. -/
inductive CertField
  | buffers (certs : List Buffer)
  | text (text : Text)

structure MspConfig where
  organizational_unit_identifiers : List Buffer
  root_certs : CertField
  intermediate_certs : CertField
  admins : CertField
  tls_root_certs : CertField
  tls_intermediate_certs : CertField

/-- A message that wraps a list, the list it was replaced by, or what `undefined` it was. -/
inductive Wrapped (α : Type)
  | message (items : List α)
  | items (items : List α)
  | undefined

structure OrdererEndpoint where
  host : String
  port : Nat

structure ConfigResult where
  msps : EntryMap String MspConfig
  orderers : EntryMap String (Wrapped OrdererEndpoint)

abbrev PeersByOrg := EntryMap String (Wrapped DiscoveredPeer)

/-- One of the results of a discovery response, by its kind; `other` has a kind that is not read. -/
inductive DiscoveryResult
  | error (content : String)
  | cc_query_res (content : List Buffer)
  | config_result (config_result : ConfigResult)
  | members (peers_by_org : PeersByOrg)
  | other

section

variable (utf8 : Buffer → Text)

/-- `toString` of an array of buffers, or of a string. -/
def CertField.toText : CertField → Text
  | buffers certs => [','].intercalate (certs.map utf8)
  | text read => read

def CertField.trimmed (field : CertField) : CertField := .text (trim (field.toText utf8))

def MspConfig.translate (q_msp : MspConfig) : Except String MspConfig :=
  .ok {
    organizational_unit_identifiers := q_msp.organizational_unit_identifiers
    root_certs := q_msp.root_certs.trimmed utf8
    intermediate_certs := q_msp.intermediate_certs.trimmed utf8
    admins := q_msp.admins.trimmed utf8
    tls_root_certs := q_msp.tls_root_certs.trimmed utf8
    tls_intermediate_certs := q_msp.tls_intermediate_certs.trimmed utf8 }

/-- `{endpoint}` or `{peers}` of a value: an array has neither. -/
def Wrapped.unwrap {α : Type} : Wrapped α → Except String (Wrapped α)
  | message list => .ok (items list)
  | items _ => .ok undefined
  | undefined => .error "TypeError"

def ConfigResult.translate (config : ConfigResult) : Except String ConfigResult := do
  let msps ← config.msps.translate (MspConfig.translate utf8)
  let orderers ← config.orderers.translate Wrapped.unwrap
  return ⟨msps, orderers⟩

def PeersByOrg.translate (peers_by_org : PeersByOrg) : Except String PeersByOrg :=
  EntryMap.translate Wrapped.unwrap peers_by_org

/-- What a result looks like after its case of the switch, if that ends. -/
def DiscoveryResult.translate : DiscoveryResult → Except String DiscoveryResult
  | config_result config => (config.translate utf8).map config_result
  | members peers_by_org => (PeersByOrg.translate peers_by_org).map members
  | result => .ok result

/-- What is returned. The configuration and the members are the objects of the results at these
positions. -/
structure Returned where
  error : Option String := none
  cc_query_res : Option (List Buffer) := none
  config_result : Option Nat := none
  members : Option Nat := none

def Returned.record (returned : Returned) (position : Nat) : DiscoveryResult → Returned
  | .error content => { returned with error := some content }
  | .cc_query_res content => { returned with cc_query_res := some content }
  | .config_result _ => { returned with config_result := some position }
  | .members _ => { returned with members := some position }
  | .other => returned

/-- The body of the loop of `ParseResult`, on what is returned and the results gone through. -/
def readResult (state : Returned × List DiscoveryResult) (result : DiscoveryResult) :
    Except String (Returned × List DiscoveryResult) := do
  let result ← result.translate utf8
  return (state.1.record state.2.length result, state.2 ++ [result])

/-- What is returned, and the results of the response as they are left. -/
def ParseResult (results : List DiscoveryResult) :
    Except String (Returned × List DiscoveryResult) :=
  results.foldlM (readResult utf8) ({}, [])

end

def DiscoveryResult.config : DiscoveryResult → Option ConfigResult
  | config_result config => some config
  | _ => none

def DiscoveryResult.peers : DiscoveryResult → Option PeersByOrg
  | members peers_by_org => some peers_by_org
  | _ => none

/-- The value of what is returned, while the results are as given. -/
structure ReturnedValue where
  error : Option String
  cc_query_res : Option (List Buffer)
  config_result : Option ConfigResult
  members : Option PeersByOrg

def Returned.view (results : List DiscoveryResult) (returned : Returned) : ReturnedValue where
  error := returned.error
  cc_query_res := returned.cc_query_res
  config_result := returned.config_result.bind fun position =>
    results[position]?.bind DiscoveryResult.config
  members := returned.members.bind fun position =>
    results[position]?.bind DiscoveryResult.peers

variable {utf8 : Buffer → Text} {results results' : List DiscoveryResult} {returned : Returned}

theorem MspConfig.translate_settles {q_msp q_msp' : MspConfig}
    (h : q_msp.translate utf8 = .ok q_msp') : q_msp'.translate utf8 = .ok q_msp' := by
  cases h
  simp [translate, CertField.trimmed, CertField.toText, trim_trim]

theorem DiscoveryResult.translate_record {result result' : DiscoveryResult}
    (h : result.translate utf8 = .ok result') (position : Nat) :
    returned.record position result' = returned.record position result := by
  cases result with
  | config_result config =>
    obtain ⟨config', -, rfl⟩ := map_eq_ok.mp h
    rfl
  | members peers_by_org =>
    obtain ⟨peers_by_org', -, rfl⟩ := map_eq_ok.mp h
    rfl
  | error content => cases h; rfl
  | cc_query_res content => cases h; rfl
  | other => cases h; rfl

/-- What is returned depends on the kinds of the results, and on what their case leaves alone. -/
def recorded (results : List DiscoveryResult) : Returned :=
  results.zipIdx.foldl (fun returned entry => returned.record entry.2 entry.1) {}

theorem recorded_concat (results : List DiscoveryResult) (result : DiscoveryResult) :
    recorded (results ++ [result]) = (recorded results).record results.length result := by
  simp [recorded, List.zipIdx_append]

/-- The results before and after the loop. -/
abbrev Translated (utf8 : Buffer → Text) (results results' : List DiscoveryResult) : Prop :=
  List.Forall₂ (fun result result' => result.translate utf8 = .ok result') results results'

theorem ParseResult_eq_ok :
    ParseResult utf8 results = .ok (returned, results') ↔
      Translated utf8 results results' ∧ returned = recorded results := by
  induction results using List.reverseRecOn generalizing returned results' with
  | nil =>
    rw [ParseResult, List.foldlM_nil, pure_eq_ok, Translated, List.forall₂_nil_left_iff,
      Prod.mk.injEq]
    constructor
    · intro h
      exact ⟨h.2.symm, h.1.symm⟩
    · intro h
      exact ⟨h.2.symm, h.1.symm⟩
  | append_singleton results result ih =>
    have last : ParseResult utf8 (results ++ [result]) =
        ParseResult utf8 results >>= fun state => readResult utf8 state result := by
      simp [ParseResult]
    rw [last, bind_eq_ok, Translated, ListRules.forall₂_concat_left_iff]
    constructor
    · intro h
      obtain ⟨⟨returned', read⟩, before, now⟩ := h
      obtain ⟨related, rfl⟩ := ih.mp before
      obtain ⟨result', translated, now⟩ := bind_eq_ok.mp now
      obtain ⟨rfl, rfl⟩ := Prod.mk.inj (pure_eq_ok.mp now)
      refine ⟨⟨read, result', related, translated, rfl⟩, ?_⟩
      rw [recorded_concat, DiscoveryResult.translate_record translated, related.length_eq]
    · intro h
      obtain ⟨⟨read, result', related, translated, rfl⟩, rfl⟩ := h
      refine ⟨(recorded results, read), ih.mpr ⟨related, rfl⟩,
        bind_eq_ok.mpr ⟨result', translated, ?_⟩⟩
      rw [recorded_concat, ← DiscoveryResult.translate_record translated, related.length_eq]
      rfl

/-- A reference that the results of one kind set is to the last of them. -/
theorem recorded_last {α : Type} (pick : DiscoveryResult → Option α)
    (reference : Returned → Option Nat) (start : reference {} = none)
    (sets : ∀ (returned : Returned) (position : Nat) (result : DiscoveryResult),
      reference (returned.record position result) =
        if (pick result).isSome then some position else reference returned)
    (results more : List DiscoveryResult) :
    ((reference (recorded results)).bind fun position =>
      (results ++ more)[position]?.bind pick) = (results.filterMap pick).getLast? := by
  induction results using List.reverseRecOn generalizing more with
  | nil =>
    rw [show recorded [] = {} from rfl, start]
    rfl
  | append_singleton results result ih =>
    rw [recorded_concat, sets, List.filterMap_append, List.append_assoc]
    cases picked : pick result with
    | none => simpa [picked] using ih (result :: more)
    | some value => simp [picked]

/-- The configurations of the results, in their order. -/
def configs (results : List DiscoveryResult) : List ConfigResult :=
  results.filterMap DiscoveryResult.config

def allPeers (results : List DiscoveryResult) : List PeersByOrg :=
  results.filterMap DiscoveryResult.peers

/-- The last configuration and the last members are what is returned. -/
theorem view_recorded (results : List DiscoveryResult) :
    (recorded results).view results =
      ⟨(recorded results).error, (recorded results).cc_query_res, (configs results).getLast?,
        (allPeers results).getLast?⟩ := by
  have config := recorded_last DiscoveryResult.config Returned.config_result rfl
    (fun returned position result => by cases result <;> rfl) results []
  have peers := recorded_last DiscoveryResult.peers Returned.members rfl
    (fun returned position result => by cases result <;> rfl) results []
  rw [List.append_nil] at config peers
  rw [configs, allPeers, ← config, ← peers]
  rfl

end FabricCommon
