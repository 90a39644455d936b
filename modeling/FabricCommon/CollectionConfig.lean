import FabricCommon.JsonPolicy

namespace FabricCommon

/-- A collection as the caller describes it. The operation writes `endorsement_policy`. -/
structure CollectionSetting where
  identities : List Text
  required_peer_count : Nat
  maximum_peer_count : Option Nat
  block_to_live : Option Nat
  member_only_write : Option Bool
  member_only_read : Option Bool
  endorsementPolicy : Option EndorsementPolicy
  endorsement_policy : Option ApplicationPolicy

structure StaticCollectionConfig where
  name : Text
  member_orgs_policy : SignaturePolicyEnvelope
  required_peer_count : Nat
  maximum_peer_count : Nat
  block_to_live : Nat
  member_only_read : Bool
  member_only_write : Bool
  endorsement_policy : Option ApplicationPolicy

namespace SideDB

def memberOrgsPolicy (member_orgs : List Text) : SignaturePolicyEnvelope :=
  let identities := member_orgs.map (buildMSPPrincipal 0)
  let rules := (List.range member_orgs.length).map fun index =>
    buildSignaturePolicy none (some index)
  ⟨0, buildSignaturePolicy (some (buildNOutOf 1 rules)) none, identities⟩

/-- A non-empty reference wins over a signature policy. -/
def collectionPolicy (endorsement_policy : ApplicationPolicy) : ApplicationPolicy :=
  match endorsement_policy.channel_config_policy_reference, endorsement_policy.signature_policy with
  | some (c :: reference), _ => ⟨none, some (c :: reference)⟩
  | _, signature_policy => ⟨signature_policy, none⟩

/-- `buildCollectionConfig` of the operation, which renames fields, and of `SideDB`. -/
def buildCollectionConfig (name : Text) (config : CollectionSetting) : StaticCollectionConfig where
  name := name
  member_orgs_policy := memberOrgsPolicy config.identities
  required_peer_count := config.required_peer_count
  maximum_peer_count :=
    match config.maximum_peer_count with
    | none | some 0 => config.required_peer_count
    | some count => count
  block_to_live := config.block_to_live.getD 0
  member_only_read := config.member_only_read.getD true
  member_only_write := config.member_only_write.getD true
  endorsement_policy := config.endorsement_policy.map collectionPolicy

end SideDB

end FabricCommon
