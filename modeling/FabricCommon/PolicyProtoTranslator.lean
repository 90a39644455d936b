import FabricCommon.JsonPolicy

namespace FabricCommon

/-- `MSPPrincipal.Classification`. -/
abbrev Classification := Nat

namespace Classification

def ROLE : Classification := 0
end Classification

structure PrincipalMessage (Bytes : Type) where
  principal_classification : Classification
  principal : Bytes

structure EnvelopeMessage (Bytes : Type) where
  version : Nat
  rule : SignaturePolicy
  identities : List (PrincipalMessage Bytes)

structure OrganizationUnit (Bytes : Type) where
  msp_identifier : Text
  organizational_unit_identifier : Text
  certifiers_identifier : Bytes

structure SerializedIdentity (Bytes : Type) where
  mspid : Text
  id_bytes : Bytes

/-- The codecs of `fabric-protos`, over the bytes they write and read. An `MSPRole` message holds
what `MSPPrincipal` holds. -/
structure PolicyProtos (Bytes : Type) where
  encodeMSPRole : MSPPrincipal → Bytes
  decodeMSPRole : Bytes → MSPPrincipal
  decodeOrganizationUnit : Bytes → OrganizationUnit Bytes
  decodeSerializedIdentity : Bytes → SerializedIdentity Bytes
  encodeEnvelope : EnvelopeMessage Bytes → Bytes
  decodeEnvelope : Bytes → EnvelopeMessage Bytes
  text : Bytes → Text

/-- A decoded rule, by its `Type`. -/
inductive DecodedSignaturePolicy where
  | unset
  | signed_by (signed_by : Nat)
  | n_out_of (N : Nat) (rules : List DecodedSignaturePolicy)

def MSPRoleType : List String := ["MEMBER", "ADMIN", "CLIENT", "PEER", "ORDERER"]

section

variable {Bytes : Type}

/-- The message of a principal that `buildPrincipal` or `buildMSPPrincipal` has built. -/
def MSPPrincipal.message (protos : PolicyProtos Bytes) (principal : MSPPrincipal) :
    PrincipalMessage Bytes :=
  ⟨Classification.ROLE, protos.encodeMSPRole principal⟩

def SignaturePolicyEnvelope.message (protos : PolicyProtos Bytes)
    (envelope : SignaturePolicyEnvelope) : EnvelopeMessage Bytes :=
  ⟨envelope.version, envelope.rule, envelope.identities.map (MSPPrincipal.message protos)⟩

mutual
def decodeSignaturePolicy : SignaturePolicy → DecodedSignaturePolicy
  | .unset => .unset
  | .signed_by index => .signed_by index
  | .n_out_of n rules => .n_out_of n (decodeSignaturePolicies rules)
def decodeSignaturePolicies : List SignaturePolicy → List DecodedSignaturePolicy
  | [] => []
  | rule :: rules => decodeSignaturePolicy rule :: decodeSignaturePolicies rules
end

end

mutual
/-- The rule is set throughout and its numbers fit the `int32` fields they are encoded in. -/
def SignaturePolicy.Encodable : SignaturePolicy → Prop
  | .unset => False
  | .signed_by index => index < 2147483648
  | .n_out_of n rules => n < 2147483648 ∧ SignaturePolicy.AllEncodable rules
def SignaturePolicy.AllEncodable : List SignaturePolicy → Prop
  | [] => True
  | rule :: rules => rule.Encodable ∧ SignaturePolicy.AllEncodable rules
end

/-- Decoding inverts encoding: of a role of the enumeration, and of an envelope whose version,
classifications and rule fit their fields. -/
structure PolicyProtos.Lawful {Bytes : Type} (protos : PolicyProtos Bytes) : Prop where
  mspRole : ∀ principal : MSPPrincipal, principal.role < MSPRoleType.length →
    protos.decodeMSPRole (protos.encodeMSPRole principal) = principal
  envelope : ∀ message : EnvelopeMessage Bytes, message.version < 2147483648 →
    message.rule.Encodable →
    (∀ identity ∈ message.identities, identity.principal_classification < 2147483648) →
    protos.decodeEnvelope (protos.encodeEnvelope message) = message

end FabricCommon
