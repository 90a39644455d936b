import Mathlib.Data.List.Basic

namespace FabricCommon.Golang

abbrev Bytes := List UInt8

/-- What Go code does: it returns, or it panics with a value. -/
abbrev GoM := Except String

/-- Dereferencing a pointer. -/
def deref {α : Type} : Option α → GoM α
  | some value => pure value
  | none => throw "invalid memory address or nil pointer dereference"

/-- `values[index]`. -/
def indexed {α : Type} (values : List α) (index : Nat) : GoM α :=
  match values[index]? with
  | some value => pure value
  | none => throw "index out of range"

namespace Common

/-- An open enumeration of the wire format: any `int32` can arrive. -/
abbrev HeaderType := Int32

namespace HeaderType

def CONFIG : HeaderType := 1
def CONFIG_UPDATE : HeaderType := 2
def ENDORSER_TRANSACTION : HeaderType := 3

end HeaderType

abbrev Status := Int32

namespace Status

def SUCCESS : Status := 200
def NOT_FOUND : Status := 404

end Status

def BlockMetadataIndex_TRANSACTIONS_FILTER : Nat := 2

structure BlockHeader where
  number : UInt64

structure BlockData where
  data : List Bytes

structure BlockMetadata where
  metadata : List Bytes

structure Block where
  header : Option BlockHeader
  data : Option BlockData
  metadata : Option BlockMetadata

structure Envelope where
  payload : Bytes
  signature : Bytes
  deriving DecidableEq

structure Header where
  channelHeader : Bytes
  signatureHeader : Bytes
  deriving DecidableEq

structure Payload where
  header : Option Header
  data : Bytes
  deriving DecidableEq

structure ChannelHeader where
  type : Int32
  channelId : String
  txId : String
  extension : Bytes
  deriving DecidableEq

structure SignatureHeader where
  creator : Bytes
  nonce : Bytes

structure Config where
  sequence : UInt64

structure ConfigEnvelope where
  config : Option Config
  lastUpdate : Option Envelope

structure ConfigUpdateEnvelope where
  configUpdate : Bytes

end Common

namespace Msp

structure SerializedIdentity where
  mspid : String
  idBytes : Bytes

end Msp

namespace Rwset

structure CollectionHashedReadWriteSet where
  collectionName : String
  hashedRwset : Bytes
  pvtRwsetHash : Bytes

structure NsReadWriteSet where
  namespace_ : String
  rwset : Bytes
  collectionHashedRwset : List CollectionHashedReadWriteSet

structure TxReadWriteSet where
  nsRwset : List NsReadWriteSet

structure RangeQueryInfo where
  startKey : String
  endKey : String

structure KVMetadataWrite where
  key : String

structure KVRWSet where
  rangeQueriesInfo : List RangeQueryInfo
  metadataWrites : List KVMetadataWrite

end Rwset

namespace Peer

/-- Also an open enumeration. -/
abbrev TxValidationCode := Int32

structure FilteredTransaction where
  txid : String
  type : Common.HeaderType
  txValidationCode : TxValidationCode

structure FilteredBlock where
  channelId : String
  number : UInt64
  filteredTransactions : List FilteredTransaction

structure TransactionAction where
  header : Bytes
  payload : Bytes

structure Transaction where
  actions : List TransactionAction

structure ChaincodeID where
  path : String
  name : String
  version : String

structure ChaincodeHeaderExtension where
  chaincodeId : Option ChaincodeID

structure Endorsement where
  endorser : Bytes
  signature : Bytes

structure ChaincodeEndorsedAction where
  proposalResponsePayload : Bytes
  endorsements : List Endorsement

structure ChaincodeActionPayload where
  chaincodeProposalPayload : Bytes
  action : Option ChaincodeEndorsedAction

structure ChaincodeProposalPayload where
  input : Bytes
  transientMap : List (String × Bytes)

structure ChaincodeInput where
  args : List Bytes

abbrev ChaincodeSpec_Type := Int32

def ChaincodeSpec_GOLANG : ChaincodeSpec_Type := 1

structure ChaincodeSpec where
  type : ChaincodeSpec_Type
  chaincodeId : Option ChaincodeID
  input : Option ChaincodeInput

structure ChaincodeInvocationSpec where
  chaincodeSpec : Option ChaincodeSpec

structure ProposalResponsePayload where
  proposalHash : Bytes
  extension : Bytes

structure Response where
  status : Int32
  message : String
  payload : Bytes

structure ChaincodeAction where
  results : Bytes
  events : Bytes
  response : Option Response
  chaincodeId : Option ChaincodeID

structure ChaincodeEvent where
  chaincodeId : String
  txId : String
  eventName : String
  payload : Bytes

end Peer

/-- A decoder of `proto` or `protoutil`: the message and, when the bytes are no such message, the
error. -/
abbrev Unmarshal (α : Type) := Bytes → α × Option String

/-- The bytes are a message of which `P` holds. -/
def Decodes {α : Type} (unmarshal : Unmarshal α) (data : Bytes) (P : α → Prop) : Prop :=
  ∃ message, unmarshal data = (message, none) ∧ P message

/-- The decoders and the generated text of the messages, none of which is part of the repository. -/
structure Protos where
  envelope : Unmarshal Common.Envelope
  payload : Unmarshal Common.Payload
  channelHeader : Unmarshal Common.ChannelHeader
  signatureHeader : Unmarshal Common.SignatureHeader
  serializedIdentity : Unmarshal Msp.SerializedIdentity
  configEnvelope : Unmarshal Common.ConfigEnvelope
  configUpdateEnvelope : Unmarshal Common.ConfigUpdateEnvelope
  envelopeToConfigUpdate : Common.Envelope → Common.ConfigUpdateEnvelope × Option String
  chaincodeHeaderExtension : Unmarshal Peer.ChaincodeHeaderExtension
  transaction : Unmarshal Peer.Transaction
  chaincodeActionPayload : Unmarshal Peer.ChaincodeActionPayload
  chaincodeProposalPayload : Unmarshal Peer.ChaincodeProposalPayload
  chaincodeInvocationSpec : Unmarshal Peer.ChaincodeInvocationSpec
  proposalResponsePayload : Unmarshal Peer.ProposalResponsePayload
  chaincodeAction : Unmarshal Peer.ChaincodeAction
  chaincodeEvents : Unmarshal Peer.ChaincodeEvent
  txReadWriteSet : Unmarshal Rwset.TxReadWriteSet
  kvRWSet : Unmarshal Rwset.KVRWSet
  /-- The error, if any, of decoding `ApproveChaincodeDefinitionForMyOrgArgs`. -/
  approveArgs : Bytes → Option String
  commitArgs : Bytes → Option String
  transactionString : Peer.Transaction → String
  chaincodeEventString : Peer.ChaincodeEvent → String
  headerTypeName : Common.HeaderType → String
  statusString : Common.Status → String
  txValidationCodeString : Peer.TxValidationCode → String

/-- The values that reach `goutils.AssertNil`, which takes any. -/
inductive Nilable where
  | transientMap (value : List (String × Bytes))
  | string (value : String)
  | rangeQueriesInfo (value : List Rwset.RangeQueryInfo)
  | metadataWrites (value : List Rwset.KVMetadataWrite)

/-- The assertions of `goutils`, which is not part of the repository. -/
structure Goutils where
  panicError : Option String → GoM Unit
  assertOK : Bool → String → GoM Unit
  assertNil : Nilable → String → GoM Unit
  isNil : Nilable → Bool
  panicError_ok : ∀ err, panicError err = .ok () ↔ err = none
  assertOK_ok : ∀ condition message, assertOK condition message = .ok () ↔ condition = true
  assertNil_ok : ∀ value message, assertNil value message = .ok () ↔ isNil value = true

end FabricCommon.Golang
