import FabricCommon.ConfigFactory
import FabricCommon.QueryHub

namespace FabricCommon

open ProtoLong PanicRun

structure BlockHeader where
  number : ULong
  previous_hash : Buffer
  data_hash : Buffer

/-- A block as the deliver service sends it, with its metadata in bytes. -/
structure LedgerBlock where
  header : BlockHeader
  metadata : List Buffer

structure HeaderReport where
  number : Int
  previous_hash : String
  data_hash : String

/-- `SerializedIdentity` -/
structure PeerIdentity where
  mspid : String
  id_bytes : Buffer

structure GossipEnvelope where
  payload : Buffer
  secret_envelope : Option Buffer

structure GossipMember where
  endpoint : String
  pki_id : Buffer

structure PeerTime where
  inc_num : ULong
  seq_num : ULong

structure AliveMessage where
  membership : Option GossipMember
  timestamp : Option PeerTime

structure GossipChaincode where
  name : String
  version : String

structure GossipProperties where
  ledger_height : ULong
  chaincodes : List GossipChaincode

structure StateInfo where
  properties : Option GossipProperties

/-- A message carries at most one of the contents that are read here. -/
structure GossipMessage where
  tag : Nat
  alive_msg : Option AliveMessage
  state_info : Option StateInfo

structure DiscoveredPeer where
  identity : Buffer
  membership_info : GossipEnvelope
  state_info : Option GossipEnvelope

structure PeerState where
  ledger_height : Int
  chaincodes : List GossipChaincode

structure ParsedPeer where
  mspid : String
  id_bytes : String
  endpoint : String
  pki_id : String
  unix_nano : String
  logical_time : Int
  state : Option PeerState

/-- The generated classes, and the conversions of a `Buffer`. -/
structure LedgerProtos where
  hex : Buffer → String
  utf8 : Buffer → String
  sha2_256 : Buffer → String
  decodeSerializedIdentity : Buffer → Except String PeerIdentity
  decodeGossipMessage : Buffer → Except String GossipMessage
  decodeBlockchainInfo : Buffer → Except String BlockchainInfo
  decodeMetadata : Buffer → Except String Buffer
  decodeLastConfig : Buffer → Except String ULong

variable (protos : LedgerProtos)

def blockDecoder.header (block : LedgerBlock) : HeaderReport where
  number := block.header.number.val.toInt
  previous_hash := protos.hex block.header.previous_hash
  data_hash := protos.hex block.header.data_hash

def calculatePKI_ID (identity : PeerIdentity) : String :=
  protos.sha2_256 (identity.mspid.toUTF8.data.toList ++ identity.id_bytes)

/-- `assert.strictEqual`, or a destructuring that finds no object. -/
def require (condition : Bool) (message : String) : Except String Unit :=
  if condition then .ok () else .error message

def destructured {α : Type} : Option α → Except String α
  | some value => .ok value
  | none => .error "TypeError"

def parseState (envelope : GossipEnvelope) : Except String PeerState := do
  require (envelope.secret_envelope = none) "AssertionError"
  let message ← protos.decodeGossipMessage envelope.payload
  let state_info ← destructured message.state_info
  require (message.tag = 5) "AssertionError"
  let properties ← destructured state_info.properties
  return ⟨properties.ledger_height.val.toInt, properties.chaincodes⟩

def ParsePeerResult (peer : DiscoveredPeer) : Except String ParsedPeer := do
  let identity ← protos.decodeSerializedIdentity peer.identity
  require (peer.membership_info.secret_envelope = none) "AssertionError"
  let message ← protos.decodeGossipMessage peer.membership_info.payload
  require (message.tag = 1) "AssertionError"
  let alive_msg ← destructured message.alive_msg
  let membership ← destructured alive_msg.membership
  let timestamp ← destructured alive_msg.timestamp
  let pki_id_hex := protos.hex membership.pki_id
  require (pki_id_hex = calculatePKI_ID protos identity) "AssertionError"
  let state ← peer.state_info.mapM (parseState protos)
  return {
    mspid := identity.mspid
    id_bytes := protos.utf8 identity.id_bytes
    endpoint := membership.endpoint
    pki_id := pki_id_hex
    unix_nano := timestamp.inc_num.val.toString
    logical_time := timestamp.seq_num.val.toInt
    state := state }

/-- What `parseInt` makes of a `Long`, which it reads in decimal; `none` is `NaN`. -/
def parseIntLong (n : Long) : Option Int :=
  (ConfigFactory.parseText n.toString.toList).map fun value =>
    value.sign * nearestDouble value.natAbs

def BlockMetadataIndex.LAST_CONFIG : Nat := 1

def extractLastConfigIndex (block : LedgerBlock) : Except String (Option Int) := do
  let bytes ← destructured block.metadata[BlockMetadataIndex.LAST_CONFIG]?
  let value ← protos.decodeMetadata bytes
  let index ← protos.decodeLastConfig value
  return parseIntLong index.val

variable {protos : LedgerProtos}

theorem destructured_eq_ok {α : Type} {value : Option α} {a : α} :
    destructured value = .ok a ↔ value = some a := by
  cases value <;> simp [destructured]

theorem parseState_eq_ok {envelope : GossipEnvelope} {state : PeerState}
    (h : parseState protos envelope = .ok state) :
    ∃ message state_info properties,
      protos.decodeGossipMessage envelope.payload = .ok message ∧
      message.state_info = some state_info ∧ state_info.properties = some properties ∧
      state = ⟨properties.ledger_height.val.toInt, properties.chaincodes⟩ := by
  obtain ⟨_, _, h⟩ := bind_eq_ok.mp h
  obtain ⟨message, decoded, h⟩ := bind_eq_ok.mp h
  obtain ⟨state_info, given, h⟩ := bind_eq_ok.mp h
  obtain ⟨_, _, h⟩ := bind_eq_ok.mp h
  obtain ⟨properties, listed, h⟩ := bind_eq_ok.mp h
  exact ⟨message, state_info, properties, decoded, destructured_eq_ok.mp given,
    destructured_eq_ok.mp listed, (pure_eq_ok.mp h).symm⟩

/-- The times of a parsed peer are those of its membership message, its state that of its state
message. -/
theorem ParsePeerResult_eq_ok {peer : DiscoveredPeer} {parsed : ParsedPeer}
    (h : ParsePeerResult protos peer = .ok parsed) :
    ∃ message alive_msg timestamp,
      protos.decodeGossipMessage peer.membership_info.payload = .ok message ∧
      message.alive_msg = some alive_msg ∧ alive_msg.timestamp = some timestamp ∧
      parsed.logical_time = timestamp.seq_num.val.toInt ∧
      peer.state_info.mapM (parseState protos) = .ok parsed.state := by
  obtain ⟨identity, _, h⟩ := bind_eq_ok.mp h
  obtain ⟨_, _, h⟩ := bind_eq_ok.mp h
  obtain ⟨message, decoded, h⟩ := bind_eq_ok.mp h
  obtain ⟨_, _, h⟩ := bind_eq_ok.mp h
  obtain ⟨alive_msg, alive, h⟩ := bind_eq_ok.mp h
  obtain ⟨membership, _, h⟩ := bind_eq_ok.mp h
  obtain ⟨timestamp, time, h⟩ := bind_eq_ok.mp h
  obtain ⟨_, _, h⟩ := bind_eq_ok.mp h
  obtain ⟨state, stated, h⟩ := bind_eq_ok.mp h
  obtain rfl := pure_eq_ok.mp h
  exact ⟨message, alive_msg, timestamp, decoded, destructured_eq_ok.mp alive,
    destructured_eq_ok.mp time, rfl, stated⟩

end FabricCommon
