import FabricCommon.LedgerReports

namespace FabricCommon

open PanicRun ProtoLong

namespace BlockMetadataIndex

def SIGNATURES : Nat := 0
def TRANSACTIONS_FILTER : Nat := 2
def ORDERER : Nat := 3
def COMMIT_HASH : Nat := 4

end BlockMetadataIndex

namespace blockDecoder

open BlockMetadataIndex

structure SignatureHeader where
  creator : PeerIdentity
  nonce : Buffer

structure ChannelHeader where
  tx_id : String

structure ChaincodeInput where
  args : List Buffer
  is_init : Bool

structure ChaincodeSpec where
  chaincode_id : Option String
  input : Option ChaincodeInput

structure Endorsement where
  endorser : Option PeerIdentity
  signature : Buffer

/-- An action, as far as it can be taken apart. -/
structure Action where
  endorsements : List Endorsement
  chaincode_spec : Option ChaincodeSpec

/-- An entry of the block's data: a transaction, its data a configuration or actions. -/
structure Entry where
  channel_header : ChannelHeader
  signature_header : SignatureHeader
  config : Bool
  actions : Option (List Action)

structure ListedTransaction where
  tx_id : String
  args : List Buffer
  is_init : Bool
  chaincode_id : String
  creator : PeerIdentity
  nonce : Buffer

structure MetadataSignature where
  signature_header : SignatureHeader
  signature : Buffer

/-- The value next to the signatures: bytes of the orderer, or the index that was read from them. -/
inductive SignedValue
  | bytes (buffer : Buffer)
  | index (index : Int)

/-- What can stand in the array of the metadata. -/
inductive MetadataSlot
  | signed (value : SignedValue) (signatures : List MetadataSignature)
  | codes (codes : List Nat)
  | empty
  | bytes (buffer : Buffer)
  | commitHash (value : Buffer)

/-- The generated classes. They are given whatever stands in the array. -/
structure BlockProtos where
  sha2_256 : Buffer → String
  serializedIdentity : PeerIdentity → Buffer
  decodeLastConfig : SignedValue → Except String ULong
  decodeMetadata : MetadataSlot → Except String (Buffer × List MetadataSignature)

variable (protos : BlockProtos)

def calculateTransactionId (signature_header : SignatureHeader) : String :=
  protos.sha2_256 (signature_header.nonce ++ protos.serializedIdentity signature_header.creator)

/-- The transaction that an entry without a configuration is listed as. -/
def Entry.transaction (entry : Entry) : Except String ListedTransaction :=
  match entry.actions with
  | none => .error "unknown transaction type found"
  | some actions => do
    require (actions.length = 1) "AssertionError"
    let action ← destructured actions.head?
    let _ ← action.endorsements.mapM fun endorsement => destructured endorsement.endorser
    let chaincode_spec ← destructured action.chaincode_spec
    let name ← destructured chaincode_spec.chaincode_id
    let input ← destructured chaincode_spec.input
    return {
      tx_id := entry.channel_header.tx_id
      args := input.args
      is_init := input.is_init
      chaincode_id := name
      creator := entry.signature_header.creator
      nonce := entry.signature_header.nonce }

/-- The body of the loop of `data`: what it pushes to the transactions. -/
def Entry.listed (entry : Entry) : Except String (Option ListedTransaction) := do
  require (calculateTransactionId protos entry.signature_header = entry.channel_header.tx_id)
    "AssertionError"
  if entry.config then return none else return some (← entry.transaction)

def data (datas : List Entry) : Except String (List Entry × List ListedTransaction) := do
  let txs ← datas.foldlM (fun txs entry => do return txs ++ (← entry.listed protos).toList) []
  return (datas, txs)

/-- `const {value, signatures} = slot`, where the signatures are iterated over next. -/
def MetadataSlot.signatures : MetadataSlot → Except String (SignedValue × List MetadataSignature)
  | .signed value signatures => .ok (value, signatures)
  | _ => .error "TypeError"

/-- `const [flag] = slot` -/
def MetadataSlot.first : MetadataSlot → Except String (Option Nat)
  | .codes filter => .ok filter.head?
  | .bytes buffer => .ok (buffer.head?.map UInt8.toNat)
  | _ => .error "TypeError"

/-- `assert.deepStrictEqual(slot, {})` -/
def MetadataSlot.isEmpty : MetadataSlot → Bool
  | .empty => true
  | _ => false

/-- The array after a normal end. It is the one that is returned. -/
def metadata (slots : List MetadataSlot) : Except String (List MetadataSlot) := do
  require (slots.length = 5) "AssertionError"
  let signed ← destructured slots[SIGNATURES]?
  let (value, signatures) ← signed.signatures
  let lastConfig ← protos.decodeLastConfig value
  let slots := slots.set SIGNATURES (.signed (.index lastConfig.val.toInt) signatures)
  let filter ← destructured slots[TRANSACTIONS_FILTER]?
  let flag ← filter.first
  let buf ← destructured slots[COMMIT_HASH]?
  let (value, signatures) ← protos.decodeMetadata buf
  require signatures.isEmpty "AssertionError"
  let slots := slots.set COMMIT_HASH (.commitHash value)
  let lastConfig ← destructured slots[LAST_CONFIG]?
  require lastConfig.isEmpty "AssertionError"
  let orderer ← destructured slots[ORDERER]?
  require orderer.isEmpty "AssertionError"
  require (flag = some 0) "AssertionError"
  return slots

variable {protos : BlockProtos}

theorem require_eq_ok {condition : Bool} {message : String} {done : Unit} :
    require condition message = .ok done ↔ condition = true := by
  cases condition <;> simp [require]

theorem Entry.transaction_tx_id {entry : Entry} {tx : ListedTransaction}
    (h : entry.transaction = .ok tx) : tx.tx_id = entry.channel_header.tx_id := by
  unfold transaction at h
  cases given : entry.actions with
  | none => simp [given] at h
  | some actions =>
    rw [given] at h
    obtain ⟨_, _, h⟩ := bind_eq_ok.mp h
    obtain ⟨_, _, h⟩ := bind_eq_ok.mp h
    obtain ⟨_, _, h⟩ := bind_eq_ok.mp h
    obtain ⟨_, _, h⟩ := bind_eq_ok.mp h
    obtain ⟨_, _, h⟩ := bind_eq_ok.mp h
    obtain ⟨_, _, h⟩ := bind_eq_ok.mp h
    rw [← pure_eq_ok.mp h]

theorem Entry.listed_eq_ok {entry : Entry} {listed : Option ListedTransaction}
    (h : entry.listed protos = .ok listed) :
    (entry.config = true ∧ listed = none) ∨
      (entry.config = false ∧ ∃ tx, entry.transaction = .ok tx ∧ listed = some tx) := by
  obtain ⟨_, _, h⟩ := bind_eq_ok.mp h
  by_cases config : entry.config = true
  · rw [if_pos config] at h
    exact Or.inl ⟨config, (pure_eq_ok.mp h).symm⟩
  · rw [if_neg config] at h
    obtain ⟨tx, read, h⟩ := bind_eq_ok.mp h
    exact Or.inr ⟨eq_false_of_ne_true config, tx, read, (pure_eq_ok.mp h).symm⟩

/-- The entries without a configuration, each with its position in the block. -/
def transactions (datas : List Entry) : List (Entry × Nat) :=
  datas.zipIdx.filter fun entry => !entry.1.config

/-- They are what is listed, in this order. -/
theorem data_eq_ok {datas datas' : List Entry} {txs : List ListedTransaction}
    (h : data protos datas = .ok (datas', txs)) :
    datas' = datas ∧ List.Forall₂ (fun entry tx => entry.1.listed protos = .ok (some tx))
      (transactions datas) txs := by
  have yielding : ∀ entry listed, Entry.listed protos entry = .ok listed →
      listed.isSome = !entry.config := by
    intro entry listed h
    rcases Entry.listed_eq_ok h with h | h
    · obtain ⟨config, rfl⟩ := h
      simp [config]
    · obtain ⟨config, tx, -, rfl⟩ := h
      simp [config]
  obtain ⟨txs', run, h⟩ := bind_eq_ok.mp h
  obtain ⟨rfl, rfl⟩ := Prod.mk.inj (pure_eq_ok.mp h)
  obtain ⟨new, rfl, related⟩ := foldlM_collects yielding run 0
  exact ⟨rfl, related⟩

theorem MetadataSlot.signatures_eq_ok {slot : MetadataSlot} {value : SignedValue}
    {signatures : List MetadataSignature} (h : slot.signatures = .ok (value, signatures)) :
    slot = .signed value signatures := by
  cases slot with
  | signed value' signatures' =>
    obtain ⟨rfl, rfl⟩ := Prod.mk.inj (Except.ok.inj h)
    rfl
  | _ => cases h

theorem MetadataSlot.isEmpty_iff {slot : MetadataSlot} : slot.isEmpty = true ↔ slot = .empty := by
  cases slot <;> simp [isEmpty]

/-- A normal end decides what stands in the array, and what will. -/
theorem metadata_eq_ok {slots slots' : List MetadataSlot}
    (h : metadata protos slots = .ok slots') :
    ∃ value signatures lastConfig filter buf commitHash,
      slots = [.signed value signatures, .empty, filter, .empty, buf] ∧
        protos.decodeLastConfig value = .ok lastConfig ∧ filter.first = .ok (some 0) ∧
        protos.decodeMetadata buf = .ok (commitHash, []) ∧
        slots' = [.signed (.index lastConfig.val.toInt) signatures, .empty, filter, .empty,
          .commitHash commitHash] := by
  obtain ⟨_, five, h⟩ := bind_eq_ok.mp h
  have length : slots.length = 5 := by simpa using require_eq_ok.mp five
  obtain ⟨s₀, rest, rfl⟩ := List.exists_cons_of_length_eq_add_one length
  obtain ⟨s₁, s₂, s₃, s₄, rfl⟩ := List.length_eq_four.mp (Nat.succ.inj length)
  obtain ⟨signed, at_signatures, h⟩ := bind_eq_ok.mp h
  obtain rfl : s₀ = signed := Option.some.inj (destructured_eq_ok.mp at_signatures)
  obtain ⟨⟨value, signatures⟩, taken, h⟩ := bind_eq_ok.mp h
  obtain rfl := MetadataSlot.signatures_eq_ok taken
  obtain ⟨lastConfig, decoded, h⟩ := bind_eq_ok.mp h
  obtain ⟨filter, at_filter, h⟩ := bind_eq_ok.mp h
  obtain rfl : s₂ = filter := Option.some.inj (destructured_eq_ok.mp at_filter)
  obtain ⟨flag, first, h⟩ := bind_eq_ok.mp h
  obtain ⟨buf, at_hash, h⟩ := bind_eq_ok.mp h
  obtain rfl : s₄ = buf := Option.some.inj (destructured_eq_ok.mp at_hash)
  obtain ⟨⟨commitHash, unsigned⟩, hashed, h⟩ := bind_eq_ok.mp h
  obtain ⟨_, none_signed, rest⟩ := bind_eq_ok.mp h
  obtain rfl := List.isEmpty_iff.mp (require_eq_ok.mp none_signed)
  obtain ⟨config, at_config, h⟩ := bind_eq_ok.mp rest
  obtain rfl : s₁ = config := Option.some.inj (destructured_eq_ok.mp at_config)
  obtain ⟨_, bare, h⟩ := bind_eq_ok.mp h
  obtain rfl := MetadataSlot.isEmpty_iff.mp (require_eq_ok.mp bare)
  obtain ⟨orderer, at_orderer, h⟩ := bind_eq_ok.mp h
  obtain rfl : s₃ = orderer := Option.some.inj (destructured_eq_ok.mp at_orderer)
  obtain ⟨_, bare, h⟩ := bind_eq_ok.mp h
  obtain rfl := MetadataSlot.isEmpty_iff.mp (require_eq_ok.mp bare)
  obtain ⟨_, zero, h⟩ := bind_eq_ok.mp h
  obtain rfl : flag = some 0 := by simpa using require_eq_ok.mp zero
  exact ⟨value, signatures, lastConfig, s₂, s₄, commitHash, rfl, decoded, first, hashed,
    (pure_eq_ok.mp h).symm⟩

/-- Classes that read their index from nothing, and throw on what is no bytes. -/
def plainProtos : BlockProtos where
  sha2_256 := fun bytes => if bytes.head? = some 1 then "first" else "second"
  serializedIdentity := fun identity => identity.id_bytes
  decodeLastConfig
    | .bytes _ => .ok (uint64 0)
    | .index _ => .error "illegal buffer"
  decodeMetadata
    | .bytes buffer => .ok (buffer, [])
    | _ => .error "illegal buffer"

end blockDecoder

end FabricCommon
