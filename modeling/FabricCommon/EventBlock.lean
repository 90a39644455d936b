import FabricCommon.EventParseable

namespace FabricCommon.Golang

open PanicRun

structure TrimmedTransaction where
  txid : String
  type : Common.HeaderType
  txValidationCode : Peer.TxValidationCode
  chaincodeActions : List Peer.ChaincodeEvent

structure TrimmedBlock where
  channelId : String
  number : UInt64
  trimmedTransactions : List TrimmedTransaction

def TrimmedTransaction.fill (t : TrimmedTransaction) (transaction : Transaction) :
    TrimmedTransaction :=
  { t with
    txid := transaction.txId
    type := transaction.txType
    chaincodeActions := t.chaincodeActions ++ transaction.chaincodeActions.map fun action =>
      action.action.proposalResponsePayload.extension.events }

/-- `peer.TxValidationCode(code)` of a byte of the transactions filter. -/
def txValidationCode (code : UInt8) : Peer.TxValidationCode := code.toUInt32.toInt32

section

variable (goutils : Goutils) (protos : Protos)

/-- The body of the loop of `fromFullBlock`. -/
def trimTransaction (txStatusCodes : Bytes) (trimmedBlock : TrimmedBlock) :
    Bytes × Nat → GoM TrimmedBlock
  | (data, index) => do
    let envelop ← unmarshalOrPanic goutils protos.envelope data
    let payload ← unmarshalOrPanic goutils protos.payload envelop.payload
    let header ← deref payload.header
    let channelHeader ← unmarshalOrPanic goutils protos.channelHeader header.channelHeader
    let code ← indexed txStatusCodes index
    let transaction ← parseTransaction goutils protos payload
    let tx : TrimmedTransaction := {
      txid := "", type := 0, txValidationCode := txValidationCode code, chaincodeActions := [] }
    return { trimmedBlock with
      channelId := channelHeader.channelId
      trimmedTransactions := trimmedBlock.trimmedTransactions ++ [tx.fill transaction] }

def fromFullBlock (block : Common.Block) : GoM TrimmedBlock := do
  let header ← deref block.header
  let metadata ← deref block.metadata
  let txStatusCodes ← indexed metadata.metadata Common.BlockMetadataIndex_TRANSACTIONS_FILTER
  let data ← deref block.data
  data.data.zipIdx.foldlM (trimTransaction goutils protos txStatusCodes)
    { channelId := "", number := header.number, trimmedTransactions := [] }

end

/-- The envelope carries a channel header that decodes to `channelHeader`. -/
def Listed (protos : Protos) (data : Bytes) (channelHeader : Common.ChannelHeader) : Prop :=
  Decodes protos.envelope data fun envelop =>
  Decodes protos.payload envelop.payload fun payload =>
  ∃ header, payload.header = some header ∧
    protos.channelHeader header.channelHeader = (channelHeader, none)

def ParseableEnvelope (goutils : Goutils) (protos : Protos) (data : Bytes) : Prop :=
  Decodes protos.envelope data fun envelop =>
  Decodes protos.payload envelop.payload fun payload => Parseable goutils protos payload

/-- A block a peer can deliver: every envelope decodes down to its channel header, and the
transactions filter holds a code for each. -/
structure DeliveredBlock (protos : Protos) where
  channelId : String
  number : UInt64
  envelopes : List Bytes
  channelHeaders : List Common.ChannelHeader
  listed : List.Forall₂ (Listed protos) envelopes channelHeaders
  metadata : List Bytes
  codes : Bytes
  filter : metadata[Common.BlockMetadataIndex_TRANSACTIONS_FILTER]? = some codes
  codes_length : codes.length = envelopes.length

namespace DeliveredBlock

variable {goutils : Goutils} {protos : Protos}

def full (b : DeliveredBlock protos) : Common.Block where
  header := some ⟨b.number⟩
  data := some ⟨b.envelopes⟩
  metadata := some ⟨b.metadata⟩

/-- The peer's filtered form of the block. -/
def filtered (b : DeliveredBlock protos) : Peer.FilteredBlock where
  channelId := b.channelId
  number := b.number
  filteredTransactions := List.zipWith
    (fun channelHeader code => ⟨channelHeader.txId, channelHeader.type, txValidationCode code⟩)
    b.channelHeaders b.codes

end DeliveredBlock

/-- What a trimmed transaction simulates. -/
def TrimmedTransaction.simulated (t : TrimmedTransaction) : Peer.FilteredTransaction :=
  ⟨t.txid, t.type, t.txValidationCode⟩

/-- An envelope and its index are filtered to `tx`. -/
def FilteredTo (protos : Protos) (codes : Bytes) (entry : Bytes × Nat)
    (tx : Peer.FilteredTransaction) : Prop :=
  ∃ channelHeader code, Listed protos entry.1 channelHeader ∧ codes[entry.2]? = some code ∧
    tx = ⟨channelHeader.txId, channelHeader.type, txValidationCode code⟩

variable {goutils : Goutils} {protos : Protos}

theorem trimTransaction_returns_iff {codes : Bytes} {trimmed : TrimmedBlock} {entry : Bytes × Nat} :
    Returns (trimTransaction goutils protos codes trimmed entry) ↔
      ParseableEnvelope goutils protos entry.1 ∧ entry.2 < codes.length := by
  obtain ⟨data, index⟩ := entry
  simp only [trimTransaction, returns_bind, unmarshalOrPanic_eq_ok, deref_eq_ok, indexed_eq_ok,
    returns_pure, ParseableEnvelope, Decodes, and_true]
  constructor
  · intro h
    obtain ⟨envelop, henvelop, payload, hpayload, _, _, _, _, code, hcode, parsed⟩ := h
    obtain ⟨bound, _⟩ := List.getElem?_eq_some_iff.mp hcode
    exact ⟨⟨envelop, henvelop, payload, hpayload, parseTransaction_returns_iff.mp parsed⟩, bound⟩
  · intro h
    obtain ⟨⟨envelop, henvelop, payload, hpayload, parseable⟩, bound⟩ := h
    have parsed := parseTransaction_returns_iff.mpr parseable
    obtain ⟨header, hheader, channelHeader, hchannel, _⟩ := parseable
    exact ⟨envelop, henvelop, payload, hpayload, header, hheader, channelHeader, hchannel, _,
      List.getElem?_eq_getElem bound, parsed⟩

theorem trimTransaction_simulated {codes : Bytes} {trimmed trimmed' : TrimmedBlock}
    {entry : Bytes × Nat} {tx : Peer.FilteredTransaction}
    (filtered : FilteredTo protos codes entry tx)
    (run : trimTransaction goutils protos codes trimmed entry = .ok trimmed') :
    trimmed'.trimmedTransactions.map TrimmedTransaction.simulated =
      trimmed.trimmedTransactions.map TrimmedTransaction.simulated ++ [tx] := by
  obtain ⟨data, index⟩ := entry
  obtain ⟨channelHeader, code, ⟨envelop, henvelop, payload, hpayload, header, hheader, hchannel⟩,
    hcode, rfl⟩ := filtered
  simp only [trimTransaction, bind_eq_ok, unmarshalOrPanic_eq_ok, deref_eq_ok, indexed_eq_ok,
    henvelop, hpayload, hheader, hchannel, hcode, Prod.mk.injEq, and_true, Option.some.injEq,
    exists_eq_left', pure_eq_ok] at run
  obtain ⟨t, parsed, rfl⟩ := run
  obtain ⟨txid, type⟩ := parseTransaction_header hheader hchannel parsed
  simp [TrimmedTransaction.simulated, TrimmedTransaction.fill, txid, type]

namespace DeliveredBlock

theorem filtered_forall₂ (b : DeliveredBlock protos) :
    List.Forall₂ (FilteredTo protos b.codes) b.envelopes.zipIdx
      b.filtered.filteredTransactions := by
  have headers := b.listed.length_eq
  have codes := b.codes_length
  refine List.forall₂_iff_get.mpr ⟨?_, ?_⟩
  · simp only [filtered, List.length_zipIdx, List.length_zipWith]
    omega
  · intro i hi hi'
    have bound : i < b.envelopes.length := by simpa using hi
    have listed := (List.forall₂_iff_get.mp b.listed).2 i bound (by omega)
    refine ⟨b.channelHeaders[i], b.codes[i], ?_, ?_, ?_⟩
    · simpa using listed
    · simp
    · simp [filtered]

/-- `fromFullBlock` lists what the peer filters, when it reads the block to its end. -/
theorem fromFullBlock_simulated {b : DeliveredBlock protos} {trimmed : TrimmedBlock}
    (run : fromFullBlock goutils protos b.full = .ok trimmed) :
    trimmed.trimmedTransactions.map TrimmedTransaction.simulated =
      b.filtered.filteredTransactions := by
  simp only [fromFullBlock, full, bind_eq_ok, deref_eq_ok, indexed_eq_ok, Option.some.injEq,
    exists_eq_left', b.filter] at run
  have round : ∀ s entry tx s', FilteredTo protos b.codes entry tx →
      trimTransaction goutils protos b.codes s entry = .ok s' →
      s'.trimmedTransactions.map TrimmedTransaction.simulated =
        s.trimmedTransactions.map TrimmedTransaction.simulated ++ [tx] :=
    fun _ _ _ _ => trimTransaction_simulated
  simpa using foldlM_lists round b.filtered_forall₂ run

theorem fromFullBlock_returns_iff (b : DeliveredBlock protos) :
    Returns (fromFullBlock goutils protos b.full) ↔
      ∀ data ∈ b.envelopes, ParseableEnvelope goutils protos data := by
  have round : ∀ s entry, Returns (trimTransaction goutils protos b.codes s entry) ↔
      ParseableEnvelope goutils protos entry.1 ∧ entry.2 < b.codes.length :=
    fun _ _ => trimTransaction_returns_iff
  simp only [fromFullBlock, full, returns_bind, deref_eq_ok, indexed_eq_ok, Option.some.injEq,
    exists_eq_left', b.filter]
  rw [returns_foldlM_iff round]
  constructor
  · intro h data mem
    obtain ⟨i, bound, eq⟩ := List.mem_iff_getElem.mp mem
    have entry : (data, i) ∈ b.envelopes.zipIdx := by
      rw [List.mem_zipIdx_iff_getElem?, List.getElem?_eq_getElem bound, eq]
    exact (h (data, i) entry).1
  · rintro h ⟨data, i⟩ entry
    have found := List.mem_zipIdx_iff_getElem?.mp entry
    obtain ⟨bound, _⟩ := List.getElem?_eq_some_iff.mp found
    exact ⟨h data (List.mem_of_getElem? found), by
      rw [b.codes_length]
      exact bound⟩

end DeliveredBlock

end FabricCommon.Golang
