import FabricCommon.BlockDecoder

namespace FabricCommon.blockDecoder

open PanicRun

/-- A block with one code in its transactions filter for each entry of its data. -/
structure FilteredBlock where
  datas : List Entry
  slots : List MetadataSlot
  filter : List Nat
  stored : slots[BlockMetadataIndex.TRANSACTIONS_FILTER]? = some (.codes filter)
  oneEach : filter.length = datas.length

namespace FilteredBlock

variable {protos : BlockProtos} (block : FilteredBlock)

/-- Validation code 0 is VALID. -/
def ValidAt (position : Nat) : Prop := block.filter[position]? = some 0

/-- The transactions listed are those of the entries without a configuration, each VALID at the
position of its entry. -/
def ListsValid (txs : List ListedTransaction) : Prop :=
  List.Forall₂
    (fun entry tx => block.ValidAt entry.2 ∧ entry.1.channel_header.tx_id = tx.tx_id)
    (transactions block.datas) txs

variable {block}

theorem listsValid_iff {datas : List Entry} {txs : List ListedTransaction}
    (listed : data protos block.datas = .ok (datas, txs)) :
    block.ListsValid txs ↔ ∀ entry ∈ transactions block.datas, block.ValidAt entry.2 := by
  have origins : List.Forall₂ (fun entry tx => entry.1.channel_header.tx_id = tx.tx_id)
      (transactions block.datas) txs := by
    refine (data_eq_ok listed).2.imp fun entry tx h => ?_
    rcases Entry.listed_eq_ok h with h | h
    · exact absurd h.2 (by simp)
    · obtain ⟨-, tx', read, same⟩ := h
      rw [Option.some.inj same]
      exact (Entry.transaction_tx_id read).symm
  rw [ListsValid, List.forall₂_and_left]
  exact and_iff_left origins

theorem validAt_zero {slots : List MetadataSlot}
    (checked : metadata protos block.slots = .ok slots) : block.ValidAt 0 := by
  obtain ⟨value, signatures, lastConfig, slot, buf, commitHash, held, -, first, -⟩ :=
    metadata_eq_ok checked
  have same := block.stored
  rw [held] at same
  obtain rfl : slot = .codes block.filter := Option.some.inj same
  rw [ValidAt, ← List.head?_eq_getElem?]
  exact Except.ok.inj first

end FilteredBlock

theorem data_listsValid_iff {protos : BlockProtos} (block : FilteredBlock) {datas : List Entry}
    {txs : List ListedTransaction} {slots : List MetadataSlot}
    (listed : data protos block.datas = .ok (datas, txs))
    (checked : metadata protos block.slots = .ok slots) :
    block.ListsValid txs ↔
      ∀ entry ∈ transactions block.datas, 0 < entry.2 → block.ValidAt entry.2 := by
  rw [FilteredBlock.listsValid_iff listed]
  constructor
  · intro valid entry mem _
    exact valid entry mem
  · intro later entry mem
    rcases Nat.eq_zero_or_pos entry.2 with first | after
    · rw [first]
      exact FilteredBlock.validAt_zero checked
    · exact later entry mem after

/-- A transaction with one action. -/
def invoked (tx_id : String) (nonce : Buffer) : Entry where
  channel_header := ⟨tx_id⟩
  signature_header := ⟨⟨"Org1MSP", []⟩, nonce⟩
  config := false
  actions := some [⟨[], some ⟨some "cc", some ⟨[], false⟩⟩⟩]

def listing (tx_id : String) (nonce : Buffer) : ListedTransaction :=
  ⟨tx_id, [], false, "cc", ⟨"Org1MSP", []⟩, nonce⟩

/-- Two transactions with the given codes. -/
def twoTransactions (code code' : Nat) : FilteredBlock where
  datas := [invoked "first" [1], invoked "second" [2]]
  slots := [.signed (.bytes []) [], .empty, .codes [code, code'], .empty, .bytes []]
  filter := [code, code']
  stored := rfl
  oneEach := rfl

theorem data_twoTransactions (code code' : Nat) :
    data plainProtos (twoTransactions code code').datas =
      .ok ([invoked "first" [1], invoked "second" [2]],
        [listing "first" [1], listing "second" [2]]) := rfl

theorem metadata_twoTransactions (code' : Nat) :
    metadata plainProtos (twoTransactions 0 code').slots =
      .ok [.signed (.index 0) [], .empty, .codes [0, code'], .empty, .commitHash []] := rfl

theorem data_listsValid_twoTransactions :
    (twoTransactions 0 0).ListsValid [listing "first" [1], listing "second" [2]] := by
  rw [data_listsValid_iff (twoTransactions 0 0) (data_twoTransactions 0 0)
    (metadata_twoTransactions 0)]
  intro entry mem after
  have second : entry = (invoked "second" [2], 1) := by
    have one_of : entry = (invoked "first" [1], 0) ∨ entry = (invoked "second" [2], 1) := by
      simpa [transactions, twoTransactions, invoked] using mem
    rcases one_of with rfl | same
    · cases after
    · exact same
  rw [second]
  rfl

/-- The second of two transactions is listed with the code of a conflicting read. -/
theorem data_lists_invalid :
    ∃ txs slots, data plainProtos (twoTransactions 0 11).datas =
        .ok ((twoTransactions 0 11).datas, txs) ∧
      metadata plainProtos (twoTransactions 0 11).slots = .ok slots ∧
      ¬ (twoTransactions 0 11).ListsValid txs := by
  refine ⟨_, _, data_twoTransactions 0 11, metadata_twoTransactions 11, fun valid => ?_⟩
  have second := (FilteredBlock.listsValid_iff (data_twoTransactions 0 11)).mp valid
    (invoked "second" [2], 1) (by simp [transactions, twoTransactions, invoked])
  cases second

end FabricCommon.blockDecoder
