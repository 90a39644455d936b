import FabricCommon.ConfigLedger
import FabricCommon.ReportedHeights
import FabricCommon.SpecificBlock

namespace FabricCommon

open PanicRun ConfigLedger

/-- A block as the orderer delivers it, its data in bytes too. -/
structure OrdererBlock extends LedgerBlock where
  data : List Buffer

structure EnvelopeBytes where
  payload : Buffer
  signature : Buffer

/-- A payload with the channel header of its header, if it has one. -/
structure PayloadBytes where
  channel_header : Option Buffer
  data : Buffer

/-- The generated classes that take a configuration block apart. -/
structure ConfigProtos (ConfigEnvelope : Type) extends LedgerProtos where
  decodeEnvelope : Buffer → Except String EnvelopeBytes
  decodePayload : Buffer → Except String PayloadBytes
  decodeChannelHeader : Buffer → Except String Int
  decodeConfigEnvelope : Buffer → Except String ConfigEnvelope

namespace protoTranslator

variable {ConfigEnvelope : Type} (protos : ConfigProtos ConfigEnvelope)

/-- `HeaderType` maps names to numbers, so that the message names no type. -/
def assertConfigBlock (block : OrdererBlock) : Except String Unit := do
  require (block.data.length = 1) "Config block must only contain one transaction"
  let blockData ← destructured block.data[0]?
  let envelope ← protos.decodeEnvelope blockData
  let payload ← protos.decodePayload envelope.payload
  let channel_header ← destructured payload.channel_header
  let type ← protos.decodeChannelHeader channel_header
  require (type = HeaderType.CONFIG)
    "Block must be of type \"CONFIG\" , but got \"undefined\" instead"

def extractConfigEnvelopeFromBlockData (blockData : Buffer) : Except String ConfigEnvelope := do
  let envelope ← protos.decodeEnvelope blockData
  let payload ← protos.decodePayload envelope.payload
  protos.decodeConfigEnvelope payload.data

end protoTranslator

open protoTranslator

section

variable {ConfigEnvelope Rest : Type}

/-- The block is a configuration block, and its envelope is read as `config`. -/
def HoldsConfig (protos : ConfigProtos ConfigEnvelope)
    (read : ConfigEnvelope → ChannelConfiguration Rest) (block : OrdererBlock)
    (config : ChannelConfiguration Rest) : Prop :=
  ∃ blockData envelope payload channel_header configEnvelope,
    block.data = [blockData] ∧ protos.decodeEnvelope blockData = .ok envelope ∧
    protos.decodePayload envelope.payload = .ok payload ∧
    payload.channel_header = some channel_header ∧
    protos.decodeChannelHeader channel_header = .ok (HeaderType.CONFIG : Int) ∧
    protos.decodeConfigEnvelope payload.data = .ok configEnvelope ∧ read configEnvelope = config

/-- The metadata of the block name `number` as the last configuration block. -/
def PointsAt (protos : ConfigProtos ConfigEnvelope) (block : OrdererBlock) (number : Nat) : Prop :=
  ∃ bytes value index, block.metadata[BlockMetadataIndex.LAST_CONFIG]? = some bytes ∧
    protos.decodeMetadata bytes = .ok value ∧ protos.decodeLastConfig value = .ok index ∧
    index.val.value = number

/-- The blocks of a channel, the newest first, and the configurations they hold. -/
inductive Chain (protos : ConfigProtos ConfigEnvelope)
    (read : ConfigEnvelope → ChannelConfiguration Rest) :
    List OrdererBlock → ConfigLedger Rest → Prop
  | genesis {block config} (holds : HoldsConfig protos read block config)
      (points : PointsAt protos block 0) : Chain protos read [block] ⟨config, []⟩
  | append {blocks ledger block config} (chain : Chain protos read blocks ledger)
      (holds : ∀ found, config = some found → HoldsConfig protos read block found)
      (points : PointsAt protos block (ledger.append config).extractLastConfigIndex) :
      Chain protos read (block :: blocks) (ledger.append config)

/-- The block with a given number. -/
def numberedBlock : List OrdererBlock → Nat → Option OrdererBlock
  | [], _ => none
  | block :: older, number =>
    if number = older.length then some block else numberedBlock older number

/-- What the ordering service keeps of a channel. The numbers of the blocks are exact as JavaScript
numbers. -/
structure OrdererLedger (protos : ConfigProtos ConfigEnvelope)
    (read : ConfigEnvelope → ChannelConfiguration Rest) where
  blocks : List OrdererBlock
  view : ConfigLedger Rest
  chain : Chain protos read blocks view
  bounded : view.height < 2 ^ 53

variable {protos : ConfigProtos ConfigEnvelope} {read : ConfigEnvelope → ChannelConfiguration Rest}
  {blocks : List OrdererBlock} {view : ConfigLedger Rest}

namespace Chain

theorem length_eq (h : Chain protos read blocks view) : blocks.length = view.height + 1 := by
  induction h with
  | genesis _ _ => rfl
  | append _ _ _ ih => simp [ih, ConfigLedger.append, height]

theorem newest (h : Chain protos read blocks view) :
    ∃ block, blocks.head? = some block ∧ PointsAt protos block view.extractLastConfigIndex := by
  cases h with
  | genesis _ points => exact ⟨_, rfl, points⟩
  | append _ _ points => exact ⟨_, rfl, points⟩

/-- A configuration of the view is in the block with its number. -/
theorem numbered (h : Chain protos read blocks view) {number : Nat}
    {config : ChannelConfiguration Rest} (found : view.configAt number = some config) :
    ∃ block, numberedBlock blocks number = some block ∧ HoldsConfig protos read block config := by
  induction h with
  | @genesis block first holds _ =>
    simp only [configAt, blockAt, Option.ite_none_right_eq_some, Option.some.injEq] at found
    obtain ⟨rfl, rfl⟩ := found
    exact ⟨block, rfl, holds⟩
  | @append blocks ledger block config' chain holds _ ih =>
    have length := chain.length_eq
    by_cases last : number = ledger.height + 1
    · have here : config' = some config := by
        simpa [configAt, ConfigLedger.append, blockAt, last, height] using found
      exact ⟨block, by simp [numberedBlock, length, last], holds config here⟩
    · have old : ledger.configAt number = some config := by
        simpa [configAt, ConfigLedger.append, blockAt, height,
          show number ≠ ledger.blocks.length + 1 from last] using found
      obtain ⟨block', here, held⟩ := ih old
      exact ⟨block', by simp [numberedBlock, length, last, here], held⟩

end Chain

theorem numberedBlock_append {more : List OrdererBlock} {number : Nat} {block : OrdererBlock}
    (found : numberedBlock blocks number = some block) :
    numberedBlock (more ++ blocks) number = some block := by
  have bound : number < blocks.length := by
    induction blocks with
    | nil => cases found
    | cons newest older ih =>
      simp only [numberedBlock] at found
      split at found
      next last => simp [last]
      next => exact Nat.lt_succ_of_lt (ih found)
  induction more with
  | nil => exact found
  | cons newest more ih =>
    have other : number ≠ (more ++ blocks).length := by
      rw [List.length_append]
      omega
    simp only [List.cons_append, numberedBlock, if_neg other, ih]

namespace OrdererLedger

/-- `later` is `ledger` with more blocks on it. -/
def Extends (ledger later : OrdererLedger protos read) : Prop :=
  (∃ more, later.blocks = more ++ ledger.blocks) ∧ ledger.view.Extends later.view

variable {first ledger later : OrdererLedger protos read}

theorem Extends.refl (ledger : OrdererLedger protos read) : ledger.Extends ledger :=
  ⟨⟨[], rfl⟩, ConfigLedger.Extends.refl ledger.view⟩

theorem Extends.trans (h : first.Extends ledger) (h' : ledger.Extends later) :
    first.Extends later := by
  obtain ⟨⟨more, blocks⟩, genesis, older, view⟩ := h
  obtain ⟨⟨more', blocks'⟩, genesis', older', view'⟩ := h'
  refine ⟨⟨more' ++ more, by rw [blocks', blocks, List.append_assoc]⟩, genesis'.trans genesis,
    older' ++ older, ?_⟩
  rw [view', view, List.append_assoc]

/-- The orderer may deliver the block for the position, to a caller who asked when the ledger was
`first`. -/
def Delivers (first ledger : OrdererLedger protos read) : SeekPosition → OrdererBlock → Prop
  | .newest, block => ∃ seen : OrdererLedger protos read,
      first.Extends seen ∧ seen.Extends ledger ∧ seen.blocks.head? = some block
  | .oldest, block => numberedBlock ledger.blocks 0 = some block
  | .specified number, block => numberedBlock ledger.blocks number = some block

theorem Delivers.extends {position : SeekPosition} {block : OrdererBlock}
    (h : first.Delivers ledger position block) (grown : ledger.Extends later) :
    first.Delivers later position block := by
  cases position with
  | newest =>
    obtain ⟨seen, after, before, newest⟩ := h
    exact ⟨seen, after, before.trans grown, newest⟩
  | oldest =>
    obtain ⟨more, blocks⟩ := grown.1
    simp only [Delivers, blocks, numberedBlock_append h]
  | specified number =>
    obtain ⟨more, blocks⟩ := grown.1
    simp only [Delivers, blocks, numberedBlock_append h]

/-- The index that is read from the newest block is the one the view has. -/
theorem extractLastConfigIndex_newest {block : OrdererBlock}
    (newest : ledger.blocks.head? = some block) :
    extractLastConfigIndex protos.toLedgerProtos block.toLedgerBlock =
      .ok (some (ledger.view.extractLastConfigIndex : Int)) := by
  obtain ⟨block', same, bytes, value, index, held, metadata, lastConfig, shown⟩ :=
    ledger.chain.newest
  obtain rfl := Option.some.inj (newest.symm.trans same)
  have bound := ConfigLedger.extractLastConfigIndex_le ledger.view
  have bounded := ledger.bounded
  exact NumberReport.extractLastConfigIndex_eq held metadata lastConfig shown (by omega)

/-- The last configuration block is still there when the ledger has grown. -/
theorem numbered_extractLastConfigIndex (grown : ledger.Extends later) {block : OrdererBlock}
    (found : numberedBlock later.blocks ledger.view.extractLastConfigIndex = some block) :
    HoldsConfig protos read block ledger.view.current := by
  have current : later.view.configAt ledger.view.extractLastConfigIndex =
      some ledger.view.current := by
    rw [grown.2.configAt (ConfigLedger.extractLastConfigIndex_le ledger.view)]
    exact ConfigLedger.configAt_extractLastConfigIndex ledger.view
  obtain ⟨block', found', holds⟩ := later.chain.numbered current
  obtain rfl := Option.some.inj (found.symm.trans found')
  exact holds

end OrdererLedger

/-- A configuration block passes the assertion, and its envelope can be taken out. -/
theorem HoldsConfig.extract {block : OrdererBlock} {config : ChannelConfiguration Rest}
    (h : HoldsConfig protos read block config) :
    assertConfigBlock protos block = .ok () ∧
      ∃ blockData configEnvelope, block.data[0]? = some blockData ∧
        extractConfigEnvelopeFromBlockData protos blockData = .ok configEnvelope ∧
        read configEnvelope = config := by
  obtain ⟨blockData, envelope, payload, channel_header, configEnvelope, data, decoded, decoded',
    header, type, config, rfl⟩ := h
  constructor
  · simp [assertConfigBlock, require, destructured, data, decoded, decoded', header, type, bind,
      Except.bind]
  · refine ⟨blockData, configEnvelope, by simp [data], ?_, rfl⟩
    simp [extractConfigEnvelopeFromBlockData, decoded, decoded', config, bind, Except.bind]

end

end FabricCommon
