import FabricCommon.GateText
import FabricCommon.StepRun

namespace FabricCommon

structure AnchorPeer where
  host : Text
  port : Nat
  deriving DecidableEq, Repr

/-- A channel configuration: the anchor peers of each organisation that has the value, and whatever
else it holds. -/
structure ChannelConfiguration (Rest : Type) where
  anchor_peers : Text → Option (List AnchorPeer)
  rest : Rest

def ChannelConfiguration.setAnchorPeers {Rest : Type} (config : ChannelConfiguration Rest)
    (orgName : Text) (anchorPeers : List AnchorPeer) : ChannelConfiguration Rest :=
  { config with anchor_peers := Function.update config.anchor_peers orgName (some anchorPeers) }

/-- A channel's blocks, the newest first and the genesis block apart: a configuration block holds
its configuration, a block of transactions holds none. -/
structure ConfigLedger (Rest : Type) where
  genesis : ChannelConfiguration Rest
  blocks : List (Option (ChannelConfiguration Rest))

namespace ConfigLedger

variable {Rest : Type}

/-- The number of the newest block. -/
def height (ledger : ConfigLedger Rest) : Nat := ledger.blocks.length

def append (ledger : ConfigLedger Rest) (block : Option (ChannelConfiguration Rest)) :
    ConfigLedger Rest :=
  { ledger with blocks := block :: ledger.blocks }

def lastIndex : List (Option (ChannelConfiguration Rest)) → Nat
  | [] => 0
  | some _ :: older => older.length + 1
  | none :: older => lastIndex older

/-- The index in the metadata of the newest block, which the ordering service writes there. -/
def extractLastConfigIndex (ledger : ConfigLedger Rest) : Nat := lastIndex ledger.blocks

def blockAt (genesis : ChannelConfiguration Rest) :
    List (Option (ChannelConfiguration Rest)) → Nat → Option (ChannelConfiguration Rest)
  | [], number => if number = 0 then some genesis else none
  | block :: older, number =>
    if number = older.length + 1 then block else blockAt genesis older number

/-- The configuration in the block with a given number. -/
def configAt (ledger : ConfigLedger Rest) (number : Nat) : Option (ChannelConfiguration Rest) :=
  blockAt ledger.genesis ledger.blocks number

def currentOf (genesis : ChannelConfiguration Rest) :
    List (Option (ChannelConfiguration Rest)) → ChannelConfiguration Rest
  | [] => genesis
  | some config :: _ => config
  | none :: older => currentOf genesis older

/-- The configuration in force. -/
def current (ledger : ConfigLedger Rest) : ChannelConfiguration Rest :=
  currentOf ledger.genesis ledger.blocks

theorem lastIndex_le (blocks : List (Option (ChannelConfiguration Rest))) :
    lastIndex blocks ≤ blocks.length := by
  induction blocks with
  | nil => exact Nat.le_refl 0
  | cons block older ih =>
    cases block with
    | some config => exact Nat.le_refl _
    | none => exact Nat.le_succ_of_le ih

theorem blockAt_cons {genesis : ChannelConfiguration Rest}
    {blocks : List (Option (ChannelConfiguration Rest))} {number : Nat}
    (old : number ≤ blocks.length) (block : Option (ChannelConfiguration Rest)) :
    blockAt genesis (block :: blocks) number = blockAt genesis blocks number := by
  have other : number ≠ blocks.length + 1 := by omega
  rw [blockAt, if_neg other]

theorem blockAt_append {genesis : ChannelConfiguration Rest}
    {blocks : List (Option (ChannelConfiguration Rest))} {number : Nat}
    (old : number ≤ blocks.length) (more : List (Option (ChannelConfiguration Rest))) :
    blockAt genesis (more ++ blocks) number = blockAt genesis blocks number := by
  induction more with
  | nil => rfl
  | cons block more ih =>
    have bound : number ≤ (more ++ blocks).length := by
      rw [List.length_append]
      omega
    rw [List.cons_append, blockAt_cons bound, ih]

/-- The block that the metadata of the newest block points at holds the configuration in force. -/
theorem blockAt_lastIndex (genesis : ChannelConfiguration Rest)
    (blocks : List (Option (ChannelConfiguration Rest))) :
    blockAt genesis blocks (lastIndex blocks) = some (currentOf genesis blocks) := by
  induction blocks with
  | nil => rfl
  | cons block older ih =>
    cases block with
    | some config => simp [blockAt, lastIndex, currentOf]
    | none =>
      rw [lastIndex, blockAt_cons (lastIndex_le older), ih]
      rfl

/-- `later` is `ledger` with more blocks on it. -/
def Extends (ledger later : ConfigLedger Rest) : Prop :=
  later.genesis = ledger.genesis ∧ ∃ more, later.blocks = more ++ ledger.blocks

variable {ledger later : ConfigLedger Rest}

theorem Extends.refl (ledger : ConfigLedger Rest) : ledger.Extends ledger := ⟨rfl, [], rfl⟩

theorem Extends.append (h : ledger.Extends later) (block : Option (ChannelConfiguration Rest)) :
    ledger.Extends (later.append block) := by
  obtain ⟨genesis, more, blocks⟩ := h
  exact ⟨genesis, block :: more, by simp [ConfigLedger.append, blocks]⟩

theorem Extends.height_le (h : ledger.Extends later) : ledger.height ≤ later.height := by
  obtain ⟨_, more, blocks⟩ := h
  simp [height, blocks]

theorem Extends.configAt (h : ledger.Extends later) {number : Nat}
    (old : number ≤ ledger.height) : later.configAt number = ledger.configAt number := by
  obtain ⟨genesis, more, blocks⟩ := h
  rw [ConfigLedger.configAt, genesis, blocks, blockAt_append old]
  rfl

theorem extractLastConfigIndex_le (ledger : ConfigLedger Rest) :
    ledger.extractLastConfigIndex ≤ ledger.height := lastIndex_le ledger.blocks

theorem configAt_extractLastConfigIndex (ledger : ConfigLedger Rest) :
    ledger.configAt ledger.extractLastConfigIndex = some ledger.current :=
  blockAt_lastIndex ledger.genesis ledger.blocks

/-- The index never falls below the number of a configuration block. -/
theorem le_extractLastConfigIndex_append (config : ChannelConfiguration Rest)
    (h : (ledger.append (some config)).Extends later) :
    ledger.height + 1 ≤ later.extractLastConfigIndex := by
  obtain ⟨_, more, blocks⟩ := h
  rw [extractLastConfigIndex, blocks]
  clear blocks
  induction more with
  | nil => exact Nat.le_refl _
  | cons block more ih =>
    cases block with
    | none => exact ih
    | some config' =>
      rw [List.cons_append, lastIndex, List.length_append]
      simp only [ConfigLedger.append, List.length_cons, height]
      omega

end ConfigLedger

end FabricCommon
