import FabricCommon.EventHub
import FabricCommon.StepRun
import Mathlib.Data.List.Induction

namespace FabricCommon

/-- The chain the ordering service has cut, and how much of it the peer has on its ledger: at least
the genesis block, and nothing that was not ordered. -/
structure Ledger (TxId : Type) where
  ordered : List (List TxId)
  height : Nat
  genesis : 0 < height
  height_le : height ≤ ordered.length

/-- The block numbers from `first` to `last`. -/
structure BlockRange where
  first : Nat
  last : Nat
  deriving DecidableEq, Repr

def BlockRange.Contains (range : BlockRange) (b : Nat) : Prop :=
  range.first ≤ b ∧ b ≤ range.last

/-- The block a peer takes a position for when its ledger has `height` blocks. -/
def SeekPosition.resolve (height : Nat) : SeekPosition → Nat
  | .oldest => 0
  | .newest => height - 1
  | .specified number => number

def SeekInfo.range (data : SeekInfo) (height : Nat) : BlockRange :=
  ⟨data.start.resolve height, data.stop.resolve height⟩

namespace Ledger

variable {TxId : Type}

def cut (ledger : Ledger TxId) (txs : List TxId) : Ledger TxId where
  ordered := ledger.ordered ++ [txs]
  height := ledger.height
  genesis := ledger.genesis
  height_le := by
    have := ledger.height_le
    simp only [List.length_append, List.length_singleton]
    omega

/-- The peer appends the next ordered block, when there is one. -/
def append (ledger : Ledger TxId) : Ledger TxId :=
  if h : ledger.height < ledger.ordered.length then
    { ledger with height := ledger.height + 1, genesis := Nat.succ_pos _, height_le := h }
  else ledger

def PlacedIn (ledger : Ledger TxId) (tx : TxId) (b : Nat) : Prop :=
  ∃ txs, ledger.ordered[b]? = some txs ∧ tx ∈ txs

end Ledger

/-- The operations that wait for the transaction they have broadcast. -/
inductive FinalityOperation where
  | submit
  | approve
  | commitChaincodeDefinition
  deriving DecidableEq, Repr

def FinalityOperation.wait {TxId : Type} (transactionId : TxId) :
    FinalityOperation → EventHubQuery.TxWait TxId
  | .submit => EventHubQuery.waitForTx transactionId
  | .approve => EventHubQuery.waitForTx transactionId
  | .commitChaincodeDefinition => EventHubQuery.waitForTx transactionId

inductive FinalityClient where
  | broadcast
  | accepted
  | failed (err : InterceptorError)
  | listening (range : BlockRange)
  deriving DecidableEq, Repr

structure FinalityState (TxId : Type) where
  ledger : Ledger TxId
  client : FinalityClient

inductive FinalityEvent (TxId : Type) where
  | cut (txs : List TxId)
  | append
  | answer (result : CommitResponse)
  | seek

namespace FinalityState

variable {TxId : Type} (operation : FinalityOperation) (tx : TxId)

def step (s : FinalityState TxId) : FinalityEvent TxId → FinalityState TxId
  | .cut txs => { s with ledger := s.ledger.cut txs }
  | .append => { s with ledger := s.ledger.append }
  | .answer result =>
    match s.client with
    | .broadcast =>
      match CommitSuccess result with
      | .ok _ => { s with client := .accepted }
      | .error err => { s with client := .failed err }
    | _ => s
  | .seek =>
    match s.client with
    | .accepted =>
      { s with client := .listening ((operation.wait tx).payload.data.range s.ledger.height) }
    | _ => s

/-- `operation` has broadcast `tx` while the peer was at `start`, for the last time: an approval
does so again as long as there is no leader. -/
def run (start : Ledger TxId) (es : List (FinalityEvent TxId)) : FinalityState TxId :=
  es.foldl (step operation tx) ⟨start, .broadcast⟩

variable {operation : FinalityOperation} {tx : TxId} {s : FinalityState TxId}
  {start : Ledger TxId}

theorem wait_range (operation : FinalityOperation) (tx : TxId) (height : Nat) :
    (operation.wait tx).payload.data.range height = ⟨height - 1, Long.MAX_VALUE⟩ := by
  cases operation <;> rfl

theorem step_listening {range : BlockRange} (e : FinalityEvent TxId)
    (h : s.client = .listening range) : (step operation tx s e).client = .listening range := by
  cases e with
  | cut txs => exact h
  | append => exact h
  | answer result => simp only [step, h]
  | seek => simp only [step, h]

theorem step_seek (h : s.client = .accepted) :
    (step operation tx s .seek).client =
      .listening ⟨s.ledger.height - 1, Long.MAX_VALUE⟩ := by
  simp only [step, h, wait_range]

theorem step_starts_listening {range : BlockRange} {e : FinalityEvent TxId}
    (h : (step operation tx s e).client = .listening range) :
    s.client = .listening range ∨ e = .seek ∧ s.client = .accepted := by
  cases e with
  | cut txs => exact Or.inl h
  | append => exact Or.inl h
  | answer result =>
    simp only [step] at h
    split at h
    next =>
      split at h
      next => cases h
      next => cases h
    next => exact Or.inl h
  | seek =>
    simp only [step] at h
    split at h
    next accepted => exact Or.inr ⟨rfl, accepted⟩
    next => exact Or.inl h

theorem foldl_listening {range : BlockRange} (h : s.client = .listening range)
    (es : List (FinalityEvent TxId)) :
    (es.foldl (step operation tx) s).client = .listening range :=
  StepRun.foldl_keeps (I := fun s : FinalityState TxId => s.client = .listening range)
    (fun _ e hs => step_listening e hs) h es

theorem run_seek {pre : List (FinalityEvent TxId)} (post : List (FinalityEvent TxId))
    (h : (run operation tx start pre).client = .accepted) :
    (run operation tx start (pre ++ .seek :: post)).client =
      .listening ⟨(run operation tx start pre).ledger.height - 1, Long.MAX_VALUE⟩ := by
  have split : run operation tx start (pre ++ .seek :: post) =
      post.foldl (step operation tx) (step operation tx (run operation tx start pre) .seek) := by
    simp only [run, List.foldl_append, List.foldl_cons]
  rw [split]
  exact foldl_listening (step_seek h) post

/-- The peer has answered at most one seek, and the client was waiting for it. -/
theorem run_listening {range : BlockRange} {es : List (FinalityEvent TxId)}
    (h : (run operation tx start es).client = .listening range) :
    ∃ pre post, es = pre ++ .seek :: post ∧ (run operation tx start pre).client = .accepted := by
  have started := StepRun.foldl_raised
    (I := fun s : FinalityState TxId => s.client = .listening range)
    (fun s e => step_starts_listening) h
  rcases started with before | ⟨pre, e, post, eq, rfl, accepted⟩
  · cases before
  · exact ⟨pre, post, eq, accepted⟩

end FinalityState

open FinalityState

/-- The blocks the peer was asked for contain every block `tx` is placed in. -/
def SeesFinality {TxId : Type} (tx : TxId) (s : FinalityState TxId) : Prop :=
  ∀ range, s.client = .listening range → ∀ b, s.ledger.PlacedIn tx b → range.Contains b

theorem waitForTx_sees_finality_iff {TxId : Type} (operation : FinalityOperation) (tx : TxId)
    (start : Ledger TxId) (es : List (FinalityEvent TxId)) :
    SeesFinality tx (run operation tx start es) ↔
      ∀ pre post, es = pre ++ .seek :: post → (run operation tx start pre).client = .accepted →
        ∀ b, (run operation tx start es).ledger.PlacedIn tx b →
          (run operation tx start pre).ledger.height ≤ b + 1 ∧ b ≤ Long.MAX_VALUE := by
  constructor
  · intro sees pre post eq accepted b placed
    subst eq
    have covered := sees _ (run_seek post accepted) b placed
    have first : (run operation tx start pre).ledger.height - 1 ≤ b := covered.1
    exact ⟨by omega, covered.2⟩
  · intro h range listening b placed
    obtain ⟨pre, post, eq, accepted⟩ := run_listening listening
    obtain ⟨height, last⟩ := h pre post eq accepted b placed
    subst eq
    have asked := run_seek post accepted
    rw [asked] at listening
    cases FinalityClient.listening.inj listening
    have first : (run operation tx start pre).ledger.height - 1 ≤ b := by omega
    exact ⟨first, last⟩

/-- Asking from the oldest block, as `setAnchorPeers` does, misses no block. -/
theorem waitUntilBlock_contains {TxId : Type} (tx : TxId) (height : Nat) {b : Nat}
    (h : b ≤ Long.MAX_VALUE) :
    ((EventHubQuery.waitUntilBlock tx).data.range height).Contains b := ⟨Nat.zero_le b, h⟩

def genesisLedger : Ledger Nat := ⟨[[]], 1, Nat.one_pos, Nat.le_refl 1⟩

/-- A foreign block follows the block of transaction 7 before the peer sees the seek. -/
def overtakenFinality : List (FinalityEvent Nat) :=
  [.answer ⟨"SUCCESS", ""⟩, .cut [7], .append, .cut [8], .append, .seek]

theorem waitForTx_misses_overtaken_block :
    ¬ SeesFinality 7 (run .submit 7 genesisLedger overtakenFinality) := by
  intro sees
  have placed : (run .submit 7 genesisLedger overtakenFinality).ledger.PlacedIn 7 1 :=
    ⟨[7], by decide, by decide⟩
  have covered := sees ⟨2, Long.MAX_VALUE⟩ (by decide) 1 placed
  exact absurd covered.1 (by decide)

end FabricCommon
