import FabricCommon.ConfigLedger

namespace FabricCommon

/-- How far a `setAnchorPeers` call with `finalityRequired` is, and what it has read so far. -/
inductive UpdatePhase (Rest : Type) where
  | signed
  | heightRead (beforeHeight : Nat)
  | submitted (beforeHeight : Nat)
  | accepted (beforeHeight : Nat)
  | finalitySeen
  | newestRead (lastConfigBlockHeight : Nat)
  | reread (lastConfigBlockHeight : Nat) (config : Option (ChannelConfiguration Rest))

/-- Where the update of the call is. -/
inductive UpdateProgress where
  | built
  | ordering
  | inBlock (number : Nat)

structure AnchorPeersCall (Rest : Type) where
  ledger : ConfigLedger Rest
  phase : UpdatePhase Rest
  update : UpdateProgress

/-- A block of other clients is appended, the block of the update is, or the promise resolves that
the call awaits. -/
inductive ChannelTurn (Rest : Type) where
  | foreign (block : Option (ChannelConfiguration Rest))
  | ordered
  | resolved

namespace AnchorPeersCall

variable {Rest : Type}

/-- The update takes effect on whatever configuration is in force when it is ordered. -/
def order (orgName : Text) (anchorPeers : List AnchorPeer) (s : AnchorPeersCall Rest) :
    AnchorPeersCall Rest :=
  match s.update with
  | .ordering =>
    { s with
      ledger := s.ledger.append (some (s.ledger.current.setAnchorPeers orgName anchorPeers))
      update := .inBlock (s.ledger.height + 1) }
  | _ => s

/-- The next `await`: `getLastBlock`, the broadcast and its answer `SUCCESS`, `waitUntilBlock`, and
the two fetches of `getChannelConfigFromOrderer`. -/
def resolve (s : AnchorPeersCall Rest) : AnchorPeersCall Rest :=
  match s.phase with
  | .signed => { s with phase := .heightRead s.ledger.height }
  | .heightRead beforeHeight => { s with phase := .submitted beforeHeight, update := .ordering }
  | .submitted beforeHeight => { s with phase := .accepted beforeHeight }
  | .accepted beforeHeight =>
    if beforeHeight + 1 ≤ s.ledger.height then { s with phase := .finalitySeen } else s
  | .finalitySeen => { s with phase := .newestRead s.ledger.extractLastConfigIndex }
  | .newestRead lastConfigBlockHeight =>
    { s with phase := .reread lastConfigBlockHeight (s.ledger.configAt lastConfigBlockHeight) }
  | .reread _ _ => s

def step (orgName : Text) (anchorPeers : List AnchorPeer) (s : AnchorPeersCall Rest) :
    ChannelTurn Rest → AnchorPeersCall Rest
  | .foreign block => { s with ledger := s.ledger.append block }
  | .ordered => s.order orgName anchorPeers
  | .resolved => s.resolve

def start (ledger : ConfigLedger Rest) : AnchorPeersCall Rest := ⟨ledger, .signed, .built⟩

def run (orgName : Text) (anchorPeers : List AnchorPeer) (ledger : ConfigLedger Rest)
    (turns : List (ChannelTurn Rest)) : AnchorPeersCall Rest :=
  turns.foldl (step orgName anchorPeers) (start ledger)

/-- The final assertion of the call, on what `getAnchorPeers` finds. -/
def AssertionHolds (orgName : Text) (anchorPeers : List AnchorPeer)
    (config : Option (ChannelConfiguration Rest)) : Prop :=
  ∃ found, config = some found ∧ found.anchor_peers orgName = some anchorPeers

/-- What the call has read back, once it has, is a configuration with its own update applied, and
the final assertion holds of it. -/
def SeesOwnUpdate (orgName : Text) (anchorPeers : List AnchorPeer) (s : AnchorPeersCall Rest) :
    Prop :=
  ∀ number config, s.phase = .reread number config →
    (∃ own, s.update = .inBlock own ∧ own ≤ number) ∧ AssertionHolds orgName anchorPeers config

/-- The update has gone into a block and the configuration in force has its anchor peers. -/
def OwnUpdateInForce (orgName : Text) (anchorPeers : List AnchorPeer) (s : AnchorPeersCall Rest) :
    Prop :=
  (∃ own, s.update = .inBlock own) ∧ s.ledger.current.anchor_peers orgName = some anchorPeers

section

variable {orgName : Text} {anchorPeers : List AnchorPeer} {s s₀ : AnchorPeersCall Rest}
  {turn : ChannelTurn Rest} {turns : List (ChannelTurn Rest)}

theorem resolve_ledger : s.resolve.ledger = s.ledger := by
  unfold resolve
  split
  all_goals first | rfl | (split <;> rfl)

theorem resolve_update {own : Nat} (h : s.resolve.update = .inBlock own) :
    s.update = .inBlock own := by
  unfold resolve at h
  split at h
  next => exact h
  next => cases h
  next => exact h
  next => split at h <;> exact h
  all_goals exact h

theorem order_phase : (s.order orgName anchorPeers).phase = s.phase := by
  unfold order
  split <;> rfl

theorem step_extends (h : s₀.ledger.Extends s.ledger) :
    s₀.ledger.Extends (s.step orgName anchorPeers turn).ledger := by
  cases turn with
  | foreign block => exact h.append block
  | ordered =>
    simp only [step, order]
    split
    next => exact h.append _
    next => exact h
  | resolved => rwa [step, resolve_ledger]

/-- The block of the update is a configuration block of the ledger. -/
def OwnBlockOnLedger (s : AnchorPeersCall Rest) : Prop :=
  ∀ own, s.update = .inBlock own → ∃ (ledger : ConfigLedger Rest)
    (config : ChannelConfiguration Rest),
    own = ledger.height + 1 ∧ (ledger.append (some config)).Extends s.ledger

theorem step_ownBlockOnLedger (h : s.OwnBlockOnLedger) :
    (s.step orgName anchorPeers turn).OwnBlockOnLedger := by
  intro own found
  cases turn with
  | foreign block =>
    obtain ⟨ledger, config, number, extended⟩ := h own found
    exact ⟨ledger, config, number, extended.append block⟩
  | ordered =>
    simp only [step, order] at found ⊢
    split at found
    next =>
      cases found
      exact ⟨s.ledger, _, rfl, ConfigLedger.Extends.refl _⟩
    next => exact h own found
  | resolved =>
    rw [step, resolve_ledger]
    exact h own (resolve_update found)

theorem run_own_le (ledger : ConfigLedger Rest) {own : Nat}
    (found : (run orgName anchorPeers ledger turns).update = .inBlock own) :
    own ≤ (run orgName anchorPeers ledger turns).ledger.extractLastConfigIndex := by
  have invariant : (run orgName anchorPeers ledger turns).OwnBlockOnLedger :=
    StepRun.foldl_keeps (fun _ _ => step_ownBlockOnLedger) (fun _ h => by cases h) turns
  obtain ⟨before, config, rfl, extended⟩ := invariant own found
  exact ConfigLedger.le_extractLastConfigIndex_append config extended

/-- What holds from the fetch of the newest block on, made in the state `s₀`. -/
structure FetchedAt (s₀ s : AnchorPeersCall Rest) : Prop where
  ledger : s₀.ledger.Extends s.ledger
  kept : ∀ own, s₀.update = .inBlock own → s.update = .inBlock own
  later : ∀ own, s.update = .inBlock own → s₀.update = .inBlock own ∨ s₀.ledger.height < own
  phase : s.phase = .newestRead s₀.ledger.extractLastConfigIndex ∨
    s.phase = .reread s₀.ledger.extractLastConfigIndex (some s₀.ledger.current)

theorem resolve_fetchedAt (h : s.phase = .finalitySeen) : FetchedAt s s.resolve where
  ledger := by simp only [resolve, h, ConfigLedger.Extends.refl]
  kept own found := by simpa only [resolve, h] using found
  later own found := Or.inl (resolve_update found)
  phase := by simp only [resolve, h, true_or]

/-- The last configuration block of the ledger is the same one, whatever is appended. -/
theorem FetchedAt.config (h : FetchedAt s₀ s) :
    s.ledger.configAt s₀.ledger.extractLastConfigIndex = some s₀.ledger.current := by
  rw [h.ledger.configAt (ConfigLedger.extractLastConfigIndex_le s₀.ledger)]
  exact ConfigLedger.configAt_extractLastConfigIndex s₀.ledger

theorem step_fetchedAt (h : FetchedAt s₀ s) :
    FetchedAt s₀ (s.step orgName anchorPeers turn) := by
  refine ⟨step_extends h.ledger, ?_, ?_, ?_⟩
  · intro own found
    have now := h.kept own found
    cases turn with
    | foreign block => exact now
    | ordered => simp only [step, order, now]
    | resolved => rcases h.phase with phase | phase <;> simpa only [step, resolve, phase] using now
  · intro own found
    cases turn with
    | foreign block => exact h.later own found
    | ordered =>
      simp only [step, order] at found
      split at found
      next =>
        cases found
        exact Or.inr (Nat.lt_succ_of_le h.ledger.height_le)
      next => exact h.later own found
    | resolved => exact h.later own (resolve_update found)
  · cases turn with
    | foreign block => exact h.phase
    | ordered =>
      rw [step, order_phase]
      exact h.phase
    | resolved =>
      right
      rcases h.phase with phase | phase
      · simp only [step, resolve, phase, h.config]
      · simp only [step, resolve, phase]

theorem foldl_fetchedAt (h : FetchedAt s₀ s) (turns : List (ChannelTurn Rest)) :
    FetchedAt s₀ (turns.foldl (step orgName anchorPeers) s) :=
  StepRun.foldl_keeps (fun _ _ => step_fetchedAt) h turns

theorem step_reread {number : Nat} {config : Option (ChannelConfiguration Rest)}
    (h : s.phase = .reread number config) :
    (s.step orgName anchorPeers turn).phase = .reread number config := by
  cases turn with
  | foreign block => exact h
  | ordered => rw [step, order_phase, h]
  | resolved => simp only [step, resolve, h]

/-- Once the newest block is fetched, the next promise that resolves gives the configuration that
was in force then. -/
theorem FetchedAt.reread (h : FetchedAt s₀ s) (fetched : ChannelTurn.resolved ∈ turns) :
    (turns.foldl (step orgName anchorPeers) s).phase =
      .reread s₀.ledger.extractLastConfigIndex (some s₀.ledger.current) := by
  obtain ⟨before, after, rfl⟩ := List.append_of_mem fetched
  rw [List.foldl_append, List.foldl_cons]
  have now : FetchedAt s₀ (before.foldl (step orgName anchorPeers) s) := foldl_fetchedAt h before
  have reread : ((before.foldl (step orgName anchorPeers) s).step orgName anchorPeers
      .resolved).phase = .reread s₀.ledger.extractLastConfigIndex (some s₀.ledger.current) := by
    rcases now.phase with phase | phase
    · simp only [step, resolve, phase, now.config]
    · simp only [step, resolve, phase]
  have kept : ∀ (t : AnchorPeersCall Rest) (turn : ChannelTurn Rest),
      t.phase = .reread s₀.ledger.extractLastConfigIndex (some s₀.ledger.current) →
      (t.step orgName anchorPeers turn).phase =
        .reread s₀.ledger.extractLastConfigIndex (some s₀.ledger.current) :=
    fun _ _ => step_reread
  exact StepRun.foldl_keeps kept reread after

theorem step_newestRead {number : Nat}
    (h : (s.step orgName anchorPeers turn).phase = .newestRead number) :
    s.phase = .newestRead number ∨ s.phase = .finalitySeen ∧ turn = .resolved := by
  cases turn with
  | foreign block => exact Or.inl h
  | ordered =>
    rw [step, order_phase] at h
    exact Or.inl h
  | resolved =>
    cases phase : s.phase with
    | finalitySeen => exact Or.inr ⟨rfl, rfl⟩
    | accepted beforeHeight =>
      simp only [step, resolve, phase] at h
      split at h <;> simp_all
    | _ => simp [step, resolve, phase] at h

theorem step_reread_cases {number : Nat} {config : Option (ChannelConfiguration Rest)}
    (h : (s.step orgName anchorPeers turn).phase = .reread number config) :
    s.phase = .reread number config ∨
      (∃ read, s.phase = .newestRead read) ∧ turn = .resolved := by
  cases turn with
  | foreign block => exact Or.inl h
  | ordered =>
    rw [step, order_phase] at h
    exact Or.inl h
  | resolved =>
    cases phase : s.phase with
    | newestRead read => exact Or.inr ⟨⟨read, rfl⟩, rfl⟩
    | reread number' config' =>
      simp only [step, resolve, phase] at h
      exact Or.inl h
    | accepted beforeHeight =>
      simp only [step, resolve, phase] at h
      split at h <;> simp_all
    | _ => simp [step, resolve, phase] at h

/-- A phase behind the fetch of the newest block tells when that fetch was made. -/
theorem newestRead_fetched {ledger : ConfigLedger Rest} {number : Nat}
    (h : (run orgName anchorPeers ledger turns).phase = .newestRead number) :
    ∃ before after, turns = before ++ .resolved :: after ∧
      (run orgName anchorPeers ledger before).phase = .finalitySeen := by
  have fetched := StepRun.foldl_raised
    (I := fun s : AnchorPeersCall Rest => s.phase = .newestRead number)
    (fun s turn => step_newestRead) h
  rcases fetched with first | ⟨before, turn, after, eq, seen, rfl⟩
  · cases first
  · exact ⟨before, after, eq, seen⟩

theorem reread_fetched {ledger : ConfigLedger Rest} {number : Nat}
    {config : Option (ChannelConfiguration Rest)}
    (h : (run orgName anchorPeers ledger turns).phase = .reread number config) :
    ∃ before after, turns = before ++ .resolved :: after ∧
      (run orgName anchorPeers ledger before).phase = .finalitySeen ∧ .resolved ∈ after := by
  have fetched := StepRun.foldl_raised
    (I := fun s : AnchorPeersCall Rest => s.phase = .reread number config)
    (fun s turn => step_reread_cases) h
  rcases fetched with first | ⟨early, turn, late, rfl, ⟨read, phase⟩, rfl⟩
  · cases first
  · obtain ⟨before, after, rfl, seen⟩ := newestRead_fetched phase
    exact ⟨before, after ++ .resolved :: late, by simp, seen, by simp⟩

theorem run_split (ledger : ConfigLedger Rest) (before after : List (ChannelTurn Rest)) :
    run orgName anchorPeers ledger (before ++ .resolved :: after) =
      after.foldl (step orgName anchorPeers) (run orgName anchorPeers ledger before).resolve := by
  rw [run, List.foldl_append, List.foldl_cons]
  rfl

theorem run_reread {ledger : ConfigLedger Rest} {before after : List (ChannelTurn Rest)}
    (seen : (run orgName anchorPeers ledger before).phase = .finalitySeen)
    (fetched : ChannelTurn.resolved ∈ after) :
    (run orgName anchorPeers ledger (before ++ .resolved :: after)).phase =
      .reread (run orgName anchorPeers ledger before).ledger.extractLastConfigIndex
        (some (run orgName anchorPeers ledger before).ledger.current) := by
  rw [run_split]
  exact (resolve_fetchedAt seen).reread fetched

end

end AnchorPeersCall

open AnchorPeersCall

/-- Whenever the call has read the configuration back, its own update is applied there and the
assertion holds, exactly when at the fetch of the newest block, if the second fetch is made too,
the update was in a block and the configuration in force had its anchor peers. -/
theorem setAnchorPeers_sees_own_update_iff {Rest : Type} (orgName : Text)
    (anchorPeers : List AnchorPeer) (ledger : ConfigLedger Rest)
    (turns : List (ChannelTurn Rest)) :
    SeesOwnUpdate orgName anchorPeers (run orgName anchorPeers ledger turns) ↔
      ∀ before after, turns = before ++ .resolved :: after →
        (run orgName anchorPeers ledger before).phase = .finalitySeen → .resolved ∈ after →
        OwnUpdateInForce orgName anchorPeers (run orgName anchorPeers ledger before) := by
  constructor
  · intro h before after split seen fetched
    have fetch := resolve_fetchedAt seen
    have phase := run_reread seen fetched
    rw [← split] at phase
    obtain ⟨⟨own, inBlock, bound⟩, found, same, peers⟩ := h _ _ phase
    cases same
    refine ⟨?_, peers⟩
    rw [split, run_split] at inBlock
    rcases (foldl_fetchedAt fetch after).later own inBlock with earlier | later
    · exact ⟨own, earlier⟩
    · have old := ConfigLedger.extractLastConfigIndex_le
        (run orgName anchorPeers ledger before).ledger
      omega
  · intro h number config phase
    obtain ⟨before, after, rfl, seen, fetched⟩ := reread_fetched phase
    obtain ⟨⟨own, inBlock⟩, peers⟩ := h before after rfl seen fetched
    have fetch := resolve_fetchedAt seen
    have final := run_reread seen fetched
    rw [phase] at final
    cases final
    refine ⟨⟨own, ?_, run_own_le ledger inBlock⟩, _, rfl, peers⟩
    rw [run_split]
    exact (foldl_fetchedAt fetch after).kept own inBlock

/-- One foreign block is enough: the update is ordered, and takes effect, after the call has read
the old configuration back. -/
theorem setAnchorPeers_rereads_stale_config :
    let turns : List (ChannelTurn Unit) := [.resolved, .resolved, .resolved, .foreign none,
      .resolved, .resolved, .resolved, .ordered]
    let s := run ['A'] [⟨['p'], 7051⟩] ⟨⟨fun _ => none, ()⟩, []⟩ turns
    s.ledger.current.anchor_peers ['A'] = some [⟨['p'], 7051⟩] ∧
      ¬ SeesOwnUpdate ['A'] [⟨['p'], 7051⟩] s := by
  intro turns s
  refine ⟨rfl, fun h => ?_⟩
  obtain ⟨_, found, same, peers⟩ := h 0 (some ⟨fun _ => none, ()⟩) rfl
  cases same
  cases peers

end FabricCommon
