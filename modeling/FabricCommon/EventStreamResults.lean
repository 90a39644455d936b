import FabricCommon.EventStreamErrors

namespace FabricCommon

open ListenerRun EventHubQuery

section

variable {Local Event Value TxId : Type}

/-- The events `es` leave the listener registered and the caller waiting, and an error that comes
next is the answer for good. -/
structure Waiting (l : Listener Local String Event (Rejection TxId) Value) (es : List Event) :
    Prop where
  registered : (l.run (es.map .ok)).registered = true
  pending : (l.run (es.map .ok)).promise = .pending
  silent : (l.run (es.map .ok)).trace = []
  rejects : ∀ err rest, (l.run (es.map .ok ++ .error err :: rest)).promise = .rejected (.event err)

/-- The last of the events `es` unregisters the listener and then resolves with `value`, and
nothing happens after that. -/
def Resolves (l : Listener Local String Event (Rejection TxId) Value) (es : List Event)
    (value : Value) : Prop :=
  ∀ rest, (l.run (es.map .ok ++ rest)).promise = .resolved value ∧
    (l.run (es.map .ok ++ rest)).trace = [.unregister, .resolve value]

theorem waiting_of_run {l : Listener Local String Event (Rejection TxId) Value} {es : List Event}
    {locals : Local} (run : l.run (es.map .ok) = ⟨true, locals, .pending, []⟩)
    (answers : ∀ err, (l.callback locals (.error err)).2 = [.reject (.event err)] ∨
      (l.callback locals (.error err)).2 = [.unregister, .reject (.event err)]) :
    Waiting l es where
  registered := by rw [run]
  pending := by rw [run]
  silent := by rw [run]
  rejects err rest := by
    have rejected := notify_error (l := l) (s := ⟨true, locals, .pending, []⟩) rfl rfl (answers err)
    rw [Listener.run_append, run, List.foldl_cons, foldl_settled (by simp [rejected]), rejected]

theorem resolves_of_run {l : Listener Local String Event (Rejection TxId) Value} {es : List Event}
    {locals : Local} {value : Value}
    (run : l.run (es.map .ok) = ⟨false, locals, .resolved value, [.unregister, .resolve value]⟩) :
    Resolves l es value := by
  intro rest
  rw [Listener.run_append, run, foldl_unregistered rfl]
  exact ⟨rfl, rfl⟩

theorem run_map_concat (l : Listener Local String Event (Rejection TxId) Value) (es : List Event)
    (e : Event) : l.run ((es ++ [e]).map .ok) = l.notify (l.run (es.map .ok)) (.ok e) := by
  rw [List.map_append, List.map_singleton, Listener.run_concat]

end

section

variable {Data TxId : Type} {bs : List (HubBlock Data)} {es : List (TxEvent TxId)}

theorem waitForBlocks_run {k : Nat} (h : bs.length ≤ k) :
    (waitForBlocks k : BlockListener (List (HubBlock Data)) Data TxId).run (bs.map .ok) =
      ⟨true, bs, .pending, []⟩ := by
  induction bs using List.reverseRecOn with
  | nil => rfl
  | append_singleton bs b ih =>
    rw [List.length_append, List.length_singleton] at h
    rw [run_map_concat, ih (by omega)]
    simp [Listener.notify, waitForBlocks, show bs.length < k by omega]

theorem waitForBlocks_last {b : HubBlock Data} :
    (waitForBlocks bs.length : BlockListener (List (HubBlock Data)) Data TxId).run
      ((bs ++ [b]).map .ok) = ⟨false, bs, .resolved b, [.unregister, .resolve b]⟩ := by
  rw [run_map_concat, waitForBlocks_run (Nat.le_refl _)]
  simp [Listener.notify, waitForBlocks, State.perform, State.record, State.settle]

theorem waitUntilBlock_run {t : Nat} (h : ∀ b ∈ bs, b.number ≠ t) :
    (waitUntilBlockListener t : BlockListener Unit Data TxId).run (bs.map .ok) =
      ⟨true, (), .pending, []⟩ := by
  induction bs using List.reverseRecOn with
  | nil => rfl
  | append_singleton bs b ih =>
    have other : b.number ≠ t := h b (by simp)
    rw [run_map_concat, ih fun b' hb => h b' (List.mem_append_left _ hb)]
    simp [Listener.notify, waitUntilBlockListener, other]

theorem waitUntilBlock_last {b : HubBlock Data} (h : ∀ b' ∈ bs, b'.number ≠ b.number) :
    (waitUntilBlockListener b.number : BlockListener Unit Data TxId).run ((bs ++ [b]).map .ok) =
      ⟨false, (), .resolved b, [.unregister, .resolve b]⟩ := by
  rw [run_map_concat, waitUntilBlock_run h]
  simp [Listener.notify, waitUntilBlockListener, State.perform, State.record, State.settle]

theorem replayTx_run {m : Nat} (h : es.length < m) :
    (replayTx m).run (es.map .ok) = ⟨true, es, .pending, []⟩ := by
  induction es using List.reverseRecOn with
  | nil => rfl
  | append_singleton es e ih =>
    rw [List.length_append, List.length_singleton] at h
    rw [run_map_concat, ih (by omega)]
    simp [Listener.notify, replayTx, show ¬ m ≤ es.length + 1 by omega]

theorem replayTx_last {e : TxEvent TxId} :
    (replayTx (es.length + 1)).run ((es ++ [e]).map .ok) =
      ⟨false, es ++ [e], .resolved (es ++ [e]), [.unregister, .resolve (es ++ [e])]⟩ := by
  rw [run_map_concat, replayTx_run (Nat.lt_succ_self _)]
  simp [Listener.notify, replayTx, State.perform, State.record, State.settle]

/-- The numbers of the blocks count on from `h`. -/
def CountsFrom (h : Nat) (bs : List (HubBlock Data)) : Prop :=
  ∀ i b, bs[i]? = some b → b.number = h + i

theorem waitForBlocks_exact {h k : Nat} (consecutive : CountsFrom h bs) :
    (bs.length ≤ k →
      Waiting (waitForBlocks k : BlockListener (List (HubBlock Data)) Data TxId) bs) ∧
      (bs.length = k + 1 → ∃ b, bs.getLast? = some b ∧ b.number = h + k ∧
        Resolves (waitForBlocks k : BlockListener (List (HubBlock Data)) Data TxId) bs b) := by
  constructor
  · intro short
    exact waiting_of_run (waitForBlocks_run short) fun err => Or.inl rfl
  · intro full
    obtain ⟨before, b, rfl⟩ := List.eq_nil_or_concat' bs |>.resolve_left (by
      intro empty
      simp [empty] at full)
    have length : before.length = k := by simpa using full
    subst length
    have last : (before ++ [b])[before.length]? = some b := by simp
    exact ⟨b, by simp, consecutive _ b last, resolves_of_run waitForBlocks_last⟩

theorem waitUntilBlock_exact {t : Nat} (other : ∀ b ∈ bs, b.number ≠ t) :
    Waiting (waitUntilBlockListener t : BlockListener Unit Data TxId) bs ∧
      ∀ b : HubBlock Data, b.number = t →
        Resolves (waitUntilBlockListener t : BlockListener Unit Data TxId) (bs ++ [b]) b := by
  refine ⟨waiting_of_run (waitUntilBlock_run other) fun err => Or.inl rfl, ?_⟩
  intro b number
  subst number
  exact resolves_of_run (waitUntilBlock_last other)

theorem replayTx_exact {m : Nat} (positive : 1 ≤ m) :
    (es.length < m → Waiting (replayTx m) es) ∧ (es.length = m → Resolves (replayTx m) es es) := by
  constructor
  · intro short
    exact waiting_of_run (replayTx_run short) fun err => Or.inr rfl
  · intro full
    obtain ⟨before, e, rfl⟩ := List.eq_nil_or_concat' es |>.resolve_left (by
      intro empty
      simp [empty] at full
      omega)
    rw [← full, List.length_append]
    exact resolves_of_run replayTx_last

end

/-- The three waiting operations resolve with exactly the events they stand for, each after it has
unregistered its listener once, and until then an error is their answer. -/
theorem hub_queries_return_exactly {Data TxId : Type} :
    (∀ (k h : Nat) (bs : List (HubBlock Data)), CountsFrom h bs →
      (bs.length ≤ k →
        Waiting (waitForBlocks k : BlockListener (List (HubBlock Data)) Data TxId) bs) ∧
        (bs.length = k + 1 → ∃ b, bs.getLast? = some b ∧ b.number = h + k ∧
          Resolves (waitForBlocks k : BlockListener (List (HubBlock Data)) Data TxId) bs b)) ∧
      (∀ (t : Nat) (bs : List (HubBlock Data)), (∀ b ∈ bs, b.number ≠ t) →
        Waiting (waitUntilBlockListener t : BlockListener Unit Data TxId) bs ∧
          ∀ b : HubBlock Data, b.number = t →
            Resolves (waitUntilBlockListener t : BlockListener Unit Data TxId) (bs ++ [b]) b) ∧
      ∀ (m : Nat) (es : List (TxEvent TxId)), 1 ≤ m →
        (es.length < m → Waiting (replayTx m) es) ∧
          (es.length = m → Resolves (replayTx m) es es) :=
  ⟨fun _ _ _ consecutive => waitForBlocks_exact consecutive,
    fun _ _ other => waitUntilBlock_exact other, fun _ _ positive => replayTx_exact positive⟩

/-- The three operations on a stream of blocks, and of transactions, from number 7 on. -/
theorem hub_queries_return_on_stream :
    (∃ b : HubBlock Unit, b.number = 8 ∧
      Resolves (waitForBlocks 1 : BlockListener (List (HubBlock Unit)) Unit Nat)
        [⟨7, ()⟩, ⟨8, ()⟩] b) ∧
      (Waiting (waitUntilBlockListener 9 : BlockListener Unit Unit Nat) [⟨7, ()⟩, ⟨8, ()⟩] ∧
        Resolves (waitUntilBlockListener 9 : BlockListener Unit Unit Nat)
          [⟨7, ()⟩, ⟨8, ()⟩, ⟨9, ()⟩] ⟨9, ()⟩) ∧
      Waiting (replayTx 2) [(⟨7, 5, "VALID"⟩ : TxEvent Nat)] ∧
      Resolves (replayTx 2) [(⟨7, 5, "VALID"⟩ : TxEvent Nat), ⟨8, 6, "MVCC_READ_CONFLICT"⟩]
        [⟨7, 5, "VALID"⟩, ⟨8, 6, "MVCC_READ_CONFLICT"⟩] := by
  obtain ⟨blocks, awaited, txs⟩ := @hub_queries_return_exactly Unit Nat
  have consecutive : CountsFrom 7 [(⟨7, ()⟩ : HubBlock Unit), ⟨8, ()⟩] := by
    intro i b hb
    obtain ⟨hi, rfl⟩ := List.getElem?_eq_some_iff.mp hb
    match i, hi with
    | 0, _ => rfl
    | 1, _ => rfl
  have others : ∀ b ∈ [(⟨7, ()⟩ : HubBlock Unit), ⟨8, ()⟩], b.number ≠ 9 := by decide
  obtain ⟨b, _, number, resolves⟩ := (blocks 1 7 _ consecutive).2 rfl
  obtain ⟨waits, reaches⟩ := awaited 9 _ others
  exact ⟨⟨b, number, resolves⟩, ⟨waits, reaches ⟨9, ()⟩ rfl⟩, (txs 2 _ (by decide)).1 (by decide),
    (txs 2 _ (by decide)).2 rfl⟩

end FabricCommon
