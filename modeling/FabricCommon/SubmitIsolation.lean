import FabricCommon.SubmitInvariant

namespace FabricCommon

open SubmitCall

section

variable {TxId : Type} [DecidableEq TxId]

/-- No other call builds its proposal until call `i` has sent its commit, and none is endorsed
between the endorsement of call `i` and its commit. -/
def CommitUndisturbed (i : Nat) (s : SubmitState TxId) (e : SubmitEvent TxId) : Prop :=
  e.call ≠ i → ¬ (e.action.Builds ∧ (s.calls i).BeforeCommit) ∧
    ¬ (e.action.Endorses ∧ (s.calls i).phase = .endorsed)

/-- No other call builds its proposal until call `i` has read its transaction id. -/
def ListenUndisturbed (i : Nat) (s : SubmitState TxId) (e : SubmitEvent TxId) : Prop :=
  e.call ≠ i → ¬ (e.action.Builds ∧ (s.calls i).BeforeListen)

instance (i : Nat) (s : SubmitState TxId) (e : SubmitEvent TxId) :
    Decidable (CommitUndisturbed i s e) := inferInstanceAs (Decidable (_ → _))

instance (i : Nat) (s : SubmitState TxId) (e : SubmitEvent TxId) :
    Decidable (ListenUndisturbed i s e) := inferInstanceAs (Decidable (_ → _))

variable {i : Nat} {s : SubmitState TxId} {e : SubmitEvent TxId}

theorem step_own (h : e.call = i) :
    (s.step e).shared = ((s.calls i).advance s.shared e.action).1 ∧
      (s.step e).calls i = ((s.calls i).advance s.shared e.action).2 := by
  subst h
  simp [SubmitState.step]

theorem step_other (h : e.call ≠ i) :
    (s.step e).shared = ((s.calls e.call).advance s.shared e.action).1 ∧
      (s.step e).calls i = s.calls i := by
  simp [SubmitState.step, Function.update_of_ne (Ne.symm h)]

theorem step_commitInvariant (h : CommitInvariant s.shared (s.calls i))
    (undisturbed : CommitUndisturbed i s e) :
    CommitInvariant (s.step e).shared ((s.step e).calls i) := by
  by_cases own : e.call = i
  · obtain ⟨shared, call⟩ := step_own (s := s) own
    rw [shared, call]
    exact advance_commitInvariant h e.action
  · obtain ⟨shared, call⟩ := step_other (s := s) own
    obtain ⟨unbuilt, unstored⟩ := undisturbed own
    rw [shared, call]
    rcases advance_shared s.shared (s.calls e.call) e.action with
      same | builds | ⟨endorses, responses, stored⟩
    · rw [same]
      exact h
    · have later : ¬ (s.calls i).BeforeCommit := fun before => unbuilt ⟨builds, before⟩
      refine ⟨h.built, fun before => absurd before later, fun endorsed => ?_, h.unsent, h.sent⟩
      exact absurd (Or.inr endorsed) later
    · rw [stored]
      refine ⟨h.built, h.action, fun endorsed => ?_, h.unsent, h.sent⟩
      exact absurd ⟨endorses, endorsed⟩ unstored

theorem step_listenInvariant (h : ListenInvariant s.shared (s.calls i))
    (undisturbed : ListenUndisturbed i s e) :
    ListenInvariant (s.step e).shared ((s.step e).calls i) := by
  by_cases own : e.call = i
  · obtain ⟨shared, call⟩ := step_own (s := s) own
    rw [shared, call]
    exact advance_listenInvariant h e.action
  · obtain ⟨shared, call⟩ := step_other (s := s) own
    have unbuilt := undisturbed own
    rw [shared, call]
    rcases advance_shared s.shared (s.calls e.call) e.action with
      same | builds | ⟨endorses, responses, stored⟩
    · rw [same]
      exact h
    · exact ⟨fun before => absurd ⟨builds, before⟩ unbuilt, h.unheard, h.awaits, h.resolves⟩
    · rw [stored]
      exact ⟨h.id, h.unheard, h.awaits, h.resolves⟩

end

open SubmitState

theorem submit_isolated {TxId : Type} [DecidableEq TxId] (i : Nat)
    (es : List (SubmitEvent TxId)) :
    (StepRun.EachStep step (CommitUndisturbed i) initial es →
      ((run es).calls i).BroadcastsOwn) ∧
    (StepRun.EachStep step (ListenUndisturbed i) initial es →
      ((run es).calls i).AwaitsOwn ∧ ((run es).calls i).ResolvesOwn) := by
  constructor
  · intro undisturbed
    have kept := undisturbed.keeps (I := fun s => CommitInvariant s.shared (s.calls i))
      (fun _ _ h quiet => step_commitInvariant h quiet) (unstarted_commitInvariant _)
    exact kept.sent
  · intro undisturbed
    have kept := undisturbed.keeps (I := fun s => ListenInvariant s.shared (s.calls i))
      (fun _ _ h quiet => step_listenInvariant h quiet) (unstarted_listenInvariant _)
    exact ⟨kept.awaits, kept.resolves⟩

def sampleRequest (fcn : String) : SubmitRequest := ⟨fcn, [], none, false⟩

def samplePeer (message : String) : ProposalResponse :=
  ⟨[], [⟨⟨200, message, []⟩, "peer0"⟩]⟩

/-- Call 1 starts when call 0 already waits for its transaction. -/
def separateCalls : List (SubmitEvent Nat) :=
  [⟨0, .propose (sampleRequest "put") 10⟩, ⟨0, .endorse (samplePeer "put")⟩, ⟨0, .commit⟩,
   ⟨0, .answer ⟨"SUCCESS", ""⟩⟩, ⟨0, .listen⟩, ⟨1, .propose (sampleRequest "get") 11⟩,
   ⟨1, .endorse (samplePeer "get")⟩, ⟨0, .report (.ok ⟨5, 10, "VALID"⟩)⟩, ⟨1, .commit⟩]

theorem submit_isolated_separate :
    ((run separateCalls).calls 0).phase = .resolved ∧
      ((run separateCalls).calls 0).Isolated ∧ ((run separateCalls).calls 1).BroadcastsOwn := by
  have first := submit_isolated 0 separateCalls
  have second := submit_isolated 1 separateCalls
  exact ⟨by decide, ⟨first.1 (by decide), first.2 (by decide)⟩, second.1 (by decide)⟩

/-- Call 1 builds its proposal while the peers still answer call 0. -/
def overlappingCalls : List (SubmitEvent Nat) :=
  [⟨0, .propose (sampleRequest "put") 10⟩, ⟨1, .propose (sampleRequest "get") 11⟩,
   ⟨0, .endorse (samplePeer "put")⟩, ⟨0, .commit⟩]

theorem submit_broadcasts_foreign_action :
    ((run overlappingCalls).calls 0).broadcast =
        some ⟨some ⟨11, sampleRequest "get"⟩, (samplePeer "put").responses⟩ ∧
      ¬ ((run overlappingCalls).calls 0).Isolated := by
  have sent : ((run overlappingCalls).calls 0).broadcast =
      some ⟨some ⟨11, sampleRequest "get"⟩, (samplePeer "put").responses⟩ := by decide
  refine ⟨sent, fun isolated => ?_⟩
  have own := (isolated.1 _ sent).1
  exact absurd own (by decide)

end FabricCommon
