import FabricCommon.OrdererDeliver

namespace FabricCommon

open DeliverState

namespace DeliverEvent

variable {Block : Type}

/-- A settlement by the event, in a call whose earlier events are `before`. The timer runs until the
stream ends, so a timeout reported later than that is no event of the call. -/
def Decides (before : List (DeliverEvent Block)) (e : DeliverEvent Block) : Prop :=
  e.Deciding ∧ (e = .timeout → .streamEnd ∉ before)

/-- The outcome that the event stands for. -/
def verdict : DeliverEvent Block → DeliverPromise
  | .data (.block _) => .pending
  | .data (.status code) =>
    if code = .name "SUCCESS" ∨ code = .code 200 then .resolved
    else .rejected (.invalidStatus code)
  | .data (.other _) => .rejected .systemError
  | .status _ => .pending
  | .streamEnd => .pending
  | .error code message =>
    .rejected (.stream code (if code = 14 then "SERVICE_UNAVAILABLE" else message))
  | .timeout => .rejected (.timeout "REQUEST_TIMEOUT")

def block? : DeliverEvent Block → Option Block
  | .data (.block block) => some block
  | _ => none

def IsData (e : DeliverEvent Block) : Prop := ∃ response, e = .data response

end DeliverEvent

/-- The server sends nothing after a status response. -/
def SilentAfterStatus {Block : Type} (es : List (DeliverEvent Block)) : Prop :=
  ∀ before e after, es = before ++ e :: after → e.IsStatus → ∀ e' ∈ after, ¬ e'.IsData

namespace DeliverState

section

variable {Block : Type} {s : DeliverState Block} {e : DeliverEvent Block}

theorem step_responses : (s.step e).responses = s.responses ++ e.block?.toList := by
  cases e with
  | data response =>
    cases response with
    | block block => rfl
    | status status =>
      simp only [step, onData, DeliverEvent.block?, Option.toList_none, List.append_nil]
      split <;> rfl
    | other kind => simp [step, onData, settle, endStream, DeliverEvent.block?]
  | timeout =>
    simp only [step, onTimeout, DeliverEvent.block?, Option.toList_none, List.append_nil]
    split <;> rfl
  | _ => simp [step, onEnd, onError, settle, endStream, DeliverEvent.block?]

theorem step_error_msg : (s.step e).error_msg = s.error_msg := by
  cases e with
  | data response =>
    cases response with
    | block block => rfl
    | status status =>
      simp only [step, onData]
      split <;> rfl
    | other kind => rfl
  | timeout =>
    simp only [step, onTimeout]
    split <;> rfl
  | _ => rfl

theorem step_disarmed (h : s.timer ≠ .armed) : (s.step e).timer ≠ .armed := by
  by_cases same : (s.step e).timer = s.timer
  · rwa [same]
  · rcases step_timer same with ⟨_, cleared⟩ | ⟨_, armed, _⟩
    · simp [cleared]
    · exact absurd armed h

/-- A pending promise takes the verdict of an event that decides while the timer is running. -/
theorem step_verdict (pending : s.promise = .pending) (message : s.error_msg = "REQUEST_TIMEOUT")
    (h : e.Deciding) (running : e = .timeout → s.timer = .armed) :
    (s.step e).promise = e.verdict := by
  have ended : s.endStream.promise = .pending := pending
  cases e with
  | data response =>
    cases response with
    | block block => exact h.elim
    | status status =>
      simp only [step, onData, DeliverEvent.verdict]
      split <;> exact settle_pending ended
    | other kind => exact settle_pending ended
  | status metadata => exact h.elim
  | streamEnd => exact h.elim
  | error code message => exact settle_pending ended
  | timeout =>
    simp only [step, onTimeout, running rfl, settle_pending ended, message]
    rfl

theorem step_idle_timeout (h : s.timer ≠ .armed) : (s.step .timeout).promise = s.promise := by
  simp only [step, onTimeout]

end

section

variable {Block : Type} {es before after : List (DeliverEvent Block)} {e : DeliverEvent Block}

/-- The response list is the blocks that arrived, whatever else did. -/
theorem run_responses (es : List (DeliverEvent Block)) :
    (run es).responses = es.filterMap DeliverEvent.block? := by
  induction es using List.reverseRecOn with
  | nil => rfl
  | append_singleton es e ih =>
    rw [run_append, List.foldl_cons, List.foldl_nil, step_responses, ih, List.filterMap_append]
    cases found : e.block? with
    | none => simp [found]
    | some block => simp [found]

theorem run_error_msg (es : List (DeliverEvent Block)) :
    (run es).error_msg = "REQUEST_TIMEOUT" := by
  have kept : ∀ s : DeliverState Block, ∀ e, s.error_msg = "REQUEST_TIMEOUT" →
      (s.step e).error_msg = "REQUEST_TIMEOUT" := fun s e h => step_error_msg.trans h
  exact StepRun.foldl_keeps kept rfl es

theorem run_disarmed (h : DeliverEvent.streamEnd ∈ es) : (run es).timer ≠ .armed := by
  obtain ⟨before, after, rfl⟩ := List.append_of_mem h
  rw [run_append, List.foldl_cons]
  have ended : ((run before).step .streamEnd).timer ≠ .armed := by simp [step, onEnd]
  have kept : ∀ s : DeliverState Block, ∀ e, s.timer ≠ .armed → (s.step e).timer ≠ .armed :=
    fun s e h => step_disarmed h
  exact StepRun.foldl_keeps kept ended after

/-- While nothing has decided, the promise is pending. -/
theorem run_pending (h : StepRun.EachAfter (fun before e => ¬ e.Decides before) es) :
    (run es).promise = .pending := by
  induction es using List.reverseRecOn with
  | nil => rfl
  | append_singleton es e ih =>
    obtain ⟨before, last⟩ := StepRun.eachAfter_concat.mp h
    have earlier := ih before
    rw [run_append, List.foldl_cons, List.foldl_nil]
    by_cases hd : e.Deciding
    · have ended : e = .timeout ∧ .streamEnd ∈ es := by
        by_contra running
        exact last ⟨hd, fun ht he => running ⟨ht, he⟩⟩
      rw [ended.1, step_idle_timeout (run_disarmed ended.2), earlier]
    · rw [step_undecided hd, earlier]

theorem run_decides (pending : (run before).promise = .pending) (h : e.Decides before) :
    (run (before ++ [e])).promise = e.verdict := by
  rw [run_append, List.foldl_cons, List.foldl_nil]
  refine step_verdict pending (run_error_msg before) h.1 fun ht => ?_
  cases timer : (run before).timer with
  | armed => rfl
  | fired => exact absurd pending (run_firedSettled before timer)
  | cleared => exact absurd (run_cleared timer) (h.2 ht)

theorem run_settled_append (h : (run before).Settled) (after : List (DeliverEvent Block)) :
    (run (before ++ after)).promise = (run before).promise := by
  rw [run_append]
  have kept : ∀ s : DeliverState Block, ∀ e, s.promise = (run before).promise →
      (s.step e).promise = (run before).promise := by
    intro s e same
    have settled : s.Settled := fun pending => h (same ▸ pending)
    rw [step_settled settled, same]
  exact StepRun.foldl_keeps kept rfl after

end

end DeliverState

theorem verdict_ne_pending {Block : Type} {e : DeliverEvent Block} (h : e.Deciding) :
    e.verdict ≠ .pending := by
  cases e with
  | data response =>
    cases response with
    | block block => exact h.elim
    | status status =>
      simp only [DeliverEvent.verdict]
      split <;> simp
    | other kind => simp [DeliverEvent.verdict]
  | status metadata => exact h.elim
  | streamEnd => exact h.elim
  | error code message => simp [DeliverEvent.verdict]
  | timeout => simp [DeliverEvent.verdict]

theorem isStatus_of_verdict {Block : Type} {e : DeliverEvent Block} (h : e.verdict = .resolved) :
    e.IsStatus := by
  cases e with
  | data response =>
    cases response with
    | status status => exact ⟨status, rfl⟩
    | _ => simp [DeliverEvent.verdict] at h
  | _ => simp [DeliverEvent.verdict] at h

theorem block?_eq_none {Block : Type} {e : DeliverEvent Block} (h : ¬ e.IsData) :
    e.block? = none := by
  cases e with
  | data response => exact absurd ⟨response, rfl⟩ h
  | _ => rfl

/-- The first deciding event fixes the outcome, now and after whatever follows, and a resolved list
is the blocks that came before it; until then the promise is pending. -/
theorem sendDeliver_first_deciding_event {Block : Type} {es : List (DeliverEvent Block)}
    (silent : SilentAfterStatus es) :
    (∀ before e after, es = before ++ e :: after → e.Decides before →
      StepRun.EachAfter (fun earlier e' => ¬ e'.Decides earlier) before →
      (run before).promise = .pending ∧
        ∀ later, later <+: after →
          (run (before ++ e :: later)).promise = e.verdict ∧ e.verdict ≠ .pending ∧
          (e.verdict = .resolved →
            (run (before ++ e :: later)).responses = before.filterMap DeliverEvent.block?)) ∧
      (StepRun.EachAfter (fun before e => ¬ e.Decides before) es →
        (run es).promise = .pending) := by
  refine ⟨?_, run_pending⟩
  intro before e after split decides first
  have pending := run_pending first
  have verdict := run_decides pending decides
  have final := verdict_ne_pending decides.1
  refine ⟨pending, fun later reached => ?_⟩
  have cut : before ++ e :: later = (before ++ [e]) ++ later := by simp
  have settled : (run (before ++ [e])).Settled := by rwa [Settled, verdict]
  refine ⟨by rw [cut, run_settled_append settled, verdict], final, fun resolved => ?_⟩
  have status := isStatus_of_verdict resolved
  have blockless : e.block? = none := by
    obtain ⟨_, rfl⟩ := status
    rfl
  have quiet : later.filterMap DeliverEvent.block? = [] := by
    refine List.filterMap_eq_nil_iff.mpr fun e' he => block?_eq_none ?_
    exact silent before e after split status e' (reached.subset he)
  rw [run_responses, List.filterMap_append, List.filterMap_cons_none blockless, quiet,
    List.append_nil]

theorem silentAfterStatus_cons {Block : Type} {e : DeliverEvent Block}
    {es : List (DeliverEvent Block)} (first : e.IsStatus → ∀ e' ∈ es, ¬ e'.IsData)
    (rest : SilentAfterStatus es) : SilentAfterStatus (e :: es) := by
  intro before e' after split
  cases before with
  | nil =>
    obtain ⟨rfl, rfl⟩ := List.cons.inj split
    exact first
  | cons e₀ before => exact rest before e' after (List.cons.inj split).2

/-- Two blocks, then SUCCESS; the end of the stream and a late error change nothing. -/
theorem sendDeliver_resolves_with_two_blocks :
    let es : List (DeliverEvent Nat) := [.data (.block 3), .data (.block 4),
      .data (.status (.name "SUCCESS")), .streamEnd, .error 1 "CANCELLED"]
    (run es).promise = .resolved ∧ (run es).responses = [3, 4] := by
  intro es
  have quiet : SilentAfterStatus
      ([.streamEnd, .error 1 "CANCELLED"] : List (DeliverEvent Nat)) :=
    silentAfterStatus_cons (by simp [DeliverEvent.IsStatus])
      (silentAfterStatus_cons (by simp) (by simp [SilentAfterStatus]))
  have silent : SilentAfterStatus es := by
    refine silentAfterStatus_cons (by simp [DeliverEvent.IsStatus])
      (silentAfterStatus_cons (by simp [DeliverEvent.IsStatus]) (silentAfterStatus_cons ?_ quiet))
    simp [DeliverEvent.IsData]
  have undecided : ∀ e' ∈ ([.data (.block 3), .data (.block 4)] : List (DeliverEvent Nat)),
      ¬ e'.Deciding := by simp [DeliverEvent.Deciding]
  obtain ⟨_, outcome⟩ := (sendDeliver_first_deciding_event silent).1
    [.data (.block 3), .data (.block 4)] (.data (.status (.name "SUCCESS")))
    [.streamEnd, .error 1 "CANCELLED"] rfl ⟨trivial, by simp⟩
    (fun a e' b split decides => undecided e' (by simp [split]) decides.1)
  obtain ⟨promise, _, list⟩ := outcome _ (List.prefix_refl _)
  exact ⟨promise, list rfl⟩

end FabricCommon
