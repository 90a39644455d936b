import FabricCommon.StepRun
import FabricCommon.TolerantProposals

namespace FabricCommon

/-- The peers, as what each makes of a join proposal and of whatever else happens. -/
structure JoinPeers (S E : Type) where
  propose : S → String → Except String PeerResponse × S
  happen : S → E → S

/-- What the peers promise of a channel; `joined` says which of them have joined. A peer joins at
most once, tells apart whether it had, and does not leave. -/
structure JoinLaws {S E : Type} (peers : JoinPeers S E) (channelName : String)
    (joined : S → String → Bool) : Prop where
  success_fresh : ∀ s url r, (peers.propose s url).1 = .ok r → r.status = 200 →
    joined s url = false
  success_joins : ∀ s url r, (peers.propose s url).1 = .ok r → r.status = 200 →
    joined (peers.propose s url).2 url = true
  already_joined : ∀ s url r, (peers.propose s url).1 = .ok r →
    joinedAlready channelName r = true → joined s url = true
  propose_keeps : ∀ s url other, joined s other = true →
    joined (peers.propose s url).2 other = true
  happen_keeps : ∀ s e url, joined s url = true → joined (peers.happen s e) url = true

/-- The endorsers of a `QueryHub`, by their urls. -/
structure JoinHub where
  endorsers : List String
  distinct : endorsers.Nodup

/-- A proposal at the peer that it was sent to, and the state in which it came there. -/
structure JoinArrival (S : Type) where
  url : String
  state : S
  answer : Except String PeerResponse

namespace JoinArrival

variable {S : Type} (a : JoinArrival S)

def error? : Option String :=
  match a.answer with
  | .error e => some e
  | .ok _ => none

def response? : Option EndorsementResponse := a.answer.toOption.map fun r => ⟨r, a.url⟩

/-- The peer has joined by this proposal or before it. -/
def TakenUp (channelName : String) : Prop :=
  ∃ r, a.answer = .ok r ∧ (r.status = 200 ∨ joinedAlready channelName r = true)

end JoinArrival

/-- A call of `join` on a hub, with what happens before its proposal comes to each of the endorsers;
or anything else. -/
inductive JoinEvent (E : Type)
  | attempt (hub : JoinHub) (before : String → List E)
  | other (e : E)

namespace JoinHub

variable {S E : Type} (peers : JoinPeers S E) (channelName : String)

/-- The proposal goes to all. -/
def deliver (before : String → List E) : List String → S → List (JoinArrival S) × S
  | [], s => ([], s)
  | url :: urls, s =>
    let s := (before url).foldl peers.happen s
    let proposed := peers.propose s url
    let later := deliver before urls proposed.2
    (⟨url, s, proposed.1⟩ :: later.1, later.2)

/-- The result of `send`. -/
def collected (arrivals : List (JoinArrival S)) : ProposalResponse where
  errors := arrivals.filterMap JoinArrival.error?
  responses := arrivals.filterMap JoinArrival.response?

def arrivals (hub : JoinHub) (before : String → List E) (s : S) : List (JoinArrival S) :=
  (deliver peers before hub.endorsers s).1

/-- What `QueryHub.join` comes to. -/
def outcome (hub : JoinHub) (before : String → List E) (s : S) :
    Except LifecycleError (Option ProposalResponse) :=
  QueryHub.join channelName (.ok (collected (hub.arrivals peers before s)))

def step (s : S) : JoinEvent E → S
  | .attempt hub before => (deliver peers before hub.endorsers s).2
  | .other e => peers.happen s e

def run (s : S) (events : List (JoinEvent E)) : S := events.foldl (step peers) s

variable {peers channelName} {joined : S → String → Bool} {before : String → List E}
  {urls : List String} {s : S} {hub : JoinHub} {as : List (JoinArrival S)}

theorem happens_keep (laws : JoinLaws peers channelName joined) {url : String}
    (has : joined s url = true) (es : List E) : joined (es.foldl peers.happen s) url = true :=
  StepRun.foldl_keeps (I := fun s => joined s url = true)
    (fun s e => laws.happen_keeps s e url) has es

theorem deliver_keeps (laws : JoinLaws peers channelName joined) {url : String}
    (has : joined s url = true) : joined (deliver peers before urls s).2 url = true := by
  induction urls generalizing s with
  | nil => exact has
  | cons other urls ih =>
    exact ih (laws.propose_keeps _ other url (happens_keep laws has (before other)))

theorem step_keeps (laws : JoinLaws peers channelName joined) {url : String} (s : S)
    (event : JoinEvent E) (has : joined s url = true) : joined (step peers s event) url = true := by
  cases event with
  | attempt hub before => exact deliver_keeps laws has
  | other e => exact laws.happen_keeps s e url has

/-- A peer that has joined stays in the channel. -/
theorem run_keeps (laws : JoinLaws peers channelName joined) {url : String}
    (has : joined s url = true) (events : List (JoinEvent E)) :
    joined (run peers s events) url = true :=
  StepRun.foldl_keeps (step_keeps laws) has events

theorem deliver_urls : (deliver peers before urls s).1.map (·.url) = urls := by
  induction urls generalizing s with
  | nil => rfl
  | cons url urls ih => exact congrArg (url :: ·) ih

theorem answer_of_mem {a : JoinArrival S} (mem : a ∈ (deliver peers before urls s).1) :
    a.answer = (peers.propose a.state a.url).1 := by
  induction urls generalizing s with
  | nil => cases mem
  | cons url urls ih =>
    rcases List.mem_cons.mp mem with rfl | later
    · rfl
    · exact ih later

/-- A peer that had joined before a call has when the proposal comes. -/
theorem joined_on_arrival (laws : JoinLaws peers channelName joined) {a : JoinArrival S}
    (mem : a ∈ (deliver peers before urls s).1) (has : joined s a.url = true) :
    joined a.state a.url = true := by
  induction urls generalizing s with
  | nil => cases mem
  | cons url urls ih =>
    rcases List.mem_cons.mp mem with rfl | later
    · exact happens_keep laws has (before url)
    · exact ih later (laws.propose_keeps _ url a.url (happens_keep laws has (before url)))

/-- A peer that takes the proposal up has joined at the end of the call. -/
theorem joined_of_takenUp (laws : JoinLaws peers channelName joined) {a : JoinArrival S}
    (mem : a ∈ (deliver peers before urls s).1) (taken : a.TakenUp channelName) :
    joined (deliver peers before urls s).2 a.url = true := by
  induction urls generalizing s with
  | nil => cases mem
  | cons url urls ih =>
    rcases List.mem_cons.mp mem with rfl | later
    · have kept : joined (peers.propose ((before url).foldl peers.happen s) url).2 url = true →
          joined (deliver peers before urls
            (peers.propose ((before url).foldl peers.happen s) url).2).2 url = true :=
        deliver_keeps laws
      obtain ⟨r, answered, success | already⟩ := taken
      · exact kept (laws.success_joins _ url r answered success)
      · exact kept (laws.propose_keeps _ url url (laws.already_joined _ url r answered already))
    · exact ih later

theorem mem_responses {r : EndorsementResponse} :
    r ∈ (collected as).responses ↔ ∃ a ∈ as, a.answer = .ok r.response ∧ a.url = r.url := by
  simp only [collected, List.mem_filterMap, JoinArrival.response?, Option.map_eq_some_iff,
    PanicRun.toOption_eq_some]
  constructor
  · rintro ⟨a, mem, response, answered, rfl⟩
    exact ⟨a, mem, answered, rfl⟩
  · rintro ⟨a, mem, answered, url⟩
    exact ⟨a, mem, r.response, answered, by rw [url]⟩

theorem errors_eq_nil : (collected as).errors = [] ↔ ∀ a ∈ as, ∃ r, a.answer = .ok r := by
  rw [collected, List.filterMap_eq_nil_iff]
  refine forall₂_congr fun a _ => ?_
  cases answered : a.answer with
  | error e => simp [JoinArrival.error?, answered]
  | ok r => simp [JoinArrival.error?, answered]

theorem responses_sublist : ((collected as).responses.map (·.url)).Sublist (as.map (·.url)) := by
  induction as with
  | nil => exact .slnil
  | cons a as ih =>
    cases answered : a.answer with
    | error e =>
      have lost : a.response? = none := by simp [JoinArrival.response?, answered, Except.toOption]
      simp only [collected, List.filterMap_cons_none lost]
      exact ih.cons a.url
    | ok r =>
      have given : a.response? = some ⟨r, a.url⟩ := by
        simp [JoinArrival.response?, answered, Except.toOption]
      simp only [collected, List.filterMap_cons_some given]
      exact ih.cons_cons a.url

/-- Nothing but lost answers and refusals stands in the way of `join`. -/
theorem passes_iff :
    ((collected as).errors = [] ∧ (collected as).untolerated (joinedAlready channelName) = []) ↔
      ∀ a ∈ as, a.TakenUp channelName := by
  rw [errors_eq_nil, untolerated_eq_nil]
  constructor
  · rintro ⟨answered, tolerated⟩ a mem
    obtain ⟨r, given⟩ := answered a mem
    by_cases success : r.status = 200
    · exact ⟨r, given, .inl success⟩
    · exact ⟨r, given, .inr (tolerated ⟨r, a.url⟩ (mem_responses.mpr ⟨a, mem, given, rfl⟩) success)⟩
  · intro taken
    constructor
    · intro a mem
      obtain ⟨r, given, _⟩ := taken a mem
      exact ⟨r, given⟩
    · intro r member failed
      obtain ⟨a, mem, given, _⟩ := mem_responses.mp member
      obtain ⟨r', given', rest⟩ := taken a mem
      cases given.symm.trans given'
      exact rest.resolve_left failed

/-- When all take the proposal up, some answers failed exactly if some peer had joined. -/
theorem fails_iff (laws : JoinLaws peers channelName joined)
    (taken : ∀ a ∈ (deliver peers before urls s).1, a.TakenUp channelName) :
    (collected (deliver peers before urls s).1).untolerated (fun _ => false) ≠ [] ↔
      ∃ a ∈ (deliver peers before urls s).1, joined a.state a.url = true := by
  rw [ne_eq, untolerated_eq_nil]
  simp only [Bool.false_eq_true, imp_false, not_forall, exists_prop, not_not]
  constructor
  · rintro ⟨r, member, failed⟩
    obtain ⟨a, mem, given, _⟩ := mem_responses.mp member
    obtain ⟨r', given', rest⟩ := taken a mem
    cases given.symm.trans given'
    have answered := (answer_of_mem mem).symm.trans given
    exact ⟨a, mem, laws.already_joined _ _ _ answered (rest.resolve_left failed)⟩
  · rintro ⟨a, mem, has⟩
    obtain ⟨r, given, _⟩ := taken a mem
    refine ⟨⟨r, a.url⟩, mem_responses.mpr ⟨a, mem, given, rfl⟩, fun success => ?_⟩
    have fresh := laws.success_fresh _ _ r ((answer_of_mem mem).symm.trans given) success
    rw [has] at fresh
    cases fresh

theorem outcome_eq :
    hub.outcome peers channelName before s =
      if (collected (hub.arrivals peers before s)).errors ≠ [] then
        .error (.intercepted (.SYSTEM_ERROR (collected (hub.arrivals peers before s)).errors))
      else if (collected (hub.arrivals peers before s)).untolerated
          (joinedAlready channelName) ≠ [] then
        .error (.intercepted (.ENDORSE_ERROR
          (((collected (hub.arrivals peers before s)).untolerated fun _ => false).map
            EndorsementResponse.report)))
      else .ok (if (collected (hub.arrivals peers before s)).untolerated (fun _ => false) = [] then
        some (collected (hub.arrivals peers before s)) else none) := by
  have urls : (hub.arrivals peers before s).map (·.url) = hub.endorsers := deliver_urls
  refine join_eq channelName (List.Nodup.sublist responses_sublist ?_)
  rw [urls]
  exact hub.distinct

theorem outcome_returns_iff :
    PanicRun.Returns (hub.outcome peers channelName before s) ↔
      ∀ a ∈ hub.arrivals peers before s, a.TakenUp channelName := by
  rw [← passes_iff, outcome_eq]
  by_cases errors : (collected (hub.arrivals peers before s)).errors = []
  · by_cases passed : (collected (hub.arrivals peers before s)).untolerated
        (joinedAlready channelName) = []
    · simp [errors, passed, PanicRun.Returns]
    · simp [errors, passed, PanicRun.Returns]
  · simp [errors, PanicRun.Returns]

/-- Of a call that returns, the result is nothing if some endorser had joined. -/
theorem outcome_eq_none_iff (laws : JoinLaws peers channelName joined)
    (returns : PanicRun.Returns (hub.outcome peers channelName before s)) :
    hub.outcome peers channelName before s = .ok none ↔
      ∃ a ∈ hub.arrivals peers before s, joined a.state a.url = true := by
  have taken := outcome_returns_iff.mp returns
  obtain ⟨errors, passed⟩ := passes_iff.mpr taken
  have failing : (collected (hub.arrivals peers before s)).untolerated (fun _ => false) ≠ [] ↔
      ∃ a ∈ hub.arrivals peers before s, joined a.state a.url = true := fails_iff laws taken
  rw [← failing, outcome_eq, if_neg (not_not.mpr errors), if_neg (not_not.mpr passed)]
  by_cases succeeded : (collected (hub.arrivals peers before s)).untolerated (fun _ => false) = []
  · simp [succeeded]
  · simp [succeeded]

variable (peers before s) in
theorem arrival_of_endorser {url : String} (listed : url ∈ hub.endorsers) :
    ∃ a ∈ hub.arrivals peers before s, a.url = url := by
  have urls : (hub.arrivals peers before s).map (·.url) = hub.endorsers := deliver_urls
  rw [← urls] at listed
  exact List.mem_map.mp listed

theorem joined_after (laws : JoinLaws peers channelName joined)
    (returns : PanicRun.Returns (hub.outcome peers channelName before s)) {url : String}
    (listed : url ∈ hub.endorsers) :
    joined (step peers s (.attempt hub before)) url = true := by
  obtain ⟨a, mem, rfl⟩ := arrival_of_endorser peers before s listed
  exact joined_of_takenUp laws mem (outcome_returns_iff.mp returns a mem)

/-- After any history, `join` returns exactly when every endorser takes the proposal up; of a call
that returns, the result is nothing exactly when some endorser had joined before the proposal came;
after it all endorsers have joined, whatever comes later; and so no later call of any hub with one
of them has a result to return. -/
theorem join_after_history {channelName : String} (laws : JoinLaws peers channelName joined)
    (hub : JoinHub) (before : String → List E) (s : S) (past : List (JoinEvent E)) :
    (PanicRun.Returns (hub.outcome peers channelName before (run peers s past)) ↔
      ∀ a ∈ hub.arrivals peers before (run peers s past), a.TakenUp channelName) ∧
    (PanicRun.Returns (hub.outcome peers channelName before (run peers s past)) →
      (hub.outcome peers channelName before (run peers s past) = .ok none ↔
        ∃ a ∈ hub.arrivals peers before (run peers s past), joined a.state a.url = true) ∧
      ∀ later, ∀ url ∈ hub.endorsers,
        joined (run peers s (past ++ .attempt hub before :: later)) url = true ∧
        ∀ (hub' : JoinHub) (before' : String → List E), url ∈ hub'.endorsers →
          ∀ result, hub'.outcome peers channelName before'
            (run peers s (past ++ .attempt hub before :: later)) ≠ .ok (some result)) := by
  refine ⟨outcome_returns_iff, fun returns => ⟨outcome_eq_none_iff laws returns, ?_⟩⟩
  intro later url listed
  have split : run peers s (past ++ .attempt hub before :: later) =
      run peers (step peers (run peers s past) (.attempt hub before)) later := List.foldl_append
  have has : joined (run peers s (past ++ .attempt hub before :: later)) url = true := by
    rw [split]
    exact run_keeps laws (joined_after laws returns listed) later
  refine ⟨has, ?_⟩
  intro hub' before' listed' result returned
  obtain ⟨a, mem, same⟩ := arrival_of_endorser peers before'
    (run peers s (past ++ .attempt hub before :: later)) listed'
  subst same
  have nothing := (outcome_eq_none_iff laws ⟨some result, returned⟩).mpr
    ⟨a, mem, joined_on_arrival laws mem has⟩
  cases returned.symm.trans nothing

end JoinHub

def ledgerExists : String :=
  "cannot create ledger from genesis block: ledger [ch] already exists with state [ACTIVE]"

/-- Peers that keep the urls of those that have joined the channel `ch`. -/
def urlPeers : JoinPeers (List String) String where
  propose s url :=
    if url ∈ s then (.ok ⟨500, ledgerExists, []⟩, s) else (.ok ⟨200, "", []⟩, url :: s)
  happen s url := url :: s

section

variable {s : List String} {url : String}

theorem urlPeers_known (known : url ∈ s) :
    urlPeers.propose s url = (.ok ⟨500, ledgerExists, []⟩, s) := if_pos known

theorem urlPeers_fresh (fresh : url ∉ s) :
    urlPeers.propose s url = (.ok ⟨200, "", []⟩, url :: s) := if_neg fresh

end

theorem urlPeers_laws : JoinLaws urlPeers "ch" fun s url => decide (url ∈ s) where
  success_fresh s url r answered success := by
    by_cases known : url ∈ s
    · rw [urlPeers_known known] at answered
      cases answered
      cases success
    · exact decide_eq_false known
  success_joins s url r answered success := by
    by_cases known : url ∈ s
    · simp [urlPeers_known known, known]
    · simp [urlPeers_fresh known]
  already_joined s url r answered already := by
    by_cases known : url ∈ s
    · exact decide_eq_true known
    · rw [urlPeers_fresh known] at answered
      cases answered
      cases already
  propose_keeps s url other has := by
    by_cases known : url ∈ s
    · simpa [urlPeers_known known] using has
    · simpa [urlPeers_fresh known] using Or.inr (of_decide_eq_true has)
  happen_keeps s e url has := decide_eq_true (List.mem_cons_of_mem e (of_decide_eq_true has))

def twoPeers : JoinHub := ⟨["peer0", "peer1"], by decide⟩

/-- One of two peers had joined by itself; after the call both have. -/
theorem join_after_history_twoPeers :
    twoPeers.outcome urlPeers "ch" (fun _ => []) (JoinHub.run urlPeers [] [.other "peer1"]) =
        .ok none ∧
      ∀ later result, twoPeers.outcome urlPeers "ch" (fun _ => [])
        (JoinHub.run urlPeers [] ([.other "peer1"] ++ .attempt twoPeers (fun _ => []) :: later)) ≠
          .ok (some result) := by
  obtain ⟨returns, rest⟩ := JoinHub.join_after_history urlPeers_laws twoPeers (fun _ => []) []
    [.other "peer1"]
  have returned : PanicRun.Returns (twoPeers.outcome urlPeers "ch" (fun _ => [])
      (JoinHub.run urlPeers [] [.other "peer1"])) := ⟨none, by decide +kernel⟩
  obtain ⟨nothing, after⟩ := rest returned
  refine ⟨by decide +kernel, fun later => ?_⟩
  exact (after later "peer0" (by decide)).2 twoPeers (fun _ => []) (by decide)

end FabricCommon
