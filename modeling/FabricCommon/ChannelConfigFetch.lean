import FabricCommon.OrdererLedger

namespace FabricCommon

open PanicRun protoTranslator DeliverState

inductive ConfigFetchError where
  | deliver (err : DeliverError)
  | thrown (message : String)
  deriving DecidableEq, Repr

/-- Where `getChannelConfigFromOrderer` is: it awaits the newest block, then the last configuration
block. -/
inductive ConfigFetchPhase (ConfigEnvelope : Type) where
  | newest (request : SpecificBlock) (fetch : BlockFetch OrdererBlock)
  | lastConfig (request : SpecificBlock) (fetch : BlockFetch OrdererBlock)
  | returned (result : Except ConfigFetchError ConfigEnvelope)

/-- What both requests of a call share, and the time at which each is built. -/
structure ConfigRequest where
  channelName : String
  signingIdentity : SigningIdentity
  id : TransactionID
  unsetIsNull : Bool
  newestTimestamp : Nat
  lastConfigTimestamp : Nat

section

variable {ConfigEnvelope Rest : Type} (protos : ConfigProtos ConfigEnvelope)

namespace ConfigRequest

variable (request : ConfigRequest)

def getSpecificBlock (blockHeight : BlockNumber) (timestamp : Nat) : SpecificBlock :=
  request.signingIdentity.getSpecificBlock request.id request.channelName blockHeight
    ⟨none, none⟩ timestamp request.unsetIsNull

/-- A `NaN` is sent as zero. -/
def lastConfigBlockHeight (eventBlock : Option OrdererBlock) : Except String BlockNumber := do
  let block ← destructured eventBlock
  let index ← extractLastConfigIndex protos.toLedgerProtos block.toLedgerBlock
  return .number (index.getD 0).toNat

def configEnvelope (eventLastConfigBlock : Option OrdererBlock) :
    Except String ConfigEnvelope := do
  let block ← destructured eventLastConfigBlock
  assertConfigBlock protos block
  let blockData ← destructured block.data[0]?
  extractConfigEnvelopeFromBlockData protos blockData

def newestFetched (sent : SpecificBlock) (fetch : BlockFetch OrdererBlock) :
    ConfigFetchPhase ConfigEnvelope :=
  match fetch.phase with
  | .settled (.ok eventBlock) =>
    match lastConfigBlockHeight protos eventBlock with
    | .ok height =>
      let next := request.getSpecificBlock height request.lastConfigTimestamp
      .lastConfig next next.start
    | .error message => .returned (.error (.thrown message))
  | .settled (.error err) => .returned (.error (.deliver err))
  | _ => .newest sent fetch

def lastConfigFetched (sent : SpecificBlock) (fetch : BlockFetch OrdererBlock) :
    ConfigFetchPhase ConfigEnvelope :=
  match fetch.phase with
  | .settled (.ok eventLastConfigBlock) =>
    .returned ((configEnvelope protos eventLastConfigBlock).mapError .thrown)
  | .settled (.error err) => .returned (.error (.deliver err))
  | _ => .lastConfig sent fetch

def onTurn (turn : FetchTurn OrdererBlock) :
    ConfigFetchPhase ConfigEnvelope → ConfigFetchPhase ConfigEnvelope
  | .newest sent fetch => request.newestFetched protos sent (sent.step fetch turn)
  | .lastConfig sent fetch => lastConfigFetched protos sent (sent.step fetch turn)
  | .returned result => .returned result

end ConfigRequest

variable {protos} {read : ConfigEnvelope → ChannelConfiguration Rest}

/-- A call of `getChannelConfigFromOrderer` and the channel at the orderer. -/
structure ConfigFetch (protos : ConfigProtos ConfigEnvelope)
    (read : ConfigEnvelope → ChannelConfiguration Rest) where
  ledger : OrdererLedger protos read
  phase : ConfigFetchPhase ConfigEnvelope

/-- The ordering service appends blocks, or the fetch that the call awaits hears an event. -/
inductive OrdererTurn (protos : ConfigProtos ConfigEnvelope)
    (read : ConfigEnvelope → ChannelConfiguration Rest) where
  | grown (later : OrdererLedger protos read)
  | fetch (turn : FetchTurn OrdererBlock)

namespace ConfigFetch

variable (request : ConfigRequest)

def step (s : ConfigFetch protos read) : OrdererTurn protos read → ConfigFetch protos read
  | .grown later => { s with ledger := later }
  | .fetch turn => { s with phase := request.onTurn protos turn s.phase }

def start (ledger : OrdererLedger protos read) : ConfigFetch protos read :=
  let sent := request.getSpecificBlock .NEWEST request.newestTimestamp
  ⟨ledger, .newest sent sent.start⟩

def run (ledger : OrdererLedger protos read) (turns : List (OrdererTurn protos read)) :
    ConfigFetch protos read :=
  turns.foldl (step request) (start request ledger)

end ConfigFetch

def SpecificBlock.position (request : SpecificBlock) : SeekPosition :=
  request.envelope.payload.data.start

/-- An event that an orderer sends which delivers these blocks only, one at least before it reports
success. It may fail at any time. -/
def Honest {Block : Type} (delivers : Block → Prop) (stream : DeliverState Block) :
    DeliverEvent Block → Prop
  | .data (.block block) => delivers block
  | .data (.status status) => status = .name "SUCCESS" ∨ status = .code 200 → stream.responses ≠ []
  | _ => True

/-- The turn is one of a fetch from an honest orderer. -/
def HonestTurn {Block : Type} (delivers : Block → Prop) (fetch : BlockFetch Block) :
    FetchTurn Block → Prop
  | .stream i event => ∀ call, fetch.calls[i]? = some call → Honest delivers call.stream event
  | .awake => True

/-- The ordering service keeps what it has appended, and delivers what it is asked for. -/
def ConfigFetch.Serves (first : OrdererLedger protos read) (s : ConfigFetch protos read) :
    OrdererTurn protos read → Prop
  | .grown later => s.ledger.Extends later
  | .fetch turn =>
    match s.phase with
    | .newest sent fetch => HonestTurn (first.Delivers s.ledger sent.position) fetch turn
    | .lastConfig sent fetch => HonestTurn (first.Delivers s.ledger sent.position) fetch turn
    | .returned _ => True

section Fetches

variable {Block : Type} {delivers delivers' : Block → Prop} {stream : DeliverState Block}
  {fetch : BlockFetch Block} {event : DeliverEvent Block}

/-- What an honest orderer leaves of a call. -/
structure Answered (delivers : Block → Prop) (stream : DeliverState Block) : Prop where
  blocks : ∀ block ∈ stream.responses, delivers block
  resolved : stream.promise = .resolved → stream.responses ≠ []

structure Served (delivers : Block → Prop) (fetch : BlockFetch Block) : Prop where
  calls : ∀ call ∈ fetch.calls, Answered delivers call.stream
  settled : ∀ block, fetch.phase = .settled (.ok block) →
    ∃ found, block = some found ∧ delivers found

theorem Answered.mono (h : Answered delivers stream) (more : ∀ b, delivers b → delivers' b) :
    Answered delivers' stream := ⟨fun b mem => more b (h.blocks b mem), h.resolved⟩

theorem Served.mono (h : Served delivers fetch) (more : ∀ b, delivers b → delivers' b) :
    Served delivers' fetch where
  calls call mem := (h.calls call mem).mono more
  settled block settled := by
    obtain ⟨found, eq, delivered⟩ := h.settled block settled
    exact ⟨found, eq, more found delivered⟩

theorem sent_answered : Answered delivers (DeliverState.sent : DeliverState Block) :=
  ⟨by simp [sent, opened], by simp [sent, opened]⟩

/-- Only a status response of success resolves the promise of a call. -/
theorem step_resolves (h : (stream.step event).promise = .resolved) :
    stream.promise = .resolved ∨
      ∃ status, event = .data (.status status) ∧
        (status = .name "SUCCESS" ∨ status = .code 200) := by
  rcases step_resolved h with before | ⟨status, rfl⟩
  · exact Or.inl before
  · by_cases pending : stream.promise = .pending
    · refine Or.inr ⟨status, rfl, ?_⟩
      by_contra failed
      have ended : stream.endStream.promise = .pending := pending
      simp [step, onData, failed, settle_pending ended] at h
    · exact Or.inl (by rwa [step_settled pending] at h)

theorem Answered.step (h : Answered delivers stream) (honest : Honest delivers stream event) :
    Answered delivers (stream.step event) := by
  constructor
  · intro block mem
    rw [step_responses, List.mem_append] at mem
    rcases mem with old | new
    · exact h.blocks block old
    · cases event with
      | data response =>
        cases response with
        | block sent =>
          have eq : block = sent := by simpa [DeliverEvent.block?] using new
          exact eq ▸ honest
        | _ => simp [DeliverEvent.block?] at new
      | _ => simp [DeliverEvent.block?] at new
  · intro resolved
    rw [step_responses]
    rcases step_resolves resolved with before | ⟨status, rfl, success⟩
    · simp [h.resolved before]
    · simp [honest success]

theorem start_served (request : SpecificBlock) :
    Served delivers (request.start : BlockFetch Block) where
  calls call mem := by
    rw [List.mem_singleton.mp mem]
    exact sent_answered
  settled block settled := by cases settled

theorem goOn_served {request : SpecificBlock} (h : Answered delivers stream) {block : Option Block}
    (settled : request.goOn stream = .settled (.ok block)) :
    ∃ found, block = some found ∧ delivers found := by
  unfold SpecificBlock.goOn at settled
  split at settled
  next => cases settled
  next resolved =>
    cases settled
    obtain ⟨found, others, eq⟩ := List.exists_cons_of_ne_nil (h.resolved resolved)
    exact ⟨found, by rw [eq]; rfl, h.blocks found (by rw [eq]; exact List.mem_cons_self)⟩
  next => split at settled <;> cases settled

theorem Served.step {request : SpecificBlock} (h : Served delivers fetch) {turn : FetchTurn Block}
    (honest : HonestTurn delivers fetch turn) : Served delivers (request.step fetch turn) := by
  cases turn with
  | awake =>
    simp only [SpecificBlock.step, SpecificBlock.onAwake]
    split
    next =>
      refine ⟨?_, fun block settled => by cases settled⟩
      intro call mem
      rcases List.mem_append.mp mem with old | new
      · exact h.calls call old
      · rw [List.mem_singleton.mp new]
        exact sent_answered
    next => exact h
  | stream i event =>
    simp only [SpecificBlock.step, SpecificBlock.onStream]
    split
    next => exact h
    next call found =>
      have answered := (h.calls call (List.mem_of_getElem? found)).step (honest call found)
      constructor
      · intro call' mem
        rcases List.mem_or_eq_of_mem_set mem with old | rfl
        · exact h.calls call' old
        · exact answered
      · intro block settled
        dsimp only at settled
        split at settled
        next =>
          split at settled
          next => exact goOn_served answered settled
          next => cases settled
        next => exact h.settled block settled

end Fetches

namespace ConfigFetch

variable {request : ConfigRequest} {first : OrdererLedger protos read}
  {s : ConfigFetch protos read}

/-- What a call of `getChannelConfigFromOrderer` that began with the ledger `first` has seen of it:
`seen` is the ledger when the newest block was fetched. -/
def Sees (first ledger : OrdererLedger protos read) : ConfigFetchPhase ConfigEnvelope → Prop
  | .newest sent fetch => sent.position = .newest ∧ Served (first.Delivers ledger .newest) fetch
  | .lastConfig sent fetch => ∃ seen : OrdererLedger protos read,
    first.Extends seen ∧ seen.Extends ledger ∧
      sent.position = .specified seen.view.extractLastConfigIndex ∧
      Served (first.Delivers ledger (.specified seen.view.extractLastConfigIndex)) fetch
  | .returned (.ok config) => ∃ seen : OrdererLedger protos read,
    first.Extends seen ∧ seen.Extends ledger ∧ read config = seen.view.current
  | .returned (.error (.deliver _)) => True
  | .returned (.error (.thrown _)) => False

theorem sees_grown {ledger later : OrdererLedger protos read}
    {phase : ConfigFetchPhase ConfigEnvelope} (h : Sees first ledger phase)
    (grown : ledger.Extends later) : Sees first later phase := by
  cases phase with
  | newest sent fetch =>
    obtain ⟨position, served⟩ := h
    exact ⟨position, served.mono fun _ delivered => delivered.extends grown⟩
  | lastConfig sent fetch =>
    obtain ⟨seen, after, before, position, served⟩ := h
    exact ⟨seen, after, before.trans grown, position,
      served.mono fun _ delivered => delivered.extends grown⟩
  | returned result =>
    cases result with
    | ok config =>
      obtain ⟨seen, after, before, current⟩ := h
      exact ⟨seen, after, before.trans grown, current⟩
    | error err =>
      cases err with
      | deliver err => trivial
      | thrown message => exact h

theorem newestFetched_sees {ledger : OrdererLedger protos read} {sent : SpecificBlock}
    {fetch : BlockFetch OrdererBlock} (position : sent.position = .newest)
    (served : Served (first.Delivers ledger .newest) fetch) :
    Sees first ledger (request.newestFetched protos sent fetch) := by
  unfold ConfigRequest.newestFetched
  split
  next eventBlock settled =>
    obtain ⟨block, rfl, seen, after, before, newest⟩ := served.settled eventBlock settled
    have height : ConfigRequest.lastConfigBlockHeight protos (some block) =
        .ok (.number seen.view.extractLastConfigIndex) := by
      simp only [ConfigRequest.lastConfigBlockHeight, destructured, bind, Except.bind,
        OrdererLedger.extractLastConfigIndex_newest newest]
      rfl
    rw [height]
    exact ⟨seen, after, before, rfl, start_served _⟩
  next => trivial
  next => exact ⟨position, served⟩

theorem lastConfigFetched_sees {ledger seen : OrdererLedger protos read} {sent : SpecificBlock}
    {fetch : BlockFetch OrdererBlock} (after : first.Extends seen) (before : seen.Extends ledger)
    (position : sent.position = .specified seen.view.extractLastConfigIndex)
    (served : Served (first.Delivers ledger (.specified seen.view.extractLastConfigIndex)) fetch) :
    Sees first ledger (ConfigRequest.lastConfigFetched protos sent fetch) := by
  unfold ConfigRequest.lastConfigFetched
  split
  next eventBlock settled =>
    obtain ⟨block, rfl, delivered⟩ := served.settled eventBlock settled
    obtain ⟨passes, blockData, config, data, extracted, current⟩ :=
      (OrdererLedger.numbered_extractLastConfigIndex before delivered).extract
    have taken : ConfigRequest.configEnvelope protos (some block) = .ok config := by
      simp [ConfigRequest.configEnvelope, destructured, passes, data, extracted, bind, Except.bind]
    rw [taken]
    exact ⟨seen, after, before, current⟩
  next => trivial
  next => exact ⟨seen, after, before, position, served⟩

def Follows (first : OrdererLedger protos read) (s : ConfigFetch protos read) : Prop :=
  first.Extends s.ledger ∧ Sees first s.ledger s.phase

theorem step_follows {turn : OrdererTurn protos read} (serves : s.Serves first turn)
    (h : s.Follows first) : (s.step request turn).Follows first := by
  obtain ⟨grown, sees⟩ := h
  cases turn with
  | grown later => exact ⟨grown.trans serves, sees_grown sees serves⟩
  | fetch turn =>
    refine ⟨grown, ?_⟩
    obtain ⟨ledger, phase⟩ := s
    cases phase with
    | newest sent fetch =>
      obtain ⟨position, served⟩ := sees
      have honest : HonestTurn (first.Delivers ledger .newest) fetch turn := position ▸ serves
      exact newestFetched_sees position (served.step honest)
    | lastConfig sent fetch =>
      obtain ⟨seen, after, before, position, served⟩ := sees
      have honest : HonestTurn
          (first.Delivers ledger (.specified seen.view.extractLastConfigIndex)) fetch turn :=
        position ▸ serves
      exact lastConfigFetched_sees after before position (served.step honest)
    | returned result => exact sees

end ConfigFetch

open ConfigFetch

/-- Whatever the ordering service appends in the meantime, the configuration that the call returns
was in force at a moment of the call, and the call never fails on what the orderer delivers. -/
theorem getChannelConfigFromOrderer_returns_config_in_force (request : ConfigRequest)
    (first : OrdererLedger protos read) (turns : List (OrdererTurn protos read))
    (serves : StepRun.EachStep (step request) (Serves first) (start request first) turns) :
    (∀ config, (run request first turns).phase = .returned (.ok config) →
      ∃ seen : OrdererLedger protos read, first.Extends seen ∧
        seen.Extends (run request first turns).ledger ∧ read config = seen.view.current) ∧
      ∀ message, (run request first turns).phase ≠ .returned (.error (.thrown message)) := by
  have begun : (start request first).Follows first :=
    ⟨OrdererLedger.Extends.refl first, rfl, start_served _⟩
  have sees : (run request first turns).Follows first :=
    serves.keeps (fun _ _ h allowed => ConfigFetch.step_follows allowed h) begun
  constructor
  · intro config returned
    have found := sees.2
    rwa [returned] at found
  · intro message thrown
    have found := sees.2
    rwa [thrown] at found

end

open ConfigFetch

/-- Classes that decode short messages. Of a configuration envelope they take the sequence of its
configuration. -/
def shortProtos : ConfigProtos Nat where
  toLedgerProtos := NumberReport.indexProtos
  decodeEnvelope bytes :=
    let (payload, rest) := NumberReport.lengthDelimited 0x0a bytes
    .ok ⟨payload, (NumberReport.lengthDelimited 0x12 rest).1⟩
  decodePayload bytes :=
    let (header, rest) := NumberReport.lengthDelimited 0x0a bytes
    let channel_header := (NumberReport.lengthDelimited 0x0a header).1
    .ok ⟨if bytes.head? = some 0x0a then some channel_header else none,
      (NumberReport.lengthDelimited 0x12 rest).1⟩
  decodeChannelHeader bytes := (NumberReport.onlyNumber bytes).map Int.ofNat
  decodeConfigEnvelope bytes := NumberReport.onlyNumber (NumberReport.lengthDelimited 0x0a bytes).1

def anchorless (rest : Nat) : ChannelConfiguration Nat := ⟨fun _ => none, rest⟩

/-- An envelope with the payload of a configuration transaction. -/
def configData (sequence : UInt8) : Buffer :=
  [0x0a, 12, 0x0a, 4, 0x0a, 2, 0x08, 1, 0x12, 4, 0x0a, 2, 0x08, sequence]

/-- A configuration block whose metadata name itself; no index is written for the first. -/
def configBlock (number sequence : UInt8) : OrdererBlock where
  header := ⟨ProtoLong.uint64 number.toNat, [], []⟩
  metadata := [[], if number = 0 then [] else [0x0a, 2, 0x08, number]]
  data := [configData sequence]

theorem configBlock_holds (number : UInt8) {sequence : UInt8} (short : sequence < 0x80) :
    HoldsConfig shortProtos anchorless (configBlock number sequence)
      (anchorless sequence.toNat) := by
  have decoded : shortProtos.decodeConfigEnvelope [0x0a, 2, 0x08, sequence] =
      .ok sequence.toNat := if_pos short
  exact ⟨configData sequence, ⟨_, []⟩, ⟨some [0x08, 1], _⟩, _, _, rfl, rfl, rfl, rfl, rfl, decoded,
    rfl⟩

def genesisOrderer : OrdererLedger shortProtos anchorless where
  blocks := [configBlock 0 7]
  view := ⟨anchorless 7, []⟩
  chain := .genesis (configBlock_holds 0 (by decide)) ⟨[], [], _, rfl, rfl, rfl, by decide⟩
  bounded := by decide

def updatedLedger : OrdererLedger shortProtos anchorless where
  blocks := [configBlock 1 8, configBlock 0 7]
  view := genesisOrderer.view.append (some (anchorless 8))
  chain := .append genesisOrderer.chain
    (fun _ eq => Option.some.inj eq ▸ configBlock_holds 1 (by decide))
    ⟨[0x0a, 2, 0x08, 1], [0x08, 1], _, rfl, rfl, rfl, by decide⟩
  bounded := by decide

def fetchRequest : ConfigRequest :=
  ⟨"ch", ⟨[], fun _ => []⟩, ⟨"tx", []⟩, true, 0, 1⟩

/-- An update is ordered between the two requests. -/
def fetchTurns : List (OrdererTurn shortProtos anchorless) :=
  [.fetch (.stream 0 (.data (.block (configBlock 0 7)))),
    .fetch (.stream 0 (.data (.status (.code 200)))), .grown updatedLedger,
    .fetch (.stream 0 (.data (.block (configBlock 0 7)))),
    .fetch (.stream 0 (.data (.status (.code 200))))]

theorem updatedLedger_extends : genesisOrderer.Extends updatedLedger :=
  ⟨⟨[configBlock 1 8], rfl⟩, (ConfigLedger.Extends.refl genesisOrderer.view).append _⟩

theorem fetchTurns_serve : StepRun.EachStep (step fetchRequest) (Serves genesisOrderer)
    (start fetchRequest genesisOrderer) fetchTurns := by
  have refl := OrdererLedger.Extends.refl genesisOrderer
  refine ⟨fun _ _ => ⟨genesisOrderer, refl, refl, rfl⟩, ?_, updatedLedger_extends,
    fun _ _ => rfl, ?_, trivial⟩
  · intro call found _
    obtain rfl := Option.some.inj found
    exact List.cons_ne_nil _ _
  · intro call found _
    obtain rfl := Option.some.inj found
    exact List.cons_ne_nil _ _

/-- The call returns the configuration that the update has replaced by then. -/
theorem getChannelConfigFromOrderer_returns_genesis :
    (run fetchRequest genesisOrderer fetchTurns).phase = .returned (.ok 7) ∧
      ∃ seen : OrdererLedger shortProtos anchorless, genesisOrderer.Extends seen ∧
        seen.Extends updatedLedger ∧ anchorless 7 = seen.view.current := by
  have returned : (run fetchRequest genesisOrderer fetchTurns).phase = .returned (.ok 7) := rfl
  exact ⟨returned, (getChannelConfigFromOrderer_returns_config_in_force fetchRequest genesisOrderer
    fetchTurns fetchTurns_serve).1 7 returned⟩

end FabricCommon
