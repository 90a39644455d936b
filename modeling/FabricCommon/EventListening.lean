import FabricCommon.EventBlock

namespace FabricCommon.Golang

open PanicRun

structure DeliverResponseType where
  status : Option Common.Status
  block : Option Common.Block
  filteredBlock : Option Peer.FilteredBlock
  /-- The private data sets, in bytes, by the numbers of their transactions. -/
  privateDataMap : List (UInt64 × Bytes)

namespace DeliverResponseType

def ofBlock (block : Common.Block) : DeliverResponseType := ⟨none, some block, none, []⟩

def ofFilteredBlock (filteredBlock : Peer.FilteredBlock) : DeliverResponseType :=
  ⟨none, none, some filteredBlock, []⟩

end DeliverResponseType

/-- Whether to continue and, as an `interface{}`, the result: nil or a value. -/
abbrev ContinueFcnOf (m : Type → Type) (β : Type) :=
  DeliverResponseType → List DeliverResponseType → m (Bool × Option β)

abbrev ContinueFcn := ContinueFcnOf GoM String

section

variable (goutils : Goutils) (protos : Protos) {m : Type → Type} {β : Type} [Monad m]

/-- The function that `continueBuilder` puts before those it is given; `text` makes an
`interface{}` of a string. -/
def statusContinue [MonadExcept String m] (text : String → β) : ContinueFcnOf m β := fun this _ =>
  match this.status with
  | some status =>
    if status = Common.Status.SUCCESS ∨ status = Common.Status.NOT_FOUND then
      return (false, some (text (protos.statusString status)))
    else throw ("Unknown DeliverResponse_Status=" ++ protos.statusString status)
  | none => return (true, none)

def continueAll : List (ContinueFcnOf m β) → ContinueFcnOf m β
  | [], _, _ => return (true, none)
  | next :: continueFcns, currentDeliverResponse, deliverResponses => do
    let (ok, result) ← next currentDeliverResponse deliverResponses
    if ok then continueAll continueFcns currentDeliverResponse deliverResponses
    else return (ok, result)

def continueBuilder [MonadExcept String m] (text : String → β)
    (continueFcns : List (ContinueFcnOf m β)) : ContinueFcnOf m β :=
  continueAll (statusContinue protos text :: continueFcns)

/-- What the loops of `waitForTx` return: the code of the transaction, when they come across it. -/
def found (code : Option Peer.TxValidationCode) : Bool × Option String :=
  match code with
  | some code => (false, some (protos.txValidationCodeString code))
  | none => (true, none)

def filteredCode (txid : String) (filteredTransactions : List Peer.FilteredTransaction) :
    Option Peer.TxValidationCode :=
  (filteredTransactions.find? fun value =>
    value.type = Common.HeaderType.ENDORSER_TRANSACTION ∧ txid = value.txid).map
      (·.txValidationCode)

def trimmedCode (txid : String) (trimmedTransactions : List TrimmedTransaction) :
    Option Peer.TxValidationCode :=
  (trimmedTransactions.find? fun value =>
    value.type = Common.HeaderType.ENDORSER_TRANSACTION ∧ txid = value.txid).map
      (·.txValidationCode)

def waitForTx (txid : String) : ContinueFcn :=
  continueBuilder protos id [fun this _ =>
    match this.filteredBlock, this.block with
    | some filteredBlock, _ =>
      return found protos (filteredCode txid filteredBlock.filteredTransactions)
    | none, some block => do
      let trimmed ← fromFullBlock goutils protos block
      return found protos (trimmedCode txid trimmed.trimmedTransactions)
    | none, none => return (true, none)]

end

variable {goutils : Goutils} {protos : Protos}

theorem trimmedCode_eq_filteredCode (txid : String) (trimmed : List TrimmedTransaction) :
    trimmedCode txid trimmed = filteredCode txid (trimmed.map TrimmedTransaction.simulated) := by
  simp only [trimmedCode, filteredCode, List.find?_map, Option.map_map]
  rfl

theorem continueBuilder_found {next : ContinueFcn} {this : DeliverResponseType}
    {all : List DeliverResponseType} {x : GoM (Option Peer.TxValidationCode)}
    (streaming : this.status = none) (h : next this all = found protos <$> x) :
    continueBuilder protos id [next] this all = found protos <$> x := by
  have status : statusContinue protos id this all = (.ok (true, none) : GoM _) := by
    simp only [statusContinue, streaming]
    rfl
  simp only [continueBuilder, continueAll, status, h]
  cases x with
  | error err => rfl
  | ok code => cases code <;> rfl

theorem waitForTx_filtered (txid : String) (filteredBlock : Peer.FilteredBlock)
    (all : List DeliverResponseType) :
    waitForTx goutils protos txid (.ofFilteredBlock filteredBlock) all =
      .ok (found protos (filteredCode txid filteredBlock.filteredTransactions)) :=
  continueBuilder_found (x := .ok (filteredCode txid filteredBlock.filteredTransactions)) rfl rfl

theorem waitForTx_full (txid : String) (block : Common.Block) (all : List DeliverResponseType) :
    waitForTx goutils protos txid (.ofBlock block) all = found protos <$>
      (fun trimmed => trimmedCode txid trimmed.trimmedTransactions) <$>
        fromFullBlock goutils protos block := by
  refine continueBuilder_found rfl ?_
  simp only [DeliverResponseType.ofBlock]
  cases fromFullBlock goutils protos block <;> rfl

/-- What the filtered block answers is what the full block answers, once that is read to its end. -/
theorem waitForTx_full_eq {b : DeliveredBlock protos} {trimmed : TrimmedBlock}
    (run : fromFullBlock goutils protos b.full = .ok trimmed) (txid : String)
    (all : List DeliverResponseType) :
    waitForTx goutils protos txid (.ofBlock b.full) all =
      .ok (found protos (filteredCode txid b.filtered.filteredTransactions)) := by
  have listed := DeliveredBlock.fromFullBlock_simulated run
  rw [waitForTx_full, run, ← listed, ← trimmedCode_eq_filteredCode]
  rfl

/-- Full-block and filtered-block listening agree on the blocks that hold nothing but transactions
`parseTransaction` is written for, and on no other block. -/
theorem waitForTx_agrees_iff (b : DeliveredBlock protos) (txid : String)
    (all all' : List DeliverResponseType) :
    (∃ answer, waitForTx goutils protos txid (.ofBlock b.full) all = .ok answer ∧
      waitForTx goutils protos txid (.ofFilteredBlock b.filtered) all' = .ok answer) ↔
      ∀ data ∈ b.envelopes, ParseableEnvelope goutils protos data := by
  rw [← b.fromFullBlock_returns_iff]
  constructor
  · intro h
    obtain ⟨answer, full, _⟩ := h
    rw [waitForTx_full] at full
    cases run : fromFullBlock goutils protos b.full with
    | error err =>
      rw [run] at full
      cases full
    | ok trimmed => exact returns_ok trimmed
  · intro h
    obtain ⟨trimmed, run⟩ := h
    exact ⟨_, waitForTx_full_eq run txid all, waitForTx_filtered txid b.filtered all'⟩

def assertions : Goutils where
  panicError err := match err with
    | none => .ok ()
    | some err => .error err
  assertOK condition message := if condition then .ok () else .error message
  assertNil value message := if nilable value then .ok () else .error message
  isNil := nilable
  panicError_ok err := by cases err <;> simp
  assertOK_ok condition message := by cases condition <;> simp
  assertNil_ok value message := by cases nilable value <;> simp
where
  nilable : Nilable → Bool
    | .transientMap value => value.isEmpty
    | .string value => value.isEmpty
    | .rangeQueriesInfo value => value.isEmpty
    | .metadataWrites value => value.isEmpty

/-- A field of a message on the wire. -/
def field (number : UInt8) (value : Bytes) : Bytes :=
  (number * 8 + 2) :: UInt8.ofNat value.length :: value

/-- A decoder as it acts on the empty message and on the messages of a table. -/
def decoder {α : Type} (empty : α) (messages : List (Bytes × α)) : Unmarshal α := fun data =>
  if data = [] then (empty, none)
  else match messages.lookup data with
    | some message => (message, none)
    | none => (empty, some "proto: cannot parse invalid wire-format data")

/-- A transaction that invokes a chaincode, and its bytes. -/
structure Invocation where
  txid : String
  args : List Bytes

namespace Invocation

def chaincodeId : Bytes := field 2 [99, 99]

def extension : Bytes := field 2 chaincodeId

def creator : Bytes := field 1 [79]

def signatureHeader : Bytes := field 1 creator

variable (t : Invocation)

def channelHeader : Bytes :=
  [8, 3] ++ field 4 [99, 104] ++ field 5 t.txid.toUTF8.data.toList ++ field 7 extension

def invocationSpec : Bytes :=
  field 1 ([8, 1] ++ field 2 chaincodeId ++ field 3 (t.args.flatMap (field 1)))

def proposalPayload : Bytes := field 1 t.invocationSpec

def actionPayload : Bytes := field 1 t.proposalPayload ++ field 2 []

def transaction : Bytes := field 1 (field 1 signatureHeader ++ field 2 t.actionPayload)

def header : Common.Header := ⟨t.channelHeader, signatureHeader⟩

def payload : Bytes :=
  field 1 (field 1 t.channelHeader ++ field 2 signatureHeader) ++ field 2 t.transaction

def envelope : Bytes := field 1 t.payload

end Invocation

/-- The decoders as they act on the bytes of `txs`. -/
def invocationProtos (txs : List Invocation) : Protos where
  envelope := decoder ⟨[], []⟩ (txs.map fun t => (t.envelope, ⟨t.payload, []⟩))
  payload := decoder ⟨none, []⟩ (txs.map fun t => (t.payload, ⟨some t.header, t.transaction⟩))
  channelHeader := decoder ⟨0, "", "", []⟩ (txs.map fun t =>
    (t.channelHeader, ⟨3, "ch", t.txid, Invocation.extension⟩))
  signatureHeader := decoder ⟨[], []⟩ [(Invocation.signatureHeader, ⟨Invocation.creator, []⟩)]
  serializedIdentity := decoder ⟨"", []⟩ [(Invocation.creator, ⟨"O", []⟩)]
  configEnvelope := decoder ⟨none, none⟩ []
  configUpdateEnvelope := decoder ⟨[]⟩ []
  envelopeToConfigUpdate _ := (⟨[]⟩, none)
  chaincodeHeaderExtension := decoder ⟨none⟩ [(Invocation.extension, ⟨some ⟨"", "cc", ""⟩⟩)]
  transaction := decoder ⟨[]⟩ (txs.map fun t =>
    (t.transaction, ⟨[⟨Invocation.signatureHeader, t.actionPayload⟩]⟩))
  chaincodeActionPayload := decoder ⟨[], none⟩ (txs.map fun t =>
    (t.actionPayload, ⟨t.proposalPayload, some ⟨[], []⟩⟩))
  chaincodeProposalPayload := decoder ⟨[], []⟩ (txs.map fun t =>
    (t.proposalPayload, ⟨t.invocationSpec, []⟩))
  chaincodeInvocationSpec := decoder ⟨none⟩ (txs.map fun t =>
    (t.invocationSpec, ⟨some ⟨1, some ⟨"", "cc", ""⟩, some ⟨t.args⟩⟩⟩))
  proposalResponsePayload := decoder ⟨[], []⟩ []
  chaincodeAction := decoder ⟨[], [], none, none⟩ []
  chaincodeEvents := decoder ⟨"", "", "", []⟩ []
  txReadWriteSet := decoder ⟨[]⟩ []
  kvRWSet := decoder ⟨[], []⟩ []
  approveArgs data := if data = [] then none else some "proto: cannot parse"
  commitArgs data := if data = [] then none else some "proto: cannot parse"
  transactionString _ := ""
  chaincodeEventString _ := ""
  headerTypeName _ := "ENDORSER_TRANSACTION"
  statusString _ := "SUCCESS"
  txValidationCodeString code := if code = 0 then "VALID" else "ENDORSEMENT_POLICY_FAILURE"

def ownTx : Invocation := ⟨"1", [[105]]⟩

/-- Another client's transaction, with an empty argument list. -/
def foreignTx : Invocation := ⟨"2", []⟩

/-- Both transactions in one block, the second invalidated. -/
def sharedBlock : DeliveredBlock (invocationProtos [ownTx, foreignTx]) where
  channelId := "ch"
  number := 5
  envelopes := [ownTx.envelope, foreignTx.envelope]
  channelHeaders := [⟨3, "ch", "1", Invocation.extension⟩, ⟨3, "ch", "2", Invocation.extension⟩]
  listed :=
    .cons ⟨⟨ownTx.payload, []⟩, by decide +kernel, ⟨some ownTx.header, ownTx.transaction⟩,
      by decide +kernel, ownTx.header, rfl, by decide +kernel⟩
    (.cons ⟨⟨foreignTx.payload, []⟩, by decide +kernel,
      ⟨some foreignTx.header, foreignTx.transaction⟩, by decide +kernel, foreignTx.header, rfl,
      by decide +kernel⟩ .nil)
  metadata := [[], [], [0, 10]]
  codes := [0, 10]
  filter := rfl
  codes_length := rfl

theorem waitForTx_panics_on_foreign_tx :
    ¬ ∃ answer,
      waitForTx assertions (invocationProtos [ownTx, foreignTx]) "1"
        (.ofBlock sharedBlock.full) [] = .ok answer ∧
      waitForTx assertions (invocationProtos [ownTx, foreignTx]) "1"
        (.ofFilteredBlock sharedBlock.filtered) [] = .ok answer := by
  intro h
  obtain ⟨answer, full, _⟩ := h
  have panics : waitForTx assertions (invocationProtos [ownTx, foreignTx]) "1"
      (.ofBlock sharedBlock.full) [] = .error "index out of range" := by decide +kernel
  rw [panics] at full
  cases full

example : waitForTx assertions (invocationProtos [ownTx]) "1"
    (.ofBlock ⟨some ⟨5⟩, some ⟨[ownTx.envelope]⟩, some ⟨[[], [], [0]]⟩⟩) [] =
      .ok (false, some "VALID") := by decide +kernel

end FabricCommon.Golang
