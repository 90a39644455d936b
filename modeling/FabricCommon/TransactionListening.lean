import FabricCommon.DeliverStream

namespace FabricCommon.Golang

open PanicRun

/-- What a peer has to send to a listener, full and filtered: blocks, at the end of them a status
or nothing, and what `Recv` reports then, `io.EOF` where there is no error. -/
structure ListenedChannel (protos : Protos) where
  blocks : List (DeliveredBlock protos)
  privateDataMap : DeliveredBlock protos → List (UInt64 × Bytes)
  ending : Option Common.Status
  recvErr : Option String

namespace ListenedChannel

variable {protos : Protos} (channel : ListenedChannel protos)

def full (b : DeliveredBlock protos) : Peer.DeliverResponse :=
  .blockAndPrivateData ⟨some b.full, channel.privateDataMap b⟩

def filtered (b : DeliveredBlock protos) : Peer.DeliverResponse :=
  .filteredBlock (some b.filtered)

def responses (deliver : DeliveredBlock protos → Peer.DeliverResponse) :
    List Peer.DeliverResponse :=
  channel.blocks.map deliver ++ channel.ending.toList.map .status

def deliverClient : Peer.DeliverClient where
  deliverWithPrivateData := .ok ⟨none, channel.responses channel.full, channel.recvErr⟩
  deliverFiltered := .ok ⟨none, channel.responses filtered, channel.recvErr⟩

end ListenedChannel

section

variable (goutils : Goutils) (protos : Protos)

namespace TransactionListener

/-- It replaces whatever the eventer was built with. -/
def WaitForTx (eventer : Eventer String) (txid : String) : Eventer String :=
  { eventer with
    Continue := some fun this all => StateT.lift (waitForTx goutils protos txid this all) }

/-- A listener on the eventer of the constructor, from there to the end of `SendRecv`. -/
def listen (c : BlockEventer String) (deliverClient : Peer.DeliverClient) (txid : String) :
    GoM (Option String × List DeliverResponseType) := do
  let eventer ← c.make goutils protos id deliverClient
  let (answer, _) ← (WaitForTx goutils protos eventer txid).sendRecv goutils []
  return answer

end TransactionListener

/-- What is left to say when no block has the transaction: the status at the end, or nothing. -/
def endingAnswer (count : Nat) (ending : Option Common.Status) (recvErr : Option String) :
    GoM (Option String × Nat) :=
  match ending, recvErr with
  | some status, _ =>
    if status = Common.Status.SUCCESS ∨ status = Common.Status.NOT_FOUND then
      .ok (some (protos.statusString status), count + 1)
    else .error ("Unknown DeliverResponse_Status=" ++ protos.statusString status)
  | none, some err => .error err
  | none, none => .ok (none, count)

variable {protos} (txid : String)

/-- The code of the transaction, in a block that has it. -/
def DeliveredBlock.code (b : DeliveredBlock protos) : Option Peer.TxValidationCode :=
  filteredCode txid b.filtered.filteredTransactions

/-- The blocks up to the first one that has the transaction. -/
def heard : List (DeliveredBlock protos) → List (DeliveredBlock protos)
  | [] => []
  | b :: bs => b :: if (b.code txid).isSome then [] else heard bs

/-- The code of the transaction as the first block tells it that has one, with the number of
responses up to there, `count` of them before the blocks. -/
def answerFrom (count : Nat) (blocks : List (DeliveredBlock protos))
    (ending : Option Common.Status) (recvErr : Option String) : GoM (Option String × Nat) :=
  match blocks.findSome? (DeliveredBlock.code txid) with
  | some code => .ok (some (protos.txValidationCodeString code), count + (heard txid blocks).length)
  | none => endingAnswer protos (count + blocks.length) ending recvErr

def ListenedChannel.answer (channel : ListenedChannel protos) : GoM (Option String × Nat) :=
  answerFrom txid 0 channel.blocks channel.ending channel.recvErr

end

section

variable {goutils : Goutils} {protos : Protos} {txid : String} {recvErr : Option String}
  {deliver : DeliveredBlock protos → Peer.DeliverResponse} {bs : List (DeliveredBlock protos)}
  {history : List DeliverResponseType} {receiptData : Option String} {log : List ContinueCall}

/-- What the loop of `SendRecv` answers, with the number of responses it has taken. -/
def counted (x : GoM ((Option String × List DeliverResponseType) × List ContinueCall)) :
    GoM (Option String × Nat) :=
  x.map fun out => (out.1.1, out.1.2.length)

/-- The loop of `SendRecv` with the function of `WaitForTx`. -/
def receiveTx (goutils : Goutils) (protos : Protos) (txid : String) (recvErr : Option String)
    (responses : List Peer.DeliverResponse) (receiptData : Option String)
    (history : List DeliverResponseType) (log : List ContinueCall) :
    GoM (Option String × Nat) :=
  counted (receive
    (some fun this all => StateT.lift (waitForTx goutils protos txid this all))
    recvErr responses receiptData history log)

theorem receiveTx_cons {response : Peer.DeliverResponse} {rest : List Peer.DeliverResponse} :
    receiveTx goutils protos txid recvErr (response :: rest) receiptData history log =
      waitForTx goutils protos txid (translate response) (history ++ [translate response]) >>=
        fun out =>
          if out.1 then
            receiveTx goutils protos txid recvErr rest out.2 (history ++ [translate response]) log
          else .ok (out.2, history.length + 1) := by
  simp only [receiveTx, counted, receive_cons]
  show ((waitForTx goutils protos txid (translate response) (history ++ [translate response]) >>=
    fun out => pure (out, log)) >>= _).map _ = _
  cases answered : waitForTx goutils protos txid (translate response)
      (history ++ [translate response]) with
  | error err => rfl
  | ok out =>
    obtain ⟨toContinue, result⟩ := out
    cases toContinue with
    | true => rfl
    | false =>
      show (Except.ok (result, (history ++ [translate response]).length) : GoM _) = _
      rw [List.length_append]
      rfl

theorem waitForTx_status (status : Common.Status) (all : List DeliverResponseType) :
    waitForTx goutils protos txid (translate (.status status)) all =
      if status = Common.Status.SUCCESS ∨ status = Common.Status.NOT_FOUND then
        .ok (false, some (protos.statusString status))
      else .error ("Unknown DeliverResponse_Status=" ++ protos.statusString status) := by
  by_cases known : status = Common.Status.SUCCESS ∨ status = Common.Status.NOT_FOUND
  · simp only [waitForTx, continueBuilder, continueAll, statusContinue, translate, known, if_true]
    rfl
  · simp only [waitForTx, continueBuilder, continueAll, statusContinue, translate, known, if_false]
    rfl

theorem receiveTx_ending (ending : Option Common.Status) :
    receiveTx goutils protos txid recvErr (ending.toList.map .status) none history log =
      endingAnswer protos history.length ending recvErr := by
  cases ending with
  | none => cases recvErr <;> rfl
  | some status =>
    show receiveTx goutils protos txid recvErr [.status status] none history log = _
    rw [receiveTx_cons, waitForTx_status]
    unfold endingAnswer
    by_cases known : status = Common.Status.SUCCESS ∨ status = Common.Status.NOT_FOUND
    · simp [known, bind, Except.bind]
    · simp [known, bind, Except.bind]

theorem answerFrom_found {b : DeliveredBlock protos} {code : Peer.TxValidationCode}
    (has : b.code txid = some code) (count : Nat) (ending : Option Common.Status) :
    answerFrom txid count (b :: bs) ending recvErr =
      .ok (some (protos.txValidationCodeString code), count + 1) := by
  simp [answerFrom, heard, has]

theorem answerFrom_passed {b : DeliveredBlock protos} (has : b.code txid = none) (count : Nat)
    (ending : Option Common.Status) :
    answerFrom txid count (b :: bs) ending recvErr =
      answerFrom txid (count + 1) bs ending recvErr := by
  simp only [answerFrom, heard, has, List.findSome?_cons, List.length_cons, Option.isSome_none,
    Bool.false_eq_true, if_false, Nat.add_assoc, Nat.add_comm 1]

/-- The loop comes to the answer when the blocks it hears tell their codes. -/
theorem receiveTx_blocks (ending : Option Common.Status)
    (tells : ∀ b ∈ heard txid bs, ∀ all, waitForTx goutils protos txid (translate (deliver b)) all =
      .ok (found protos (b.code txid))) :
    receiveTx goutils protos txid recvErr (bs.map deliver ++ ending.toList.map .status) none history
        log = answerFrom txid history.length bs ending recvErr := by
  induction bs generalizing history with
  | nil => exact receiveTx_ending ending
  | cons b bs ih =>
    have first := tells b List.mem_cons_self (history ++ [translate (deliver b)])
    rw [List.map_cons, List.cons_append, receiveTx_cons, first]
    cases has : b.code txid with
    | some code =>
      rw [answerFrom_found has]
      rfl
    | none =>
      have rest : ∀ b' ∈ heard txid bs, ∀ all,
          waitForTx goutils protos txid (translate (deliver b')) all =
            .ok (found protos (b'.code txid)) := by
        intro b' mem
        refine tells b' (List.mem_cons_of_mem b ?_)
        simpa [has] using mem
      rw [answerFrom_passed has, ← List.length_singleton (a := translate (deliver b)),
        ← List.length_append]
      exact ih rest

/-- A block that the function panics on ends the loop, if it is heard. -/
theorem receiveTx_panics {more : List Peer.DeliverResponse}
    (decided : ∀ b ∈ heard txid bs, ∀ all,
      waitForTx goutils protos txid (translate (deliver b)) all = .ok (found protos (b.code txid)) ∨
        ¬ Returns (waitForTx goutils protos txid (translate (deliver b)) all))
    (panics : ∃ b ∈ heard txid bs, ∀ all,
      ¬ Returns (waitForTx goutils protos txid (translate (deliver b)) all)) :
    ¬ Returns (receiveTx goutils protos txid recvErr (bs.map deliver ++ more) none history
      log) := by
  induction bs generalizing history with
  | nil =>
    obtain ⟨b, mem, _⟩ := panics
    cases mem
  | cons b bs ih =>
    rw [List.map_cons, List.cons_append, receiveTx_cons, returns_bind]
    rintro ⟨out, answered, returns⟩
    rcases decided b List.mem_cons_self (history ++ [translate (deliver b)]) with tells | raises
    · obtain rfl := Except.ok.inj (tells.symm.trans answered)
      obtain ⟨b', mem, raises⟩ := panics
      cases has : b.code txid with
      | some code =>
        obtain rfl : b' = b := by simpa [heard, has] using mem
        exact raises _ ⟨_, tells⟩
      | none =>
        have rest : ∀ b' ∈ heard txid bs, b' ∈ heard txid (b :: bs) := by
          intro b' mem
          refine List.mem_cons_of_mem b ?_
          simpa [has] using mem
        simp only [has, found] at returns
        refine ih (fun b' mem => decided b' (rest b' mem)) ⟨b', ?_, raises⟩ returns
        rcases List.mem_cons.mp mem with rfl | mem
        · exact absurd ⟨_, tells⟩ (raises (history ++ [translate (deliver b')]))
        · simpa [has] using mem
    · exact raises ⟨out, answered⟩

end

namespace TransactionListener

variable {goutils : Goutils} {protos : Protos}

/-- The answer of a listener with the number of responses it has taken. -/
def heardBy (goutils : Goutils) (c : BlockEventer String) (channel : ListenedChannel protos)
    (txid : String) : GoM (Option String × Nat) :=
  (listen goutils protos c channel.deliverClient txid).map fun out => (out.1, out.2.length)

/-- Once the stream is open, the loop of `SendRecv` is all there is to it. -/
theorem heardBy_eq {c : BlockEventer String} {channel : ListenedChannel protos} {txid : String}
    {eventer : Eventer String} {responses : List Peer.DeliverResponse}
    (made : c.make goutils protos id channel.deliverClient = .ok eventer)
    (stream : eventer.stream = some ⟨none, responses, channel.recvErr⟩) :
    heardBy goutils c channel txid =
      receiveTx goutils protos txid channel.recvErr responses none [] [] := by
  have held : (WaitForTx goutils protos eventer txid).stream = some _ := stream
  have run : (WaitForTx goutils protos eventer txid).sendRecv goutils [] = _ :=
    BlockEventer.sendRecv_eq held rfl []
  simp only [heardBy, listen, made, receiveTx, counted]
  show ((WaitForTx goutils protos eventer txid).sendRecv goutils [] >>= _).map _ = _
  rw [run]
  simp only [WaitForTx]
  cases receive _ channel.recvErr responses none [] [] <;> rfl

variable (goutils) in
/-- Listening to filtered blocks always comes to the answer of the channel, and listening to full
blocks does when each block up to there can be parsed. If one cannot, it panics. -/
theorem waitForTx_over_streams (channel : ListenedChannel protos) (txid : String)
    (continueFcns : List (UserFcn String)) :
    heardBy goutils .NewSimpleBlockEventer channel txid = channel.answer txid ∧
      ((∀ b ∈ heard txid channel.blocks, ∀ data ∈ b.envelopes,
          ParseableEnvelope goutils protos data) →
        heardBy goutils (.NewBlockEventer continueFcns) channel txid = channel.answer txid) ∧
      ((∃ b ∈ heard txid channel.blocks, ∃ data ∈ b.envelopes,
          ¬ ParseableEnvelope goutils protos data) →
        ¬ Returns (heardBy goutils (.NewBlockEventer continueFcns) channel txid)) := by
  have simple : heardBy goutils .NewSimpleBlockEventer channel txid = _ :=
    heardBy_eq (BlockEventer.make_NewSimpleBlockEventer rfl) rfl
  have full : heardBy goutils (.NewBlockEventer continueFcns) channel txid = _ :=
    heardBy_eq (BlockEventer.make_NewBlockEventer rfl continueFcns) rfl
  have parsed : ∀ (b : DeliveredBlock protos) (all : List DeliverResponseType),
      (∀ data ∈ b.envelopes, ParseableEnvelope goutils protos data) →
        waitForTx goutils protos txid (translate (channel.full b)) all =
          .ok (found protos (b.code txid)) := by
    intro b all parseable
    obtain ⟨trimmed, run⟩ := b.fromFullBlock_returns_iff.mpr parseable
    exact waitForTx_full_eq run txid all
  have raises : ∀ (b : DeliveredBlock protos) (all : List DeliverResponseType),
      ¬ (∀ data ∈ b.envelopes, ParseableEnvelope goutils protos data) →
        ¬ Returns (waitForTx goutils protos txid (translate (channel.full b)) all) := by
    intro b all unparseable returns
    obtain ⟨answer, full⟩ := returns
    have read : waitForTx goutils protos txid (.ofBlock b.full) all = .ok answer := full
    rw [waitForTx_full] at read
    cases run : fromFullBlock goutils protos b.full with
    | error err =>
      rw [run] at read
      cases read
    | ok trimmed => exact unparseable (b.fromFullBlock_returns_iff.mp ⟨trimmed, run⟩)
  rw [simple, full]
  refine ⟨receiveTx_blocks _ fun b _ all => waitForTx_filtered txid b.filtered all, ?_, ?_⟩
  · intro parseable
    exact receiveTx_blocks _ fun b mem all => parsed b all (parseable b mem)
  · rintro ⟨b, mem, data, listed, unparseable⟩
    refine receiveTx_panics ?_ ⟨b, mem, fun all => ?_⟩
    · intro b' _ all
      by_cases parseable : ∀ data ∈ b'.envelopes, ParseableEnvelope goutils protos data
      · exact Or.inl (parsed b' all parseable)
      · exact Or.inr (raises b' all parseable)
    · exact raises b all fun parseable => unparseable (parseable data listed)

end TransactionListener

end FabricCommon.Golang
