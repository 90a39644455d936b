import FabricCommon.EventTransaction

namespace FabricCommon.Golang

open PanicRun

section Requirements

variable (goutils : Goutils) (protos : Protos)

/-- The bytes of an action are those of `r`, message within message. -/
def Opens (action : Peer.TransactionAction) (r : ChaincodeActionPayload) : Prop :=
  Decodes protos.chaincodeActionPayload action.payload fun payload =>
  Decodes protos.chaincodeProposalPayload payload.chaincodeProposalPayload fun proposal =>
  Decodes protos.chaincodeInvocationSpec proposal.input fun cis =>
  ∃ endorsed, payload.action = some endorsed ∧
  Decodes protos.proposalResponsePayload endorsed.proposalResponsePayload fun response =>
  Decodes protos.chaincodeAction response.extension fun result =>
  Decodes protos.chaincodeEvents result.events fun event =>
  Decodes protos.txReadWriteSet result.results fun rwSet =>
  ∃ hyperSet, List.Forall₂ (fun ns set => Decodes protos.kvRWSet ns.rwset fun rwset =>
      set = ⟨ns.namespace_, rwset, ns.collectionHashedRwset⟩) rwSet.nsRwset hyperSet ∧
    r = ⟨⟨cis.chaincodeSpec, proposal.transientMap⟩,
      ⟨⟨response.proposalHash, ⟨hyperSet, event, result.response, result.chaincodeId⟩⟩,
        endorsed.endorsements⟩⟩

def LifecycleArgs (fcn : Bytes) (remainArgs : List Bytes) : Prop :=
  ∃ arg, remainArgs = [arg] ∧
    (isText fcn ApproveFuncName = true ∧ protos.approveArgs arg = none ∨
      isText fcn CommitFuncName = true ∧ protos.commitArgs arg = none)

/-- An approval or a commit of a chaincode definition as the peer's lifecycle chaincode leaves it:
endorsed, without transient data, event, range query or metadata write. -/
structure LifecycleInvocation (r : ChaincodeActionPayload) (spec : Peer.ChaincodeSpec)
    (id : Peer.ChaincodeID) (fcn : Bytes) (remainArgs : List Bytes) : Prop where
  transientMap : goutils.isNil (.transientMap r.transientMap) = true
  chaincode : id.name = LifecycleName
  golang : spec.type = Peer.ChaincodeSpec_GOLANG
  endorsed : ∃ response, r.action.proposalResponsePayload.extension.response = some response ∧
    response.status = Common.Status.SUCCESS
  silent : goutils.isNil (.string (protos.chaincodeEventString
    r.action.proposalResponsePayload.extension.events)) = true
  writes : ∀ set ∈ r.readWriteSet, goutils.isNil (.rangeQueriesInfo set.rwset.rangeQueriesInfo) =
    true ∧ goutils.isNil (.metadataWrites set.rwset.metadataWrites) = true
  args : LifecycleArgs protos fcn remainArgs

/-- The action invokes a chaincode with at least one argument: the lifecycle chaincode where the
header says so and another one elsewhere. -/
def Invokes (cche : Peer.ChaincodeHeaderExtension) (r : ChaincodeActionPayload) : Prop :=
  ∃ spec id input fcn remainArgs headerId,
    r.chaincodeProposalPayload.chaincodeSpec = some spec ∧ spec.chaincodeId = some id ∧
    spec.input = some input ∧ input.args = fcn :: remainArgs ∧ cche.chaincodeId = some headerId ∧
    if headerId.name = LifecycleName then
      LifecycleInvocation goutils protos r spec id fcn remainArgs
    else id.name ≠ LifecycleName

def ParseableEndorsement (signatureHeader extension data : Bytes) : Prop :=
  Decodes protos.chaincodeHeaderExtension extension fun cche =>
  Decodes protos.transaction data fun transaction =>
  ∃ action r, transaction.actions = [action] ∧ action.header = signatureHeader ∧
    Opens protos action r ∧ Invokes goutils protos cche r

def ParseableConfig (data : Bytes) : Prop :=
  Decodes protos.configEnvelope data fun config =>
  ∀ lastUpdate, config.lastUpdate = some lastUpdate →
    (protos.envelopeToConfigUpdate lastUpdate).2 = none

/-- The transactions `parseTransaction` is written for. -/
def Parseable (txBody : Common.Payload) : Prop :=
  ∃ header, txBody.header = some header ∧
  Decodes protos.channelHeader header.channelHeader fun channelHeader =>
  Decodes protos.signatureHeader header.signatureHeader fun signatureHeader =>
  Decodes protos.serializedIdentity signatureHeader.creator fun _ =>
    channelHeader.type = Common.HeaderType.CONFIG ∧ ParseableConfig protos txBody.data ∨
    channelHeader.type = Common.HeaderType.CONFIG_UPDATE ∧
      Decodes protos.configUpdateEnvelope txBody.data (fun _ => True) ∨
    channelHeader.type = Common.HeaderType.ENDORSER_TRANSACTION ∧
      ParseableEndorsement goutils protos header.signatureHeader channelHeader.extension txBody.data

end Requirements

variable {goutils : Goutils} {protos : Protos}

theorem deref_eq_ok {α : Type} {value : Option α} {a : α} :
    deref value = .ok a ↔ value = some a := by
  cases value with
  | none => simp [deref, throw_ne_ok]
  | some value => simp [deref, pure_eq_ok]

theorem indexed_eq_ok {α : Type} {values : List α} {index : Nat} {a : α} :
    indexed values index = .ok a ↔ values[index]? = some a := by
  unfold indexed
  split
  next value found => simp [found, pure_eq_ok]
  next missing => simp [missing, throw_ne_ok]

theorem unmarshalOrPanic_eq_ok {α : Type} {unmarshal : Unmarshal α} {data : Bytes} {message : α} :
    unmarshalOrPanic goutils unmarshal data = .ok message ↔ unmarshal data = (message, none) := by
  unfold unmarshalOrPanic
  obtain ⟨decoded, err⟩ := unmarshal data
  simp only [bind_eq_ok, goutils.panicError_ok, pure_eq_ok, Prod.mk.injEq]
  constructor
  · intro h
    obtain ⟨_, none, eq⟩ := h
    exact ⟨eq, none⟩
  · intro h
    obtain ⟨eq, none⟩ := h
    exact ⟨(), none, eq⟩

theorem newNsReadWriteSet_eq_ok {ns : Rwset.NsReadWriteSet} {set : NsReadWriteSet} :
    newNsReadWriteSet goutils protos ns = .ok set ↔
      Decodes protos.kvRWSet ns.rwset fun rwset =>
        set = ⟨ns.namespace_, rwset, ns.collectionHashedRwset⟩ := by
  simp only [newNsReadWriteSet, bind_eq_ok, unmarshalOrPanic_eq_ok, pure_eq_ok, Decodes,
    eq_comm (b := set)]

theorem newChaincodeActionPayload_eq_ok {action : Peer.TransactionAction}
    {r : ChaincodeActionPayload} :
    newChaincodeActionPayload goutils protos action = .ok r ↔ Opens protos action r := by
  simp only [newChaincodeActionPayload, bind_eq_ok, unmarshalOrPanic_eq_ok, deref_eq_ok, pure_eq_ok,
    mapM_eq_ok, newNsReadWriteSet_eq_ok, Opens, Decodes, eq_comm (b := r)]

theorem isText_commit {fcn : Bytes} (h : isText fcn CommitFuncName = true) :
    isText fcn ApproveFuncName = false := by
  have commit : fcn = CommitFuncName.toUTF8.data.toList := by simpa [isText] using h
  subst commit
  decide +kernel

theorem parseLifecycleArgs_eq_ok {fcn : Bytes} {remainArgs : List Bytes} :
    parseLifecycleArgs goutils protos fcn remainArgs = .ok () ↔
      LifecycleArgs protos fcn remainArgs := by
  unfold parseLifecycleArgs LifecycleArgs
  split
  next approve =>
    have other : isText fcn CommitFuncName ≠ true := fun commit => by
      simp [isText_commit commit] at approve
    split
    next arg => simp [goutils.panicError_ok, approve, other]
    next none' =>
      simp only [throw_ne_ok, false_iff]
      intro h
      obtain ⟨arg, eq, _⟩ := h
      exact none' arg eq
  next notApprove =>
    split
    next commit =>
      split
      next arg => simp [goutils.panicError_ok, notApprove, commit]
      next none' =>
        simp only [throw_ne_ok, false_iff]
        intro h
        obtain ⟨arg, eq, _⟩ := h
        exact none' arg eq
    next notCommit => simp [throw_ne_ok, notApprove, notCommit]

theorem chaincode_eq_ok {r : ChaincodeActionPayload} {spec : Peer.ChaincodeSpec}
    (h : r.chaincodeProposalPayload.chaincodeSpec = some spec) {name : String} :
    r.chaincode = .ok name ↔ ∃ id, spec.chaincodeId = some id ∧ id.name = name := by
  simp only [ChaincodeActionPayload.chaincode, bind_eq_ok, deref_eq_ok, pure_eq_ok, h,
    Option.some.injEq, exists_eq_left']

theorem parseLifecycle_eq_ok {r : ChaincodeActionPayload} {spec : Peer.ChaincodeSpec}
    {fcn : Bytes} {remainArgs : List Bytes}
    (h : r.chaincodeProposalPayload.chaincodeSpec = some spec) :
    parseLifecycle goutils protos r spec fcn remainArgs = .ok () ↔
      ∃ id, spec.chaincodeId = some id ∧
        LifecycleInvocation goutils protos r spec id fcn remainArgs := by
  simp only [parseLifecycle, bind_eq_ok, goutils.assertNil_ok, goutils.assertOK_ok, deref_eq_ok,
    chaincode_eq_ok h, forM_eq_ok, parseLifecycleArgs_eq_ok, beq_iff_eq]
  constructor
  · intro run
    obtain ⟨_, transientMap, name, ⟨id, named, rfl⟩, _, chaincode, _, golang, response, responded,
      _, status, _, silent, _, writes, args⟩ := run
    refine ⟨id, named, transientMap, chaincode, golang, ⟨response, responded, status⟩, silent, ?_,
      args⟩
    intro set mem
    obtain ⟨_, ranges, metadata⟩ := writes set mem
    exact ⟨ranges, metadata⟩
  · intro named
    obtain ⟨id, named, invocation⟩ := named
    obtain ⟨response, responded, status⟩ := invocation.endorsed
    refine ⟨(), invocation.transientMap, id.name, ⟨id, named, rfl⟩, (), invocation.chaincode, (),
      invocation.golang, response, responded, (), status, (), invocation.silent, (), ?_,
      invocation.args⟩
    intro set mem
    exact ⟨(), (invocation.writes set mem).1, (invocation.writes set mem).2⟩

theorem parseInvocation_eq_ok {r : ChaincodeActionPayload} {spec : Peer.ChaincodeSpec}
    {fcn : Bytes} {remainArgs : List Bytes} {headerId : Peer.ChaincodeID}
    (h : r.chaincodeProposalPayload.chaincodeSpec = some spec) :
    parseInvocation goutils protos r spec fcn remainArgs headerId = .ok () ↔
      ∃ id, spec.chaincodeId = some id ∧
        if headerId.name = LifecycleName then
          LifecycleInvocation goutils protos r spec id fcn remainArgs
        else id.name ≠ LifecycleName := by
  unfold parseInvocation
  by_cases lifecycle : headerId.name = LifecycleName
  · simp only [if_pos lifecycle, parseLifecycle_eq_ok h]
  · simp only [if_neg lifecycle, bind_eq_ok, deref_eq_ok, goutils.assertOK_ok, bne_iff_ne]

theorem indexed_zero {args : List Bytes} {fcn : Bytes} :
    args[0]? = some fcn ↔ args = fcn :: args.drop 1 := by
  cases args with
  | nil => simp
  | cons arg args => simp

theorem parseAction_eq_ok {signatureHeader : Bytes} {cche : Peer.ChaincodeHeaderExtension}
    {action : Peer.TransactionAction} {r : ChaincodeActionPayload} :
    parseAction goutils protos signatureHeader cche action = .ok r ↔
      action.header = signatureHeader ∧ Opens protos action r ∧ Invokes goutils protos cche r := by
  simp only [parseAction, bind_eq_ok, goutils.assertOK_ok, newChaincodeActionPayload_eq_ok,
    deref_eq_ok, indexed_eq_ok, indexed_zero, beq_iff_eq, pure_eq_ok]
  constructor
  · intro h
    obtain ⟨_, header, r', opens, spec, hspec, input, hinput, fcn, hargs, headerId, hheader, _,
      invoked, rfl⟩ := h
    obtain ⟨id, named, kind⟩ := (parseInvocation_eq_ok hspec).mp invoked
    exact ⟨header, opens, spec, id, input, fcn, input.args.drop 1, headerId, hspec, named, hinput,
      hargs, hheader, kind⟩
  · intro h
    obtain ⟨header, opens, spec, id, input, fcn, remainArgs, headerId, hspec, named, hinput, hargs,
      hheader, kind⟩ := h
    have tail : input.args.drop 1 = remainArgs := by simp [hargs]
    have invoked := (parseInvocation_eq_ok hspec).mpr ⟨id, named, kind⟩
    refine ⟨(), header, r, opens, spec, hspec, input, hinput, fcn, ?_, headerId, hheader, (), ?_,
      rfl⟩
    · rw [tail]
      exact hargs
    · rw [tail]
      exact invoked

theorem parseConfig_returns_iff {t : Transaction} {data : Bytes} :
    Returns (parseConfig goutils protos t data) ↔ ParseableConfig protos data := by
  simp only [parseConfig, returns_bind, unmarshalOrPanic_eq_ok, ParseableConfig, Decodes]
  refine exists_congr fun config => and_congr_right fun _ => ?_
  cases config.lastUpdate with
  | none => simp
  | some lastUpdate =>
    simp only [returns_bind, goutils.panicError_ok, returns_pure, Option.some.injEq, forall_eq']
    simp

theorem parseConfigUpdate_returns_iff {t : Transaction} {data : Bytes} :
    Returns (parseConfigUpdate goutils protos t data) ↔
      Decodes protos.configUpdateEnvelope data fun _ => True := by
  simp only [parseConfigUpdate, returns_bind, unmarshalOrPanic_eq_ok, returns_pure, Decodes]

theorem parseEndorserTransaction_returns_iff {t : Transaction}
    {signatureHeader extension data : Bytes} :
    Returns (parseEndorserTransaction goutils protos t signatureHeader extension data) ↔
      ParseableEndorsement goutils protos signatureHeader extension data := by
  simp only [parseEndorserTransaction, returns_bind, unmarshalOrPanic_eq_ok, ParseableEndorsement,
    Decodes]
  refine exists_congr fun cche => and_congr_right fun _ =>
    exists_congr fun transaction => and_congr_right fun _ => ?_
  constructor
  · intro returns
    split at returns
    next single =>
      obtain ⟨action, actions⟩ := List.length_eq_one_iff.mp single
      rw [actions, returns_bind] at returns
      obtain ⟨parsed, run, _⟩ := returns
      obtain ⟨r, _, first, _, _⟩ := List.forall₂_cons_left_iff.mp (mapM_eq_ok.mp run)
      exact ⟨action, r, actions, parseAction_eq_ok.mp first⟩
    next => exact absurd returns (not_returns_throw _)
  · intro h
    obtain ⟨action, r, actions, parsed⟩ := h
    have run : transaction.actions.mapM (parseAction goutils protos signatureHeader cche) =
        .ok [r] := by
      rw [actions]
      exact mapM_eq_ok.mpr (.cons (parseAction_eq_ok.mpr parsed) .nil)
    rw [if_pos (by simp [actions]), returns_bind]
    exact ⟨[r], run, returns_pure _⟩

theorem parseTransaction_returns_iff {txBody : Common.Payload} :
    Returns (parseTransaction goutils protos txBody) ↔ Parseable goutils protos txBody := by
  simp only [parseTransaction, returns_bind, deref_eq_ok, unmarshalOrPanic_eq_ok,
    getCreatorFromSignatureHeader, Parseable, Decodes]
  refine exists_congr fun header => and_congr_right fun _ =>
    exists_congr fun channelHeader => and_congr_right fun _ =>
    exists_congr fun signatureHeader => and_congr_right fun _ =>
    exists_congr fun identity => and_congr_right fun _ => ?_
  split
  next config =>
    simp [parseConfig_returns_iff, config, Common.HeaderType.CONFIG,
      Common.HeaderType.CONFIG_UPDATE, Common.HeaderType.ENDORSER_TRANSACTION]
  next notConfig =>
    split
    next update =>
      simp [parseConfigUpdate_returns_iff, update, Common.HeaderType.CONFIG,
        Common.HeaderType.CONFIG_UPDATE, Common.HeaderType.ENDORSER_TRANSACTION, Decodes]
    next notUpdate =>
      split
      next endorser =>
        simp [parseEndorserTransaction_returns_iff, endorser, Common.HeaderType.CONFIG,
          Common.HeaderType.CONFIG_UPDATE, Common.HeaderType.ENDORSER_TRANSACTION]
      next other => simp [notConfig, notUpdate, other]

theorem parseConfig_header {t t' : Transaction} {data : Bytes}
    (run : parseConfig goutils protos t data = .ok t') :
    t'.txId = t.txId ∧ t'.txType = t.txType := by
  simp only [parseConfig, bind_eq_ok] at run
  obtain ⟨config, _, run⟩ := run
  split at run
  next =>
    obtain rfl := pure_eq_ok.mp run
    exact ⟨rfl, rfl⟩
  next =>
    obtain ⟨_, _, run⟩ := bind_eq_ok.mp run
    obtain rfl := pure_eq_ok.mp run
    exact ⟨rfl, rfl⟩

theorem parseConfigUpdate_header {t t' : Transaction} {data : Bytes}
    (run : parseConfigUpdate goutils protos t data = .ok t') :
    t'.txId = t.txId ∧ t'.txType = t.txType := by
  simp only [parseConfigUpdate, bind_eq_ok, pure_eq_ok] at run
  obtain ⟨_, _, rfl⟩ := run
  exact ⟨rfl, rfl⟩

theorem parseEndorserTransaction_header {t t' : Transaction}
    {signatureHeader extension data : Bytes}
    (run : parseEndorserTransaction goutils protos t signatureHeader extension data = .ok t') :
    t'.txId = t.txId ∧ t'.txType = t.txType := by
  simp only [parseEndorserTransaction, bind_eq_ok] at run
  obtain ⟨_, _, _, _, run⟩ := run
  split at run
  next =>
    obtain ⟨_, _, run⟩ := bind_eq_ok.mp run
    obtain rfl := pure_eq_ok.mp run
    exact ⟨rfl, rfl⟩
  next => cases run

/-- Whatever else it reads, a parsed transaction has the id and the type of its channel header. -/
theorem parseTransaction_header {txBody : Common.Payload} {t : Transaction}
    {header : Common.Header} {channelHeader : Common.ChannelHeader}
    (hheader : txBody.header = some header)
    (hchannel : protos.channelHeader header.channelHeader = (channelHeader, none))
    (run : parseTransaction goutils protos txBody = .ok t) :
    t.txId = channelHeader.txId ∧ t.txType = channelHeader.type := by
  simp only [parseTransaction, bind_eq_ok, deref_eq_ok, unmarshalOrPanic_eq_ok, hheader,
    Option.some.injEq, exists_eq_left', hchannel, Prod.mk.injEq, and_true] at run
  obtain ⟨_, _, _, _, run⟩ := run
  split at run
  next => exact parseConfig_header run
  next =>
    split at run
    next => exact parseConfigUpdate_header run
    next =>
      split at run
      next => exact parseEndorserTransaction_header run
      next => cases run

end FabricCommon.Golang
