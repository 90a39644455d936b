import FabricCommon.LifecycleProposal

namespace FabricCommon

open ProtoLong

/-- `ProposalManager.send` with the handler that a query or a join sets. -/
def sendHandled {α : Type} (handler : ProposalResponse → Except InterceptorError α)
    (peers : Except String ProposalResponse) : Except LifecycleError (ProposalResponse × α) :=
  match peers with
  | .error message => .error (.transport message)
  | .ok results =>
    match handler results with
    | .error err => .error (.intercepted err)
    | .ok accepted => .ok (results, accepted)

def isTxNotFound (txId : String) (response : PeerResponse) : Bool :=
  response.status = 500 && response.message =
    "Failed to get transaction with id " ++ txId ++ ", error no such transaction ID [" ++ txId ++
      "] in index"

/-- Whether the result is marked `NotFound`. -/
def TxNotFound (txId : String) (result : ProposalResponse) : Except InterceptorError Bool :=
  match SanCheck result with
  | .error err => .error err
  | .ok endorsementErrors =>
    if endorsementErrors.length > 0 then
      let notFoundCounter := endorsementErrors.countP fun r => isTxNotFound txId r.response
      if notFoundCounter = endorsementErrors.length then .ok true
      else .error (.ENDORSE_ERROR (endorsementErrors.foldl reportByUrl []))
    else .ok false

def hasJoined (channelName : String) (response : ReportedResponse) : Bool :=
  response.status = 500 && response.message =
    "cannot create ledger from genesis block: ledger [" ++ channelName ++
      "] already exists with state [ACTIVE]"

structure BlockchainInfo where
  height : ULong
  currentBlockHash : Buffer
  previousBlockHash : Buffer

structure ChainInfo where
  height : Int
  currentBlockHash : String
  previousBlockHash : String

namespace QueryHub

/-- Nothing is returned when every peer that failed has joined already. -/
def join (channelName : String) (peers : Except String ProposalResponse) :
    Except LifecycleError (Option ProposalResponse) :=
  match sendHandled (EndorseALL · none) peers with
  | .error (.intercepted (.ENDORSE_ERROR errors)) =>
    if errors.all fun entry => hasJoined channelName entry.2 then .ok none
    else .error (.intercepted (.ENDORSE_ERROR errors))
  | .error err => .error err
  | .ok (result, _) => .ok (some result)

-- what the SDK adds to the result of `send`, which it does for a proposal of the type `Query` only
variable (queryResults : ProposalResponse → Option (List Buffer))

/-- `queryResults.map`. -/
def mapResults {α : Type} (decode : Buffer → Except String α) (result : ProposalResponse) :
    Except LifecycleError (List α) :=
  match queryResults result with
  | none => .error (.thrown (.TypeError "Cannot read properties of undefined (reading 'map')"))
  | some payloads => (payloads.mapM decode).mapError .decode

def getChainInfo (hex : Buffer → String)
    (decodeBlockchainInfo : Buffer → Except String BlockchainInfo)
    (peers : Except String ProposalResponse) : Except LifecycleError (List ChainInfo) := do
  let (result, _) ← sendHandled (EndorseALL · none) peers
  let infos ← mapResults queryResults decodeBlockchainInfo result
  return infos.map fun info =>
    ⟨info.height.val.toInt, hex info.currentBlockHash, hex info.previousBlockHash⟩

def tx {Transaction : Type} (decodeTransaction : Buffer → Except String Transaction)
    (txId : String) (peers : Except String ProposalResponse) :
    Except LifecycleError (List Transaction) := do
  let (result, NotFound) ← sendHandled (TxNotFound txId) peers
  if NotFound then return []
  else mapResults queryResults decodeTransaction result

variable {queryResults}

theorem getChainInfo_eq_ok {hex : Buffer → String}
    {decodeBlockchainInfo : Buffer → Except String BlockchainInfo} {result : ProposalResponse}
    {infos : List ChainInfo}
    (run : getChainInfo queryResults hex decodeBlockchainInfo (.ok result) = .ok infos) :
    ∃ payloads, queryResults result = some payloads ∧
      List.Forall₂ (fun payload info => ∃ decoded, decodeBlockchainInfo payload = .ok decoded ∧
        info.height = decoded.height.val.toInt) payloads infos := by
  obtain ⟨⟨result', _⟩, sent, run⟩ := PanicRun.bind_eq_ok.mp run
  obtain ⟨decoded, all, run⟩ := PanicRun.bind_eq_ok.mp run
  obtain rfl := PanicRun.pure_eq_ok.mp run
  have same : result' = result := by
    simp only [sendHandled] at sent
    split at sent
    next => cases sent
    next =>
      cases sent
      rfl
  subst same
  cases given : queryResults result' with
  | none =>
    simp only [mapResults, given] at all
    cases all
  | some payloads =>
    simp only [mapResults, given] at all
    refine ⟨payloads, rfl, ?_⟩
    rw [List.forall₂_map_right_iff]
    refine (PanicRun.mapM_eq_ok.mp (PanicRun.mapError_eq_ok.mp all)).imp ?_
    intro payload info made
    exact ⟨info, made, rfl⟩

end QueryHub

end FabricCommon
