import FabricCommon.EventMessages
import FabricCommon.PanicRun

namespace FabricCommon.Golang

def LifecycleName : String := "_lifecycle"
def ApproveFuncName : String := "ApproveChaincodeDefinitionForMyOrg"
def CommitFuncName : String := "CommitChaincodeDefinition"

structure NsReadWriteSet where
  namespace_ : String
  rwset : Rwset.KVRWSet
  collectionHashedRwset : List Rwset.CollectionHashedReadWriteSet

structure ChaincodeAction where
  results : List NsReadWriteSet
  events : Peer.ChaincodeEvent
  response : Option Peer.Response
  chaincodeId : Option Peer.ChaincodeID

structure ProposalResponsePayload where
  proposalHash : Bytes
  extension : ChaincodeAction

structure ChaincodeEndorsedAction where
  proposalResponsePayload : ProposalResponsePayload
  endorsements : List Peer.Endorsement

structure ChaincodeProposalPayload where
  chaincodeSpec : Option Peer.ChaincodeSpec
  transientMap : List (String × Bytes)

structure ChaincodeActionPayload where
  chaincodeProposalPayload : ChaincodeProposalPayload
  action : ChaincodeEndorsedAction

namespace ChaincodeActionPayload

def transientMap (p : ChaincodeActionPayload) : List (String × Bytes) :=
  p.chaincodeProposalPayload.transientMap

def chaincode (p : ChaincodeActionPayload) : GoM String := do
  let chaincodeSpec ← deref p.chaincodeProposalPayload.chaincodeSpec
  let chaincodeId ← deref chaincodeSpec.chaincodeId
  return chaincodeId.name

def readWriteSet (p : ChaincodeActionPayload) : List NsReadWriteSet :=
  p.action.proposalResponsePayload.extension.results

end ChaincodeActionPayload

structure Transaction where
  txType : Common.HeaderType
  txId : String
  signatureHeader : Common.SignatureHeader
  serializedIdentity : Msp.SerializedIdentity
  config : Option Common.Config
  configUpdateEnvelope : Option Common.ConfigUpdateEnvelope
  chaincodeActions : List ChaincodeActionPayload

section

variable (goutils : Goutils) (protos : Protos)

/-- A decoder and `goutils.PanicError` on its error; also the `OrPanic` decoders of `protoutil`. -/
def unmarshalOrPanic {α : Type} (unmarshal : Unmarshal α) (data : Bytes) : GoM α := do
  let (message, err) := unmarshal data
  goutils.panicError err
  return message

def getCreatorFromSignatureHeader (signatureHeader : Common.SignatureHeader) :
    GoM Msp.SerializedIdentity :=
  unmarshalOrPanic goutils protos.serializedIdentity signatureHeader.creator

/-- The loop of `newChaincodeActionPayload` over the namespaces, for one of them. -/
def newNsReadWriteSet (nsReadWriteSet : Rwset.NsReadWriteSet) : GoM NsReadWriteSet := do
  let rwset ← unmarshalOrPanic goutils protos.kvRWSet nsReadWriteSet.rwset
  return ⟨nsReadWriteSet.namespace_, rwset, nsReadWriteSet.collectionHashedRwset⟩

def newChaincodeActionPayload (txActions : Peer.TransactionAction) :
    GoM ChaincodeActionPayload := do
  let chaincodeActionPayload ←
    unmarshalOrPanic goutils protos.chaincodeActionPayload txActions.payload
  let ccProposalPayloadBytes := chaincodeActionPayload.chaincodeProposalPayload
  let chaincodeProposalPayload ←
    unmarshalOrPanic goutils protos.chaincodeProposalPayload ccProposalPayloadBytes
  let cis ← unmarshalOrPanic goutils protos.chaincodeInvocationSpec chaincodeProposalPayload.input
  let action ← deref chaincodeActionPayload.action
  let pRespPayload ←
    unmarshalOrPanic goutils protos.proposalResponsePayload action.proposalResponsePayload
  let chaincodeAction ← unmarshalOrPanic goutils protos.chaincodeAction pRespPayload.extension
  let chaincodeEvent ← unmarshalOrPanic goutils protos.chaincodeEvents chaincodeAction.events
  let rwSet ← unmarshalOrPanic goutils protos.txReadWriteSet chaincodeAction.results
  let hyperSet ← rwSet.nsRwset.mapM (newNsReadWriteSet goutils protos)
  return {
    chaincodeProposalPayload := {
      chaincodeSpec := cis.chaincodeSpec
      transientMap := chaincodeProposalPayload.transientMap }
    action := {
      endorsements := action.endorsements
      proposalResponsePayload := {
        proposalHash := pRespPayload.proposalHash
        extension := {
          results := hyperSet
          events := chaincodeEvent
          response := chaincodeAction.response
          chaincodeId := chaincodeAction.chaincodeId } } } }

/-- `string(arg) == text`: the bytes of the argument are those of the text. -/
def isText (arg : Bytes) (text : String) : Bool :=
  arg == text.toUTF8.data.toList

/-- The `switch fcn` of a lifecycle transaction. -/
def parseLifecycleArgs (fcn : Bytes) (remainArgs : List Bytes) : GoM Unit :=
  if isText fcn ApproveFuncName then
    match remainArgs with
    | [arg] => goutils.panicError (protos.approveArgs arg)
    | _ => throw (ApproveFuncName ++ " has invalid args length")
  else if isText fcn CommitFuncName then
    match remainArgs with
    | [arg] => goutils.panicError (protos.commitArgs arg)
    | _ => throw (CommitFuncName ++ " has invalid args length")
  else throw "unknown function in lifecycle chaincode"

/-- What `parseTransaction` asserts of a transaction whose header names the lifecycle chaincode. -/
def parseLifecycle (chaincodeActionPayload : ChaincodeActionPayload)
    (chaincodeSpec : Peer.ChaincodeSpec) (fcn : Bytes) (remainArgs : List Bytes) : GoM Unit := do
  let extension := chaincodeActionPayload.action.proposalResponsePayload.extension
  goutils.assertNil (.transientMap chaincodeActionPayload.transientMap)
    "chaincode lifecycle operation should have nil transientMap"
  let chaincode ← chaincodeActionPayload.chaincode
  goutils.assertOK (chaincode == LifecycleName)
    "ChaincodeSpec.ChaincodeId.Name != LifecycleName in _lifecycle transaction"
  goutils.assertOK (chaincodeSpec.type == Peer.ChaincodeSpec_GOLANG)
    "chaincode lifecycle should be a golang chaincode"
  let response ← deref extension.response
  goutils.assertOK (response.status == Common.Status.SUCCESS)
    "chaincode lifecycle tx should be status:200"
  goutils.assertNil (.string (protos.chaincodeEventString extension.events))
    "chaincode lifecycle should have no event"
  forM chaincodeActionPayload.readWriteSet fun readWriteSet => do
    goutils.assertNil (.rangeQueriesInfo readWriteSet.rwset.rangeQueriesInfo)
      "_lifecycle has nil RangeQueriesInfo"
    goutils.assertNil (.metadataWrites readWriteSet.rwset.metadataWrites)
      "_lifecycle has nil RangeQueriesInfo"
  parseLifecycleArgs goutils protos fcn remainArgs

def parseInvocation (chaincodeActionPayload : ChaincodeActionPayload)
    (chaincodeSpec : Peer.ChaincodeSpec) (fcn : Bytes) (remainArgs : List Bytes)
    (headerChaincodeId : Peer.ChaincodeID) : GoM Unit :=
  if headerChaincodeId.name = LifecycleName then
    parseLifecycle goutils protos chaincodeActionPayload chaincodeSpec fcn remainArgs
  else do
    let chaincodeId ← deref chaincodeSpec.chaincodeId
    goutils.assertOK (chaincodeId.name != LifecycleName)
      "ChaincodeSpec.ChaincodeId.Name == LifecycleName in normal transaction"

/-- The body of the loop over the actions of an endorser transaction. -/
def parseAction (signatureHeader : Bytes) (cche : Peer.ChaincodeHeaderExtension)
    (action : Peer.TransactionAction) : GoM ChaincodeActionPayload := do
  goutils.assertOK (action.header == signatureHeader)
    "logic change on fabric function protoutil.CreateSignedTx"
  let chaincodeActionPayload ← newChaincodeActionPayload goutils protos action
  let chaincodeSpec ← deref chaincodeActionPayload.chaincodeProposalPayload.chaincodeSpec
  let input ← deref chaincodeSpec.input
  let fcn ← indexed input.args 0
  let remainArgs := input.args.drop 1
  let headerChaincodeId ← deref cche.chaincodeId
  parseInvocation goutils protos chaincodeActionPayload chaincodeSpec fcn remainArgs
    headerChaincodeId
  return chaincodeActionPayload

/-- The `HeaderType_CONFIG` case: the genesis block has no last update. -/
def parseConfig (t : Transaction) (data : Bytes) : GoM Transaction := do
  let config ← unmarshalOrPanic goutils protos.configEnvelope data
  match config.lastUpdate with
  | none => return { t with config := config.config }
  | some lastUpdate =>
    let (configUpdate, err) := protos.envelopeToConfigUpdate lastUpdate
    goutils.panicError err
    return { t with config := config.config, configUpdateEnvelope := some configUpdate }

def parseConfigUpdate (t : Transaction) (data : Bytes) : GoM Transaction := do
  let configUpdateEnv ← unmarshalOrPanic goutils protos.configUpdateEnvelope data
  return { t with configUpdateEnvelope := some configUpdateEnv }

def parseEndorserTransaction (t : Transaction) (signatureHeader extension data : Bytes) :
    GoM Transaction := do
  let cche ← unmarshalOrPanic goutils protos.chaincodeHeaderExtension extension
  let transaction ← unmarshalOrPanic goutils protos.transaction data
  if transaction.actions.length = 1 then
    let chaincodeActions ←
      transaction.actions.mapM (parseAction goutils protos signatureHeader cche)
    return { t with chaincodeActions }
  else throw (protos.transactionString transaction)

def parseTransaction (txBody : Common.Payload) : GoM Transaction := do
  let header ← deref txBody.header
  let channelHeader ← unmarshalOrPanic goutils protos.channelHeader header.channelHeader
  let signatureHeader ← unmarshalOrPanic goutils protos.signatureHeader header.signatureHeader
  let serializedIdentity ← getCreatorFromSignatureHeader goutils protos signatureHeader
  let t : Transaction := {
    txType := channelHeader.type
    txId := channelHeader.txId
    signatureHeader, serializedIdentity
    config := none
    configUpdateEnvelope := none
    chaincodeActions := [] }
  if t.txType = Common.HeaderType.CONFIG then parseConfig goutils protos t txBody.data
  else if t.txType = Common.HeaderType.CONFIG_UPDATE then
    parseConfigUpdate goutils protos t txBody.data
  else if t.txType = Common.HeaderType.ENDORSER_TRANSACTION then
    parseEndorserTransaction goutils protos t header.signatureHeader channelHeader.extension
      txBody.data
  else throw ("invalid header type " ++ protos.headerTypeName channelHeader.type)

end

end FabricCommon.Golang
