import FabricCommon.JsonEdit
import FabricCommon.JsonPolicy
import FabricCommon.ProtoLong
import Mathlib.Data.List.Infix
import Mathlib.Data.Nat.Log

namespace FabricCommon

open JsonEdit ProtoLong

/-- What an operation throws: an exception of the engine itself, or an error with a message. -/
inductive ConfigError where
  | TypeError
  | Error (message : String)
  deriving DecidableEq, Repr

structure HostPort where
  host : String
  port : Option Json

/-- `({host, port}) => ({host: host.toString(), port})`; a port that is undefined is left out. -/
def HostPort.toJson (peer : HostPort) : Json :=
  .object (("host", .str peer.host) :: peer.port.toList.map fun port => ("port", port))

/-- The paths of the PEM files of an organisation. -/
structure OrgPems where
  admins : List String := []
  root_certs : List String := []
  tls_root_certs : List String := []

/-- The operations with their arguments. -/
inductive ConfigOp where
  | deleteMSP (OrgName channelGroupType : String)
  | assignDictator (MSPID channelGroupType : String)
  | setAnchorPeers (orgName : String) (anchorPeers : List HostPort)
  | createOrUpdateOrg (OrgName MSPID channelGroupType : String) (pems : OrgPems)
      (skipIfExist : Bool)
  | setCapability (version : String)
  | addOrdererAddress (newAddr : String)
  | setConsensusType (type : String)
  | setConsensusMetadata (consenters options : Option Json)
  | maintenanceMode (isDirectionIn : Bool)

namespace ConfigFactory

/-- An edit of the configuration. Its objects are read and written by their own keys: the names they
inherit and the indices of an array are not names of groups, values or organisations. -/
abbrev Edit := Json → Except ConfigError Json

section Access

/-- In strict mode no property can be set on a primitive. One that an array is given under a name is
left out when the array is written as JSON. -/
def writable : Json → Except ConfigError Unit
  | .arr _ => .ok ()
  | _ => .error .TypeError

/-- `container[key] = value`. -/
def assign (key : String) (value : Except ConfigError Json) : Edit :=
  atKey (fun container => do let _ ← value; writable container) key fun _ => do
    let json ← value
    return some json

def updateElse (update : Edit) (create : Except ConfigError Json) :
    Option Json → Except ConfigError Json
  | some json => if json.truthy then update json else create
  | none => create

/-- `if (container[key]) { update } else { container[key] = create }`. -/
def updateOrCreate (key : String) (update : Edit) (create : Except ConfigError Json) : Edit :=
  atKey (fun container => do let _ ← create; writable container) key fun old => do
    let json ← updateElse update create old
    return some json

/-- `delete container[key]`. -/
def deleteKey (key : String) : Edit :=
  atKey (fun
    | .null => .error .TypeError
    | _ => .ok ()) key fun _ => .ok none

/-- `edit` on what a chain of property reads comes to. -/
def reach (path : JsonPath) (edit : Edit) : Edit := under .TypeError path edit

end Access

section Paths

def channelGroup (channelGroupType : String) : JsonPath :=
  ["channel_group", "groups", channelGroupType]

def orgs (channelGroupType : String) : JsonPath := channelGroup channelGroupType ++ ["groups"]

def ordererValues : JsonPath := channelGroup "Orderer" ++ ["values"]

def consensusValue : JsonPath := ordererValues ++ ["ConsensusType", "value"]

end Paths

def deleteMSP (OrgName channelGroupType : String) : Edit :=
  reach (orgs channelGroupType) (deleteKey OrgName)

/-- The policy that the literals of the source write out for one role of an MSP. -/
def rolePolicy (MSPID role : String) : Json :=
  .object [
    ("type", .num 1),
    ("value", .object [
      ("identities", .arr [.object [
        ("principal", .object [("msp_identifier", .str MSPID), ("role", .str role)]),
        ("principal_classification", .str "ROLE")]]),
      ("rule", .object [("n_out_of", .object [
        ("n", .num 1), ("rules", .arr [.object [("signed_by", .num 0)]])])])])]

def assignDictator (MSPID channelGroupType : String) : Edit :=
  reach (channelGroup channelGroupType ++ ["policies", "Admins"])
    (assign "policy" (.ok (rolePolicy MSPID "ADMIN")))

def setAnchorPeers (orgName : String) (anchorPeers : List HostPort) : Edit :=
  let anchor_peers := Json.arr (anchorPeers.map HostPort.toJson)
  reach (orgs "Application" ++ [orgName, "values"])
    (updateOrCreate "AnchorPeers" (reach ["value"] (assign "anchor_peers" (.ok anchor_peers)))
      (.ok (.object [
        ("mod_policy", .str "Admins"),
        ("value", .object [("anchor_peers", anchor_peers)]),
        ("version", .str "0")])))

section Files

-- `fs.readFileSync(pem).toString('base64')`
variable (_toBase64 : Json → Except ConfigError String)

def toBase64All (pems : List String) : Except ConfigError Json := do
  let texts ← pems.mapM fun pem => _toBase64 (.str pem)
  return .arr (texts.map Json.str)

def orgPolicy (MSPID role : String) : Json :=
  .object [("mod_policy", .str "Admins"), ("policy", rolePolicy MSPID role)]

def newOrg (MSPID : String) (pems : OrgPems) : Except ConfigError Json := do
  let admins ← toBase64All _toBase64 pems.admins
  let root_certs ← toBase64All _toBase64 pems.root_certs
  let tls_root_certs ← toBase64All _toBase64 pems.tls_root_certs
  return .object [
    ("mod_policy", .str "Admins"),
    ("policies", .object [
      ("Admins", orgPolicy MSPID "ADMIN"),
      ("Readers", orgPolicy MSPID "MEMBER"),
      ("Writers", orgPolicy MSPID "MEMBER")]),
    ("values", .object [("MSP", .object [
      ("mod_policy", .str "Admins"),
      ("value", .object [
        ("config", .object [
          ("admins", admins),
          ("crypto_config", .object [
            ("identity_identifier_hash_function", .str "SHA256"),
            ("signature_hash_family", .str "SHA2")]),
          ("name", .str MSPID),
          ("root_certs", root_certs),
          ("tls_root_certs", tls_root_certs)]),
        ("type", .num 0)])])])]

def createOrUpdateOrg (OrgName MSPID channelGroupType : String) (pems : OrgPems)
    (skipIfExist : Bool) : Edit :=
  let org := newOrg _toBase64 MSPID pems
  reach (orgs channelGroupType)
    (updateOrCreate OrgName (fun old => if skipIfExist then .ok old else org) org)

end Files

/-- `version.replace('.', '_')`, which replaces the first dot only. -/
def replaceDot : Text → Text
  | [] => []
  | c :: text => if c = '.' then '_' :: text else c :: replaceDot text

def _fromSemVer (version : String) : String :=
  String.ofList ('V' :: replaceDot version.toList)

def setCapability (version : String) : Edit :=
  let capabilities := Json.object [(_fromSemVer version, .object [])]
  reach ordererValues
    (updateOrCreate "Capabilities" (reach ["value"] (assign "capabilities" (.ok capabilities)))
      (.ok (.object [
        ("mod_policy", .str "Admins"),
        ("value", .object [("capabilities", capabilities)])])))

def isText (text : String) : Json → Bool
  | .str value => value == text
  | _ => false

/-- Both a list and a string have `includes`; only a list has `push`. -/
def pushAddress (newAddr : String) : Option Json → Except ConfigError (Option Json)
  | some (.arr addresses) =>
    if addresses.any (isText newAddr) then .ok (some (.arr addresses))
    else .ok (some (.arr (addresses ++ [.str newAddr])))
  | some (.str addresses) =>
    if newAddr.toList <:+: addresses.toList then .ok (some (.str addresses))
    else .error .TypeError
  | _ => .error .TypeError

def addOrdererAddress (newAddr : String) : Edit :=
  reach ["channel_group", "values", "OrdererAddresses", "value"]
    (atKey (fun _ => .error .TypeError) "addresses" (pushAddress newAddr))

def OrdererType.etcdraft : String := "etcdraft"

def setConsensusType (type : String) : Edit :=
  if type = OrdererType.etcdraft then
    reach consensusValue (assign "type" (.ok (.str type))) >=>
      reach ordererValues (deleteKey "KafkaBrokers")
  else fun _ => .error (.Error ("Unsupported ConsensusType " ++ type))

section ParseInt

def digitValue (c : Char) : Option Nat :=
  if '0' ≤ c ∧ c ≤ '9' then some (c.toNat - '0'.toNat)
  else if 'a' ≤ c ∧ c ≤ 'f' then some (c.toNat - 'a'.toNat + 10)
  else if 'A' ≤ c ∧ c ≤ 'F' then some (c.toNat - 'A'.toNat + 10)
  else none

/-- The number that the leading digits of a text are; without one there is no number. -/
def leadingNumber (radix : Nat) (text : Text) : Option Int :=
  let digits := (text.map digitValue).takeWhile fun digit => digit.any (· < radix)
  if digits = [] then none
  else some (digits.foldl (fun n digit => radix * n + digit.getD 0) 0 : Nat)

def unsignedNumber : Text → Option Int
  | '0' :: 'x' :: text => leadingNumber 16 text
  | '0' :: 'X' :: text => leadingNumber 16 text
  | text => leadingNumber 10 text

def parseText (text : Text) : Option Int :=
  match text.dropWhile jsSpace with
  | '-' :: text => (unsignedNumber text).map fun n => -n
  | '+' :: text => unsignedNumber text
  | text => unsignedNumber text

/-- The digits of a number's text up to the first other character. The text has an exponent from
`10 ^ 21` on and below `10 ^ -6`, with one digit before the point. -/
def wholeDigits (numerator denominator : Nat) : Nat :=
  if 10 ^ 21 * denominator ≤ numerator then
    numerator / denominator / 10 ^ Nat.log 10 (numerator / denominator)
  else if 0 < numerator ∧ numerator * 10 ^ 6 < denominator then
    numerator * 10 ^ Nat.clog 10 ((denominator + numerator - 1) / numerator) / denominator
  else numerator / denominator

def parseNumber (value : Rat) : Int :=
  nearestDoubleInt (value.num.sign * wholeDigits value.num.natAbs value.den)

/-- `parseInt` goes by the text of its argument; that of an array starts with that of its first
item. `NaN` is written as null. -/
def parseInt : Json → Json
  | .num value => .num (parseNumber value)
  | .str text => ((parseText text.toList).map fun n => Json.num (nearestDoubleInt n)).getD .null
  | .arr (first :: _) => parseInt first
  | _ => .null

theorem parseInt_num {n : Int} (safe : n.natAbs < 2 ^ 53) : parseInt (.num n) = .num n := by
  have plain : wholeDigits n.natAbs 1 = n.natAbs := by
    rw [wholeDigits, if_neg (by omega), if_neg (by omega), Nat.div_one]
  have signed : parseNumber n = n := by
    rw [parseNumber, Rat.num_intCast, Rat.den_intCast, plain, Int.sign_mul_natAbs,
      nearestDoubleInt_of_lt safe]
  rw [parseInt, signed]

-- the text of a number, and a text as a number
example : parseInt (.num (10 ^ 21)) = .num 1 ∧ parseInt (.num (5 / 10 ^ 7)) = .num 5 ∧
    parseInt (.num (70509 / 10)) = .num 7050 := by
  refine ⟨?_, ?_, ?_⟩ <;> simp [parseInt] <;> decide +kernel

end ParseInt

section Consensus

variable (_toBase64 : Json → Except ConfigError String)

def pemOf (path : Option Json) : Except ConfigError Json :=
  match path with
  | some path => do
    let text ← _toBase64 path
    return .str text
  | none => .error .TypeError

/-- `({client_tls_cert, host, port = 7050, server_tls_cert}) => ({…})`. -/
def newConsenter : Json → Except ConfigError Json
  | .obj fields => do
    let client_tls_cert ← pemOf _toBase64 (fields "client_tls_cert")
    let server_tls_cert ← pemOf _toBase64 (fields "server_tls_cert")
    return .object (
      [("client_tls_cert", client_tls_cert), ("server_tls_cert", server_tls_cert)] ++
      (fields "host").toList.map (fun host => ("host", host)) ++
      [("port", parseInt ((fields "port").getD (.num 7050)))])
  | _ => .error .TypeError

def defaultOptions : Json :=
  .object [
    ("election_tick", .num 10),
    ("heartbeat_tick", .num 1),
    ("max_inflight_blocks", .num 5),
    ("snapshot_interval_size", .num 20971520),
    ("tick_interval", .str "500ms")]

def newMetadata (consenters options : Option Json) : Except ConfigError Json :=
  match consenters with
  | some (.arr consenters) => do
    let mapped ← consenters.mapM (newConsenter _toBase64)
    return .object [
      ("consenters", .arr mapped),
      ("options", (options.filter Json.truthy).getD defaultOptions)]
  | _ => .error .TypeError

/-- `if (value) { metadata[key] = value }`. -/
def assignGiven (key : String) (value : Option Json) : Edit :=
  match value.filter Json.truthy with
  | some value => assign key (.ok value)
  | none => fun metadata => .ok metadata

def setConsensusMetadata (consenters options : Option Json) : Edit :=
  reach consensusValue
    (updateOrCreate "metadata"
      (assignGiven "options" options >=> assignGiven "consenters" consenters)
      (newMetadata _toBase64 consenters options))

end Consensus

def maintenanceMode (isDirectionIn : Bool) : Edit :=
  reach consensusValue
    (assign "state" (.ok (.str (if isDirectionIn then "STATE_MAINTENANCE" else "STATE_NORMAL"))))

end ConfigFactory

namespace ConfigOp

open ConfigFactory

def run (_toBase64 : Json → Except ConfigError String) : ConfigOp → Edit
  | deleteMSP OrgName channelGroupType => ConfigFactory.deleteMSP OrgName channelGroupType
  | assignDictator MSPID channelGroupType => ConfigFactory.assignDictator MSPID channelGroupType
  | setAnchorPeers orgName anchorPeers => ConfigFactory.setAnchorPeers orgName anchorPeers
  | createOrUpdateOrg OrgName MSPID channelGroupType pems skipIfExist =>
    ConfigFactory.createOrUpdateOrg _toBase64 OrgName MSPID channelGroupType pems skipIfExist
  | setCapability version => ConfigFactory.setCapability version
  | addOrdererAddress newAddr => ConfigFactory.addOrdererAddress newAddr
  | setConsensusType type => ConfigFactory.setConsensusType type
  | setConsensusMetadata consenters options =>
    ConfigFactory.setConsensusMetadata _toBase64 consenters options
  | maintenanceMode isDirectionIn => ConfigFactory.maintenanceMode isDirectionIn

/-- The parts of the configuration that an operation is about. -/
def targets : ConfigOp → List JsonPath
  | deleteMSP OrgName channelGroupType => [orgs channelGroupType ++ [OrgName]]
  | assignDictator _ channelGroupType =>
    [channelGroup channelGroupType ++ ["policies", "Admins", "policy"]]
  | setAnchorPeers orgName _ => [orgs "Application" ++ [orgName, "values", "AnchorPeers"]]
  | createOrUpdateOrg OrgName _ channelGroupType _ _ => [orgs channelGroupType ++ [OrgName]]
  | setCapability _ => [ordererValues ++ ["Capabilities"]]
  | addOrdererAddress _ => [["channel_group", "values", "OrdererAddresses", "value", "addresses"]]
  | setConsensusType _ => [consensusValue ++ ["type"], ordererValues ++ ["KafkaBrokers"]]
  | setConsensusMetadata _ _ => [consensusValue ++ ["metadata"]]
  | maintenanceMode _ => [consensusValue ++ ["state"]]

/-- No target of one operation is above, at or below one of the other. -/
def Apart (op op' : ConfigOp) : Prop :=
  ∀ path ∈ op.targets, ∀ path' ∈ op'.targets, ¬ path <+: path' ∧ ¬ path' <+: path

end ConfigOp

end FabricCommon
