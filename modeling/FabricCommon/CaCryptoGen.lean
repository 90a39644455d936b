import FabricCommon.FaultyRun
import Mathlib.Data.List.Infix

namespace FabricCommon

/-- A path below the directory of the node. -/
abbrev Path := List String

inductive FileContent where
  | whole
  | truncated
  deriving DecidableEq, Repr

structure NodeDir where
  dirs : List Path
  files : List (Path × FileContent)
  deriving DecidableEq, Repr

namespace NodeDir

def read (s : NodeDir) (path : Path) : Option FileContent := s.files.lookup path

def write (s : NodeDir) (path : Path) (content : FileContent) : NodeDir :=
  { s with files := (path, content) :: s.files.filter fun file => file.1 ≠ path }

/-- `ensureDirSync`, which creates the parents too. -/
def ensureDir (s : NodeDir) (dir : Path) : NodeDir := { s with dirs := dir.inits ++ s.dirs }

def readdir (s : NodeDir) (dir : Path) : List String :=
  s.files.filterMap fun file => if file.1.dropLast = dir then file.1.getLast? else none

end NodeDir

/-- `findKeyFiles`. -/
def findKeyFiles (s : NodeDir) (dir : Path) : List Path :=
  ((s.readdir dir).filter fun fileName => "_sk".toList.isSuffixOf fileName.toList).map
    (dir ++ [·])

inductive NodeType where
  | orderer
  | peer
  deriving DecidableEq, Repr

inductive CaRequest where
  | register
  | enroll
  | enrollTLS
  deriving DecidableEq, Repr

/-- A side effect of a generation call. -/
inductive CryptoAction where
  | ensureDir (dir : Path)
  | request (request : CaRequest)
  | writeFile (path : Path)
  deriving DecidableEq, Repr

namespace CryptoAction

def perform (s : NodeDir) : CryptoAction → NodeDir
  | .ensureDir dir => s.ensureDir dir
  | .request _ => s
  | .writeFile path => s.write path .whole

/-- A failed write can leave the file as it was or cut short. -/
def fail (s : NodeDir) (action : CryptoAction) (truncates : Bool) : NodeDir :=
  match action, truncates with
  | .writeFile path, true => s.write path .truncated
  | _, _ => s

end CryptoAction

/-- `resolve` creates the directory of the file it names, and `outputFileSync` writes it. -/
def outputFileSync (path : Path) : List CryptoAction :=
  [.ensureDir path.dropLast, .writeFile path]

/-- The names that the paths of a node are made of. -/
structure CryptoPath where
  orgName : String
  hostName : String
  userHostName : String
  deriving DecidableEq, Repr

namespace CryptoPath

variable (p : CryptoPath)

def admincerts : Path := ["msp", "admincerts", p.userHostName ++ "-cert.pem"]
def cacerts : Path := ["msp", "cacerts", "ca." ++ p.orgName ++ "-cert.pem"]
def tlscacerts : Path := ["msp", "tlscacerts", "tlsca." ++ p.orgName ++ "-cert.pem"]
def keystore : Path := ["msp", "keystore"]
def privateKey : Path := keystore ++ ["priv_sk"]
def signcerts : Path := ["msp", "signcerts", p.hostName ++ "-cert.pem"]
def caCert : Path := ["tls", "ca.crt"]
def cert : Path := ["tls", "server.crt"]
def key : Path := ["tls", "server.key"]

/-- `MSPFile` as a side effect: the directories of the paths it resolves. -/
def MSPFile : List CryptoAction :=
  [.ensureDir [], .ensureDir p.admincerts.dropLast, .ensureDir p.cacerts.dropLast,
    .ensureDir p.tlscacerts.dropLast, .ensureDir keystore.dropLast,
    .ensureDir p.signcerts.dropLast]

def TLSFile : List CryptoAction :=
  [.ensureDir [], .ensureDir caCert.dropLast, .ensureDir cert.dropLast, .ensureDir key.dropLast]

/-- The error of `readdirSync` on a keystore that is not there. -/
inductive CryptoError where
  | ENOENT (dir : Path)
  deriving DecidableEq, Repr

def MSPKeystore (s : NodeDir) : Except CryptoError (Option Path) :=
  if keystore ∈ s.dirs then .ok (findKeyFiles s keystore).head?
  else .error (.ENOENT keystore)

/-- `cryptoExistLocal`, as the paths of the key and the certificate when both exist. -/
def cryptoExistLocal (s : NodeDir) : Except CryptoError (Option (Path × Path)) :=
  if (s.read p.signcerts).isNone then .ok none
  else
    match MSPKeystore s with
    | .error err => .error err
    | .ok none => .ok none
    | .ok (some file) => .ok (if (s.read file).isSome then some (file, p.signcerts) else none)

def toAdminCerts : List CryptoAction := p.MSPFile ++ outputFileSync p.admincerts

/-- `toKeystore` creates the keystore itself. -/
def toMSP : List CryptoAction :=
  p.MSPFile ++ outputFileSync p.signcerts ++
    [.ensureDir keystore, .writeFile privateKey] ++ outputFileSync p.cacerts

def toTLS : List CryptoAction :=
  TLSFile ++ p.MSPFile ++ outputFileSync key ++ outputFileSync cert ++ outputFileSync caCert ++
    outputFileSync p.tlscacerts

end CryptoPath

inductive GenResult where
  | existed
  | generated
  | aborted
  | failed (err : CryptoPath.CryptoError)
  deriving DecidableEq, Repr

def GenResult.Returned (result : GenResult) : Prop := result = .existed ∨ result = .generated

namespace CaCryptoGen

variable (p : CryptoPath)

/-- The side effects of a call that has found no crypto. -/
def generate (TLS : Bool) : List CryptoAction :=
  p.toAdminCerts ++ [.request .register, .request .enroll] ++ p.toMSP ++
    if TLS then .request .enrollTLS :: p.toTLS else []

/-- What `genOrderer` and `genPeer` have in common. -/
def genNode (TLS : Bool) (cut : Option (FaultyRun.Cut Bool)) (s : NodeDir) :
    NodeDir × GenResult :=
  let s := p.MSPFile.foldl CryptoAction.perform s
  match p.cryptoExistLocal s with
  | .error err => (s, .failed err)
  | .ok (some _) => (s, .existed)
  | .ok none =>
    match FaultyRun.exec CryptoAction.perform CryptoAction.fail (generate p TLS) cut s with
    | (s, true) => (s, .generated)
    | (s, false) => (s, .aborted)

def genOrderer (cut : Option (FaultyRun.Cut Bool)) (s : NodeDir) : NodeDir × GenResult :=
  genNode p true cut s

def genPeer (TLS : Bool) (cut : Option (FaultyRun.Cut Bool)) (s : NodeDir) :
    NodeDir × GenResult :=
  genNode p TLS cut s

end CaCryptoGen

end FabricCommon
