import FabricCommon.GateText
import FabricCommon.StepRun

namespace FabricCommon

/-- Who has written a file: somebody before the calls, or one of them, counted from zero. -/
inductive Origin where
  | leftover
  | call (n : Nat)
  deriving DecidableEq, Repr

/-- A directory of files by their names. -/
structure Keystore where
  files : List (Text × Origin)
  nodup : (files.map Prod.fst).Nodup

namespace Keystore

def empty : Keystore := ⟨[], List.nodup_nil⟩

def read (keystore : Keystore) (fileName : Text) : Option Origin := keystore.files.lookup fileName

def names (keystore : Keystore) : List Text := keystore.files.map Prod.fst

/-- `writeFileSync`, which replaces the file that has the name. -/
def write (keystore : Keystore) (fileName : Text) (origin : Origin) : Keystore where
  files := (fileName, origin) :: keystore.files.filter fun file => file.1 ≠ fileName
  nodup := by
    rw [List.map_cons, List.nodup_cons]
    refine ⟨?_, keystore.nodup.sublist (List.filter_sublist.map Prod.fst)⟩
    intro member
    obtain ⟨file, kept, same⟩ := List.mem_map.mp member
    exact absurd same (by simpa using (List.mem_filter.mp kept).2)

end Keystore

/-- `fileName.endsWith('_sk')`. -/
def isKeyFile (fileName : Text) : Bool := ['_', 's', 'k'].isSuffixOf fileName

/-- The files of one MSP directory that matter to its key pair: the certificate, the keystore once
it exists, and the certificate of the CA. -/
structure MspDir where
  signcerts : Option Origin
  keystore : Option Keystore
  cacerts : Option Origin

inductive MspWrite where
  | signcerts
  | mkdirKeystore
  | priv_sk
  | cacerts
  deriving DecidableEq, Repr

/-- The error of `readdirSync` on a keystore that is not there. -/
inductive KeystoreError where
  | ENOENT
  deriving DecidableEq, Repr

namespace MspDir

def priv_sk : Text := "priv_sk".toList

def perform (origin : Origin) (s : MspDir) : MspWrite → MspDir
  | .signcerts => { s with signcerts := some origin }
  | .mkdirKeystore => { s with keystore := some (s.keystore.getD .empty) }
  | .priv_sk => { s with keystore := s.keystore.map fun keystore => keystore.write priv_sk origin }
  | .cacerts => { s with cacerts := some origin }

/-- The writes of `toMSP`; the second and the third are those of `toKeystore`. -/
def toMSP : List MspWrite := [.signcerts, .mkdirKeystore, .priv_sk, .cacerts]

/-- A call that is interrupted after some of its writes, or after all of them. -/
def interrupted (origin : Origin) (writes : Nat) (s : MspDir) : MspDir :=
  (toMSP.take writes).foldl (perform origin) s

/-- What `readdirSync` can list: the names in the keystore, in any order. -/
def Lists (s : MspDir) (listing : List Text) : Prop :=
  ∀ keystore, s.keystore = some keystore → listing.Perm keystore.names

def findKeyFiles (s : MspDir) (listing : List Text) : Except KeystoreError (List Text) :=
  match s.keystore with
  | none => .error .ENOENT
  | some _ => .ok (listing.filter isKeyFile)

def MSPKeystore (s : MspDir) (listing : List Text) : Except KeystoreError (Option Text) :=
  match s.findKeyFiles listing with
  | .error err => .error err
  | .ok files => .ok files.head?

/-- The content of the key that a name stands for. -/
def keyContent (s : MspDir) (fileName : Text) : Option Origin :=
  s.keystore.bind fun keystore => keystore.read fileName

/-- The key of the pair that is found. `pathExistsSync` is false of `undefined`. -/
def cryptoExistLocal (s : MspDir) (listing : List Text) : Except KeystoreError (Option Text) :=
  match s.signcerts with
  | none => .ok none
  | some _ =>
    match s.MSPKeystore listing with
    | .error err => .error err
    | .ok none => .ok none
    | .ok (some keystore) => .ok (if (s.keyContent keystore).isSome then some keystore else none)

/-- Whatever the order of the listing, nothing is thrown, and a pair that is found has its key and
its certificate from one call. -/
def PairMatches (s : MspDir) : Prop :=
  ∀ listing, s.Lists listing → ∃ found, s.cryptoExistLocal listing = .ok found ∧
    ∀ keystore, found = some keystore →
      ∃ n, s.keyContent keystore = some (.call n) ∧ s.signcerts = some (.call n)

/-- The names of the key files, none when there is no keystore. -/
def keyFiles (s : MspDir) : List Text :=
  match s.keystore with
  | none => []
  | some keystore => keystore.names.filter isKeyFile

end MspDir

end FabricCommon
