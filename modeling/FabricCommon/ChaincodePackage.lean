import FabricCommon.FaultyRun
import FabricCommon.FileTree
import FabricCommon.LifecycleProposal

namespace FabricCommon

open FileTree (Entry)
open FaultyRun (Cut)

abbrev SourceTree := FileTree.Tree Buffer

open FileTree.Tree

def utf8 (text : String) : Buffer := text.toUTF8.data.toList

/-- The keys of `ChaincodeType`. An object answers to the names of `Object.prototype` too. -/
def ChaincodeType.keys : List String :=
  ["golang", "node", "java", "external", "__defineGetter__", "__defineSetter__",
    "__lookupGetter__", "__lookupSetter__", "__proto__", "constructor", "hasOwnProperty",
    "isPrototypeOf", "propertyIsEnumerable", "toLocaleString", "toString", "valueOf"]

/-- The characters that a JSON text escapes. -/
def jsonChar (c : Char) : List Char :=
  if c = '"' then ['\\', '"']
  else if c = '\\' then ['\\', '\\']
  else if c.toNat = 8 then ['\\', 'b']
  else if c.toNat = 9 then ['\\', 't']
  else if c.toNat = 10 then ['\\', 'n']
  else if c.toNat = 12 then ['\\', 'f']
  else if c.toNat = 13 then ['\\', 'r']
  else if c.toNat < 32 then
    ['\\', 'u', '0', '0', Nat.digitChar (c.toNat / 16), Nat.digitChar (c.toNat % 16)]
  else [c]

def jsonString (text : String) : String :=
  "\"" ++ String.ofList (text.toList.flatMap jsonChar) ++ "\""

/-- The portable archive of a directory, and the digest of a file in hexadecimal. -/
structure ArchiveTools where
  create : SourceTree → Buffer
  sha2_256 : Buffer → String

structure ChaincodePackage where
  type : String
  label : String
  deriving DecidableEq, Repr

/-- Where a file path leads: into the tree at `Path`, or to some other place. -/
inductive Output where
  | inPath (path : List String)
  | elsewhere
  deriving DecidableEq, Repr

inductive PackStep where
  | createTmpRoot
  | writeMetadata
  | createTmpRoot2
  | moveMetaINF
  | copyPath
  | createCode
  | t2
  | createOutput
  | t1
  | calculateID
  deriving DecidableEq, Repr

def PackStep.all : List PackStep :=
  [.createTmpRoot, .writeMetadata, .createTmpRoot2, .moveMetaINF, .copyPath, .createCode, .t2,
    .createOutput, .t1, .calculateID]

/-- What a step that fails may have done: a move across devices copies before it removes what it
copied, and an archive may be written in part. -/
structure PackDamage where
  kept : List String → Bool
  written : Option Buffer

structure PackState where
  tree : SourceTree
  tmpRoot : SourceTree
  tmpRoot2 : SourceTree
  elsewhere : Option Buffer
  id : Option String
  thrown : Bool

def couchdbDir : List String := ["META-INF", "statedb", "couchdb"]

def isDirectory (tree : SourceTree) (path : List String) : Bool :=
  decide (tree path = some .directory)

namespace PackState

def start (tree : SourceTree) : PackState := ⟨tree, nothing, nothing, none, none, false⟩

def write (s : PackState) (output : Output) (bytes : Buffer) : PackState :=
  match output with
  | .elsewhere => { s with elsewhere := some bytes }
  | .inPath path =>
    if s.tree.Writable path then { s with tree := s.tree.writeFile path bytes }
    else { s with thrown := true }

def read (s : PackState) : Output → Option Buffer
  | .elsewhere => s.elsewhere
  | .inPath path =>
    match s.tree path with
    | some (.file bytes) => some bytes
    | _ => none

end PackState

namespace ChaincodePackage

/-- The constructor, where a type that is left out is the default one. -/
def new (type : Option String) (label : String) : ChaincodePackage where
  type := if type = none ∨ type = some "" then "golang" else type.getD ""
  label := label

variable (tools : ArchiveTools) (p : ChaincodePackage)

def metadata : Buffer :=
  utf8 ("\x7b\"type\":" ++ jsonString p.type ++ ",\"label\":" ++ jsonString p.label ++ "\x7d")

/-- `calculateID` with neither a binary manager nor a shell, of what the file holds. -/
def calculateID (chaincodeArchive : Buffer) : String :=
  p.label ++ ":" ++ tools.sha2_256 chaincodeArchive

/-- What is copied to `tmpRoot2`. -/
def copied (tree : SourceTree) : SourceTree :=
  if p.type ∈ ChaincodeType.keys then tree.placed "src" else tree

/-- One step of `pack`; once one has thrown, none follows. -/
def perform (output : Output) (s : PackState) (step : PackStep) : PackState :=
  if s.thrown then s
  else
    match step with
    | .createTmpRoot => { s with tmpRoot := newDirectory }
    | .writeMetadata => { s with tmpRoot := s.tmpRoot.writeFile ["metadata.json"] p.metadata }
    | .createTmpRoot2 => { s with tmpRoot2 := newDirectory }
    | .moveMetaINF =>
      if isDirectory s.tree couchdbDir then
        { s with
          tree := s.tree.without "META-INF"
          tmpRoot2 := (s.tree.only "META-INF").onto s.tmpRoot2 }
      else s
    | .copyPath => { s with tmpRoot2 := (p.copied s.tree).onto s.tmpRoot2 }
    | .createCode =>
      { s with tmpRoot := s.tmpRoot.writeFile ["code.tar.gz"] (tools.create s.tmpRoot2) }
    | .t2 => { s with tmpRoot2 := nothing }
    | .createOutput => s.write output (tools.create s.tmpRoot)
    | .t1 => { s with tmpRoot := nothing }
    | .calculateID =>
      match s.read output with
      | some bytes => { s with id := some (p.calculateID tools bytes) }
      | none => { s with thrown := true }

/-- A step that fails. Temporary directories have fresh names, so that what is left of them meets
no later call. -/
def fail (output : Output) (s : PackState) (step : PackStep) (damage : PackDamage) : PackState :=
  match step with
  | .moveMetaINF =>
    if isDirectory s.tree couchdbDir then
      { s with tree := s.tree.keeping "META-INF" damage.kept, thrown := true }
    else { s with thrown := true }
  | .createOutput =>
    match damage.written with
    | some bytes => { s.write output bytes with thrown := true }
    | none => { s with thrown := true }
  | _ => { s with thrown := true }

/-- `pack` where no binary manager packs. -/
def pack (output : Output) (cut : Option (Cut PackDamage)) (tree : SourceTree) : PackState :=
  (FaultyRun.exec (p.perform tools output) (fail output) PackStep.all cut (.start tree)).1

/-- What a pack leaves at `Path` from the move on. -/
def moved (tree : SourceTree) : SourceTree :=
  if isDirectory tree couchdbDir then tree.without "META-INF" else tree

/-- The directory that becomes `code.tar.gz`. -/
def content (tree : SourceTree) : SourceTree :=
  (p.copied (moved tree)).onto
    (if isDirectory tree couchdbDir then (tree.only "META-INF").onto newDirectory
      else newDirectory)

/-- The archive whose `code.tar.gz` is the given directory. -/
def archive (code : SourceTree) : Buffer :=
  tools.create
    ((newDirectory.writeFile ["metadata.json"] p.metadata).writeFile ["code.tar.gz"]
      (tools.create code))

section

variable {p : ChaincodePackage} {tree tree' : SourceTree} {path : List String}

theorem content_of_other (other : p.type ∉ ChaincodeType.keys) (below : path ≠ []) :
    p.content tree path = tree path := by
  have fresh : (newDirectory : SourceTree) path = none := if_neg below
  rw [content, copied, if_neg other, moved]
  by_cases autogen : isDirectory tree couchdbDir = true
  · rw [if_pos autogen, if_pos autogen, ← congrFun (without_onto_only tree "META-INF") path]
    simp [onto, fresh]
  · rw [if_neg autogen, if_neg autogen, onto_of_target_none fresh]

theorem content_metaINF (known : p.type ∈ ChaincodeType.keys)
    (under : path.head? = some "META-INF") :
    p.content tree path = if isDirectory tree couchdbDir then tree path else none := by
  have below : path ≠ [] := by
    rintro rfl
    simp at under
  have fresh : (newDirectory : SourceTree) path = none := if_neg below
  have unplaced : (moved tree).placed "src" path = none :=
    placed_of_other (by rw [under]; decide)
  rw [content, copied, if_pos known, onto_of_none unplaced]
  split
  · rw [onto_of_target_none fresh, only_of_head under]
  · exact fresh

theorem content_src (known : p.type ∈ ChaincodeType.keys) :
    p.content tree ("src" :: path) = moved tree path := by
  have fresh : (newDirectory : SourceTree) ("src" :: path) = none := if_neg (by simp)
  rw [content, copied, if_pos known, onto_of_target_none, placed_cons_self]
  split
  · rw [onto_of_target_none fresh, only_of_other (by simp)]
  · exact fresh

theorem content_couchdbDir :
    p.content tree couchdbDir = some .directory ↔ isDirectory tree couchdbDir = true := by
  unfold isDirectory
  rw [decide_eq_true_iff]
  by_cases known : p.type ∈ ChaincodeType.keys
  · rw [content_metaINF known rfl]
    simp [isDirectory]
  · rw [content_of_other known (by simp [couchdbDir])]

/-- What is packed tells the trees apart. -/
theorem content_injective (root : tree [] = tree' [])
    (same : p.content tree = p.content tree') : tree = tree' := by
  funext path
  by_cases known : p.type ∈ ChaincodeType.keys
  · have left : moved tree path = moved tree' path := by
      rw [← content_src known, same, content_src known]
    have autogen : isDirectory tree couchdbDir = isDirectory tree' couchdbDir := by
      rw [Bool.eq_iff_iff, ← content_couchdbDir (p := p), same, content_couchdbDir]
    by_cases dir : isDirectory tree couchdbDir = true
    · by_cases under : path.head? = some "META-INF"
      · have packed : p.content tree path = p.content tree' path := congrFun same path
        rwa [content_metaINF known under, content_metaINF known under, ← autogen, if_pos dir,
          if_pos dir] at packed
      · rwa [moved, moved, ← autogen, if_pos dir, if_pos dir, without_of_other under,
          without_of_other under] at left
    · rwa [moved, moved, ← autogen, if_neg dir, if_neg dir] at left
  · by_cases below : path = []
    · rw [below, root]
    · have packed : p.content tree path = p.content tree' path := congrFun same path
      rwa [content_of_other known below, content_of_other known below] at packed

end

end ChaincodePackage

end FabricCommon
