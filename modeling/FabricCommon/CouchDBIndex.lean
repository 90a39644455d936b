import FabricCommon.ChaincodePackage

namespace FabricCommon

open FileTree.Tree

inductive IndexError where
  | couchdb (message : String)
  | notDirectory (path : List String)
  deriving DecidableEq, Repr

/-- The name of the index file, or the message about it. -/
def indexFileName (fileName : Option String) : Except IndexError String :=
  let name := fileName.getD ""
  if name = "" then .ok "index.json"
  else if ".json".toList.isSuffixOf name.toList then .ok name
  else .error (.couchdb ("fileName should endsWith \".json\", but got " ++ name))

/-- The file that an index is in, a collection being that of private data. -/
def indexTarget (collection : Option String) (fileName : String) : List String :=
  let collection := collection.getD ""
  if collection = "" then couchdbDir ++ ["indexes", fileName]
  else couchdbDir ++ ["collections", collection, "indexes", fileName]

def indexObject (fields : List String) : Buffer :=
  utf8 ("\x7b\"index\":\x7b\"fields\":[" ++ ",".intercalate (fields.map jsonString) ++
    "]\x7d,\"type\":\"json\"\x7d\n")

/-- `couchDBIndex` on the `META-INF` of the tree. -/
def couchDBIndex (collection fileName : Option String) (fields : List String)
    (tree : SourceTree) : Except IndexError SourceTree :=
  match indexFileName fileName with
  | .error err => .error err
  | .ok fileName =>
    match tree.outputFile (indexTarget collection fileName) (indexObject fields) with
    | .error path => .error (.notDirectory path)
    | .ok tree => .ok tree

variable {collection fileName : Option String} {fields : List String} {tree tree' : SourceTree}

theorem couchDBIndex_eq_ok (h : couchDBIndex collection fileName fields tree = .ok tree') :
    ∃ name, indexFileName fileName = .ok name ∧
      tree.outputFile (indexTarget collection name) (indexObject fields) = .ok tree' := by
  unfold couchDBIndex at h
  split at h
  next => simp at h
  next name named =>
    split at h
    next => simp at h
    next written => exact ⟨name, named, written.trans (congrArg Except.ok (Except.ok.inj h))⟩

theorem indexTarget_below (collection : Option String) (name : String) :
    ∃ rest, rest ≠ [] ∧ indexTarget collection name = couchdbDir ++ rest := by
  unfold indexTarget
  dsimp only
  split
  next => exact ⟨_, by simp, rfl⟩
  next => exact ⟨_, by simp, rfl⟩

/-- A tree with an index is one that `pack` moves `META-INF` out of. -/
theorem couchDBIndex_isDirectory
    (h : couchDBIndex collection fileName fields tree = .ok tree') :
    isDirectory tree' couchdbDir = true := by
  obtain ⟨name, _, written⟩ := couchDBIndex_eq_ok h
  obtain ⟨rest, more, target⟩ := indexTarget_below collection name
  rw [target] at written
  refine decide_eq_true (outputFile_above written ?_ fun same => more ?_)
  · simp
  · simpa using same

end FabricCommon
