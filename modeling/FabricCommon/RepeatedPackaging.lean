import FabricCommon.CouchDBIndex
import FabricCommon.PackRun

namespace FabricCommon

open FaultyRun (Cut)
open FileTree.Tree

namespace ChaincodePackage

/-- One call of `pack`, to its end or cut. -/
structure PackAttempt where
  package : ChaincodePackage
  output : Output
  cut : Option (Cut PackDamage)

/-- The tree that is left after some calls, one after the other. -/
def afterPacks (tools : ArchiveTools) (attempts : List PackAttempt) (tree : SourceTree) :
    SourceTree :=
  attempts.foldl (fun tree a => (a.package.pack tools a.output a.cut tree).tree) tree

section

variable {tools : ArchiveTools} {previous p : ChaincodePackage} {output : Output}
  {tree tree' : SourceTree} {collection fileName : Option String} {fields : List String}
  {path : List String}

/-- Calls that each leave the tree as it is leave it so together. -/
theorem afterPacks_eq {attempts : List PackAttempt}
    (stays : ∀ a ∈ attempts, MetaINFStays tree a.cut ∧
      a.package.OutputStays tools a.output tree a.cut) :
    afterPacks tools attempts tree = tree := by
  induction attempts with
  | nil => rfl
  | cons a attempts ih =>
    have here := pack_tree_eq_iff.mpr (stays a List.mem_cons_self)
    show afterPacks tools attempts (a.package.pack tools a.output a.cut tree).tree = tree
    rw [here]
    exact ih fun a mem => stays a (List.mem_cons_of_mem _ mem)

/-- Nothing can be written below the directory that has been moved away. -/
theorem pack_below_metaINF {name : String} {rest : List String}
    (autogen : isDirectory tree couchdbDir = true) :
    (p.pack tools output none tree).tree ("META-INF" :: name :: rest) = none := by
  have late : ∀ n damage, (none : Option (Cut PackDamage)) = some ⟨n, damage⟩ →
      PackStep.moveMetaINF.place < n := by simp
  have gone : ∀ {path}, path.head? = some "META-INF" → moved tree path = none := by
    intro path under
    rw [moved, if_pos autogen, without_of_head under]
  rw [pack_tree_late late]
  cases output with
  | elsewhere => exact gone rfl
  | inPath path =>
    simp only [SourceTree.overwritten, written]
    split
    next writable =>
      by_cases here : "META-INF" :: name :: rest = path
      · rw [← here] at writable
        have parent := writable.2.1
        rw [gone (by rw [List.dropLast_cons_of_ne_nil (by simp)]; rfl)] at parent
        simp at parent
      · rw [writeFile, Function.update_of_ne here, gone rfl]
    next => exact gone rfl

/-- An index is in the package of the first call and in that of no call right after. -/
theorem index_packed_once (h : couchDBIndex collection fileName fields tree = .ok tree') :
    ∃ target, p.content tree' target = some (.file (indexObject fields)) ∧
      p.content (previous.pack tools output none tree').tree target = none := by
  have autogen := couchDBIndex_isDirectory h
  obtain ⟨name, _, stored⟩ := couchDBIndex_eq_ok h
  obtain ⟨rest, _, target⟩ := indexTarget_below collection name
  have file := FileTree.Tree.outputFile_self stored
  rw [target] at file
  have gone : (previous.pack tools output none tree').tree (couchdbDir ++ rest) = none :=
    pack_below_metaINF autogen
  refine ⟨couchdbDir ++ rest, ?_, ?_⟩
  · by_cases known : p.type ∈ ChaincodeType.keys
    · rw [content_metaINF known rfl, if_pos autogen, file]
    · rw [content_of_other known (by simp [couchdbDir]), file]
  · by_cases known : p.type ∈ ChaincodeType.keys
    · rw [content_metaINF known rfl, gone, ite_self]
    · rw [content_of_other known (by simp [couchdbDir]), gone]

end

/-- Packing again gives the id that the original tree has exactly when the pack before has left the
directories under `META-INF` and has put no output of its own into the tree. -/
theorem repack_id_iff (tools : ArchiveTools) (previous p : ChaincodePackage)
    (output output' : Output) (cut : Option (Cut PackDamage)) (tree : SourceTree) (id : String)
    (packed : (p.pack tools output' none tree).id = some id)
    (distinct : p.NoCollision tools tree (previous.pack tools output cut tree).tree) :
    (p.pack tools output' none (previous.pack tools output cut tree).tree).id = some id ↔
      MetaINFStays tree cut ∧ previous.OutputStays tools output tree cut := by
  rw [← pack_tree_eq_iff]
  constructor
  · intro again
    rw [pack_uncut] at again packed
    have same := distinct ((end_id packed).symm.trans (end_id again))
    exact (content_injective pack_root.symm same).symm
  · intro same
    rw [same]
    exact packed

/-- A chaincode, before and after an index is added. -/
def bareTree : SourceTree := newDirectory.writeFile ["chaincode.go"] (utf8 "package main")

def indexedTree : SourceTree :=
  match couchDBIndex none none ["owner"] bareTree with
  | .ok tree => tree
  | .error _ => bareTree

/-- An archive is one byte, which tells whether there are indexes in it; the digests are those of
the two bytes. -/
def twoArchives : ArchiveTools where
  create tree :=
    match tree ["code.tar.gz"] with
    | some (.file code) => code
    | _ => if isDirectory tree couchdbDir then [1] else [0]
  sha2_256 bytes :=
    if bytes = [1] then "4bf5122f344554c53bde2ebb8cd2b7e3d1600ad631c385a5d7cce23c7785459a"
    else "6e340b9cffb37a989ca544e6bb780a2c78901d3fb33738768511a30617afa01d"

theorem repack_id_failed_move :
    ((new none "cc").pack twoArchives .elsewhere none
      ((new none "cc").pack twoArchives .elsewhere (some ⟨3, fun _ => true, none⟩)
        indexedTree).tree).id =
      some "cc:4bf5122f344554c53bde2ebb8cd2b7e3d1600ad631c385a5d7cce23c7785459a" := by
  have stays : MetaINFStays indexedTree (some ⟨3, fun _ => true, none⟩) :=
    fun _ => ⟨3, _, rfl, Or.inr ⟨by decide, fun _ _ _ => rfl⟩⟩
  have output : (new none "cc").OutputStays twoArchives .elsewhere indexedTree
      (some ⟨3, fun _ => true, none⟩) := by
    intro path bytes inPath
    simp at inPath
  refine (repack_id_iff twoArchives (new none "cc") (new none "cc") .elsewhere .elsewhere _
    indexedTree "cc:4bf5122f344554c53bde2ebb8cd2b7e3d1600ad631c385a5d7cce23c7785459a" (by decide)
    fun _ => ?_).mpr ⟨stays, output⟩
  rw [pack_tree_eq_iff.mpr ⟨stays, output⟩]

/-- The second package of a chaincode with an index has another id. -/
theorem repack_id_differs :
    ((new none "cc").pack twoArchives .elsewhere none indexedTree).id =
        some "cc:4bf5122f344554c53bde2ebb8cd2b7e3d1600ad631c385a5d7cce23c7785459a" ∧
      ((new none "cc").pack twoArchives .elsewhere none
        ((new none "cc").pack twoArchives .elsewhere none indexedTree).tree).id =
          some "cc:6e340b9cffb37a989ca544e6bb780a2c78901d3fb33738768511a30617afa01d" := by
  decide

end ChaincodePackage

end FabricCommon
