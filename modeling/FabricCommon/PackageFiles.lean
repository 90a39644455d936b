import FabricCommon.ChaincodePackage
import FabricCommon.WholeMatch

namespace FabricCommon

open RegExp RegExp.Pattern

/-- What `.` does not match. -/
def lineTerminator (c : Char) : Bool :=
  c == '\n' || c == '\r' || c == Char.ofNat 0x2028 || c == Char.ofNat 0x2029

/-- `[0-9a-f]`. -/
def hexDigit (c : Char) : Bool := ('0' ≤ c && c ≤ '9') || ('a' ≤ c && c ≤ 'f')

def tarGz : Text := ['.', 't', 'a', 'r', '.', 'g', 'z']

/-- `/^(.+)[.]([0-9a-f]{64})[.]tar[.]gz$/` without its anchors. -/
def packageFilePattern : Pattern Char :=
  seq (group (atLeastOne fun c => !lineTerminator c))
    (seq (literal ['.']) (seq (group (exactly 64 hexDigit)) (literal tarGz)))

/-- What the two groups take. -/
def packageFileMatcher (packageFileName : Text) : Option (List Text) :=
  (packageFilePattern.whole packageFileName).map Match.groups

structure ParsedPackageID where
  name : Text
  hash : Option Text
  label : Text
  deriving DecidableEq

def parsePackageID (packageId : Text) : ParsedPackageID :=
  match packageId.splitOn ':' with
  | [] => ⟨[], none, []⟩
  | [name] => ⟨name, none, name⟩
  | name :: hash :: _ => ⟨name, some hash, name⟩

/-- `replace(':', '.')`, which replaces the first one. -/
def replaceColon : Text → Text
  | [] => []
  | c :: t => if c = ':' then '.' :: t else c :: replaceColon t

/-- The file that `uninstallChaincode` removes, by its name. -/
def packageFile (chaincodePackageId : Text) : Text := replaceColon chaincodePackageId ++ tarGz

/-- The text of a SHA-256 digest. -/
structure IsDigest (hash : Text) : Prop where
  length : hash.length = 64
  hex : ∀ c ∈ hash, hexDigit c = true

/-- A label that `.+` can match. -/
structure IsLabel (label : Text) : Prop where
  some_label : label ≠ []
  oneLine : ∀ c ∈ label, lineTerminator c = false

section

variable {label hash name : Text} {m : Match Char}

theorem mem_results_packageFilePattern :
    (m ∈ packageFilePattern.results name ∧ m.rest = []) ↔
      ∃ label hash, IsLabel label ∧ IsDigest hash ∧ name = label ++ '.' :: (hash ++ tarGz) ∧
        m = ⟨name, [], [label, hash]⟩ := by
  simp only [packageFilePattern, mem_results_seq, mem_results_group, mem_results_atLeastOne,
    mem_results_literal, mem_results_exactly]
  constructor
  · rintro ⟨⟨_, ⟨⟨label, _, _⟩, ⟨rfl, some_label, dots, rfl⟩, rfl⟩, _,
      ⟨⟨_, rest, _⟩, ⟨dot, rfl, rfl⟩, _, ⟨_, ⟨⟨hash, _, _⟩, ⟨rfl, length, hex, rfl⟩, rfl⟩,
        ⟨_, last, _⟩, ⟨tar, rfl, rfl⟩, rfl⟩, rfl⟩, rfl⟩, all⟩
    simp only [Match.append, List.append_nil] at dot tar all length hex some_label dots ⊢
    subst all tar dot
    refine ⟨label, hash, ⟨some_label, by simpa using dots⟩, ⟨length, hex⟩, ?_, ?_⟩
    · simp
    · simp
  · rintro ⟨label, hash, isLabel, isDigest, rfl, rfl⟩
    refine ⟨⟨⟨label, '.' :: (hash ++ tarGz), [label]⟩, ⟨⟨label, '.' :: (hash ++ tarGz), []⟩,
      ⟨rfl, isLabel.some_label, by simpa using isLabel.oneLine, rfl⟩, rfl⟩, _,
      ⟨⟨['.'], hash ++ tarGz, []⟩, ⟨rfl, rfl, rfl⟩, _, ⟨⟨hash, tarGz, [hash]⟩,
        ⟨⟨hash, tarGz, []⟩, ⟨rfl, isDigest.length, isDigest.hex, rfl⟩, rfl⟩, ⟨tarGz, [], []⟩,
        ⟨List.append_nil _, rfl, rfl⟩, rfl⟩, rfl⟩, ?_⟩, rfl⟩
    simp [Match.append]

theorem packageFile_inj {label' hash' : Text} (isDigest : IsDigest hash)
    (isDigest' : IsDigest hash') (same : label ++ '.' :: (hash ++ tarGz) =
      label' ++ '.' :: (hash' ++ tarGz)) : label = label' ∧ hash = hash' := by
  have lengths : ('.' :: (hash ++ tarGz)).length = ('.' :: (hash' ++ tarGz)).length := by
    simp [isDigest.length, isDigest'.length]
  obtain ⟨labels, rest⟩ := List.append_inj' same lengths
  exact ⟨labels, List.append_cancel_right (List.cons.inj rest).2⟩

theorem packageFileMatcher_eq_some {groups : List Text} :
    packageFileMatcher name = some groups ↔
      ∃ label hash, IsLabel label ∧ IsDigest hash ∧ name = label ++ '.' :: (hash ++ tarGz) ∧
        groups = [label, hash] := by
  rw [packageFileMatcher, Option.map_eq_some_iff]
  constructor
  · rintro ⟨m, found, rfl⟩
    obtain ⟨label, hash, isLabel, isDigest, named, rfl⟩ :=
      mem_results_packageFilePattern.mp (mem_of_whole found)
    exact ⟨label, hash, isLabel, isDigest, named, rfl⟩
  · rintro ⟨label, hash, isLabel, isDigest, named, rfl⟩
    have mem : (⟨name, [], [label, hash]⟩ : Match Char) ∈ packageFilePattern.results name :=
      (mem_results_packageFilePattern.mpr ⟨label, hash, isLabel, isDigest, named, rfl⟩).1
    refine ⟨_, whole_eq_some mem rfl ?_, rfl⟩
    intro m' mem' all'
    obtain ⟨label', hash', _, isDigest', named', rfl⟩ :=
      mem_results_packageFilePattern.mp ⟨mem', all'⟩
    obtain ⟨rfl, rfl⟩ := packageFile_inj isDigest isDigest' (named.symm.trans named')
    rfl

theorem hexDigit_ne_colon : hexDigit ':' = false := by decide

theorem IsDigest.noColon (isDigest : IsDigest hash) : ':' ∉ hash := by
  intro mem
  have hex := isDigest.hex ':' mem
  rw [hexDigit_ne_colon] at hex
  cases hex

theorem replaceColon_append (clear : ':' ∉ label) (t : Text) :
    replaceColon (label ++ ':' :: t) = label ++ '.' :: t := by
  induction label with
  | nil => rfl
  | cons c label ih =>
    obtain ⟨other, clear⟩ := not_or.mp (List.mem_cons.not.mp clear)
    rw [List.cons_append, replaceColon, if_neg (Ne.symm other), ih clear, List.cons_append]

theorem packageFile_of_clear (clear : ':' ∉ label) :
    packageFile (label ++ ':' :: hash) = label ++ '.' :: (hash ++ tarGz) := by
  rw [packageFile, replaceColon_append clear, List.append_assoc, List.cons_append]

theorem parsePackageID_of_clear (clear : ':' ∉ label) (clear' : ':' ∉ hash) :
    parsePackageID (label ++ ':' :: hash) = ⟨label, some hash, label⟩ := by
  rw [parsePackageID, List.splitOn_append_cons_self_of_not_mem clear,
    List.splitOn_eq_singleton clear']

/-- The first colon is the one that is replaced: in a label with one, the dot before the digest is
missing. -/
theorem packageFileMatcher_of_colon (isDigest : IsDigest hash) (colon : ':' ∈ label) :
    packageFileMatcher (packageFile (label ++ ':' :: hash)) = none := by
  obtain ⟨before, after, rfl, clear⟩ := List.eq_append_cons_of_mem colon
  rw [Option.eq_none_iff_forall_not_mem]
  intro groups found
  obtain ⟨label', hash', _, isDigest', named, _⟩ := packageFileMatcher_eq_some.mp found
  have file : packageFile ((before ++ ':' :: after) ++ ':' :: hash) =
      (before ++ '.' :: after) ++ ':' :: (hash ++ tarGz) := by
    simp [packageFile, replaceColon_append clear]
  have lengths : (':' :: (hash ++ tarGz)).length = ('.' :: (hash' ++ tarGz)).length := by
    simp [isDigest.length, isDigest'.length]
  have ends := (List.append_inj' (file.symm.trans named) lengths).2
  exact absurd (List.cons.inj ends).1 (by decide)

end

/-- The file of a package that `calculateID` names is recognised, and taken apart to the label and
the digest, exactly when the label has no colon; then no other package has that file. -/
theorem packageFile_recognised_iff (tools : ArchiveTools) (p : ChaincodePackage)
    (chaincodeArchive : Buffer) (isLabel : IsLabel p.label.toList)
    (isDigest : ∀ archive, IsDigest (tools.sha2_256 archive).toList) :
    ((packageFileMatcher (packageFile (p.calculateID tools chaincodeArchive).toList) =
        some [p.label.toList, (tools.sha2_256 chaincodeArchive).toList] ↔ ':' ∉ p.label.toList) ∧
      (':' ∈ p.label.toList →
        packageFileMatcher (packageFile (p.calculateID tools chaincodeArchive).toList) = none) ∧
      (':' ∉ p.label.toList →
        parsePackageID (p.calculateID tools chaincodeArchive).toList =
          ⟨p.label.toList, some (tools.sha2_256 chaincodeArchive).toList, p.label.toList⟩ ∧
        ∀ (p' : ChaincodePackage) (archive : Buffer), ':' ∉ p'.label.toList →
          packageFile (p'.calculateID tools archive).toList =
            packageFile (p.calculateID tools chaincodeArchive).toList →
          p'.calculateID tools archive = p.calculateID tools chaincodeArchive)) := by
  have text : ∀ (p' : ChaincodePackage) (archive : Buffer),
      (p'.calculateID tools archive).toList =
        p'.label.toList ++ ':' :: (tools.sha2_256 archive).toList := by
    intro p' archive
    rw [ChaincodePackage.calculateID, String.toList_append, String.toList_append, List.append_assoc]
    rfl
  have missed : ':' ∈ p.label.toList →
      packageFileMatcher (packageFile (p.calculateID tools chaincodeArchive).toList) = none := by
    intro colon
    rw [text]
    exact packageFileMatcher_of_colon (isDigest _) colon
  refine ⟨⟨?_, ?_⟩, missed, ?_⟩
  · intro found colon
    rw [missed colon] at found
    cases found
  · intro clear
    rw [text, packageFile_of_clear clear]
    exact packageFileMatcher_eq_some.mpr ⟨_, _, isLabel, isDigest _, rfl, rfl⟩
  · intro clear
    refine ⟨?_, ?_⟩
    · rw [text]
      exact parsePackageID_of_clear clear (isDigest _).noColon
    · intro p' archive clear' same
      rw [text, text, packageFile_of_clear clear, packageFile_of_clear clear'] at same
      obtain ⟨labels, digests⟩ := packageFile_inj (isDigest _) (isDigest _) same
      rw [← String.toList_inj, text, text, labels, digests]

def emptySha256 : String := "e3b0c44298fc1c149afbf4c8996fb92427ae41e4649b934ca495991b7852b855"

theorem emptySha256_isDigest : IsDigest emptySha256.toList :=
  ⟨by decide, List.all_eq_true.mp (by decide)⟩

/-- Archives that hold nothing. -/
def emptyArchives : ArchiveTools := ⟨fun _ => [], fun _ => emptySha256⟩

def diagnose : ChaincodePackage := ⟨"golang", "diagnose"⟩

theorem diagnose_isLabel : IsLabel diagnose.label.toList := by
  have oneLine : (diagnose.label.toList.all fun c => lineTerminator c == false) = true := by decide
  exact ⟨by decide, fun c mem => beq_iff_eq.mp (List.all_eq_true.mp oneLine c mem)⟩

theorem packageFile_recognised_diagnose :
    packageFileMatcher (packageFile (diagnose.calculateID emptyArchives []).toList) =
      some [diagnose.label.toList, (emptyArchives.sha2_256 []).toList] :=
  (packageFile_recognised_iff emptyArchives diagnose [] diagnose_isLabel
    fun _ => emptySha256_isDigest).1.mpr (by decide)

end FabricCommon
