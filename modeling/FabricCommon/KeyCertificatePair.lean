import FabricCommon.MspDirectory
import Mathlib.Data.List.Perm.Basic

namespace FabricCommon

open MspDir

theorem lookup_of_mem_nodup {files : List (Text × Origin)} (nodup : (files.map Prod.fst).Nodup)
    {file : Text × Origin} (h : file ∈ files) : files.lookup file.1 = some file.2 := by
  induction files with
  | nil => cases h
  | cons first files ih =>
    rw [List.map_cons, List.nodup_cons] at nodup
    rcases List.mem_cons.mp h with rfl | later
    · exact List.lookup_cons_self
    · have other : (file.1 == first.1) = false := by
        refine beq_false_of_ne fun same => nodup.1 ?_
        exact List.mem_map.mpr ⟨file, later, same⟩
      rw [List.lookup_cons, other]
      exact ih nodup.2 later

namespace Keystore

variable {keystore : Keystore} {file : Text × Origin}

theorem read_of_mem (h : file ∈ keystore.files) : keystore.read file.1 = some file.2 :=
  lookup_of_mem_nodup keystore.nodup h

theorem mem_write {fileName : Text} {origin : Origin} :
    file ∈ (keystore.write fileName origin).files ↔
      file = (fileName, origin) ∨ file ∈ keystore.files ∧ file.1 ≠ fileName := by
  simp [write]

end Keystore

/-- All the key files are of the call that has written the certificate. -/
def MspDir.KeysMatch (s : MspDir) : Prop :=
  ∀ cert, s.signcerts = some cert → ∃ keystore, s.keystore = some keystore ∧
    ∀ file ∈ keystore.files, isKeyFile file.1 = true → file.2 = cert

/-- No more than the calls before call `n` and what was there before them has written here; the
certificate is of a call. -/
structure MspDir.WrittenBefore (n : Nat) (s : MspDir) : Prop where
  keys : ∀ keystore, s.keystore = some keystore → ∀ file ∈ keystore.files, ∀ m,
    file.2 = .call m → m < n
  certificate : ∀ cert, s.signcerts = some cert → ∃ m, cert = .call m

/-- What a call may find, by the number of writes it is going to make. -/
def MspDir.CallSafe (s : MspDir) : Nat → Prop
  | 0 => True
  | 1 => s.keystore ≠ none ∧ s.keyFiles = []
  | 2 => s.keyFiles = []
  | _ => ∀ fileName ∈ s.keyFiles, fileName = priv_sk

section

variable {s : MspDir} {n : Nat} {keystore : Keystore}

theorem cryptoExistLocal_first {cert : Origin} {listing : List Text} {file : Text × Origin}
    (hc : s.signcerts = some cert) (hk : s.keystore = some keystore) (hf : file ∈ keystore.files)
    (first : (listing.filter isKeyFile).head? = some file.1) :
    s.cryptoExistLocal listing = .ok (some file.1) ∧ s.keyContent file.1 = some file.2 := by
  have content : s.keyContent file.1 = some file.2 := by
    simp only [keyContent, hk, Option.bind_some, Keystore.read_of_mem hf]
  refine ⟨?_, content⟩
  simp only [cryptoExistLocal, MSPKeystore, MspDir.findKeyFiles, hc, hk, first, content,
    Option.isSome_some, if_true]

theorem pairMatches_iff (written : s.WrittenBefore n) : s.PairMatches ↔ s.KeysMatch := by
  constructor
  · intro h cert hc
    cases hk : s.keystore with
    | none =>
      have listed : s.Lists [] := fun keystore some => by rw [hk] at some; cases some
      obtain ⟨found, returned, _⟩ := h [] listed
      simp [cryptoExistLocal, MSPKeystore, MspDir.findKeyFiles, hc, hk] at returned
    | some keystore =>
      refine ⟨keystore, rfl, fun file hf key => ?_⟩
      have named : file.1 ∈ keystore.names := List.mem_map.mpr ⟨file, hf, rfl⟩
      have listed : s.Lists (file.1 :: keystore.names.erase file.1) := by
        intro keystore' same
        cases Option.some.inj (hk.symm.trans same)
        exact (List.perm_cons_erase named).symm
      have first : ((file.1 :: keystore.names.erase file.1).filter isKeyFile).head? =
          some file.1 := by rw [List.filter_cons_of_pos key, List.head?_cons]
      obtain ⟨returned, content⟩ := cryptoExistLocal_first hc hk hf first
      obtain ⟨found, again, pair⟩ := h _ listed
      cases Except.ok.inj (returned.symm.trans again)
      obtain ⟨m, keyOrigin, certOrigin⟩ := pair file.1 rfl
      rw [content] at keyOrigin
      rw [hc] at certOrigin
      exact (Option.some.inj keyOrigin).trans (Option.some.inj certOrigin).symm
  · intro h listing listed
    cases hc : s.signcerts with
    | none => exact ⟨none, by simp only [cryptoExistLocal, hc], fun _ found => by cases found⟩
    | some cert =>
      obtain ⟨keystore, hk, same⟩ := h cert hc
      cases first : (listing.filter isKeyFile).head? with
      | none =>
        refine ⟨none, ?_, fun _ found => by cases found⟩
        simp only [cryptoExistLocal, MSPKeystore, MspDir.findKeyFiles, hc, hk, first]
      | some fileName =>
        obtain ⟨member, key⟩ := List.mem_filter.mp (List.mem_of_mem_head? first)
        obtain ⟨file, hf, rfl⟩ := List.mem_map.mp ((listed keystore hk).mem_iff.mp member)
        obtain ⟨returned, content⟩ := cryptoExistLocal_first hc hk hf first
        obtain ⟨m, rfl⟩ := written.certificate cert hc
        refine ⟨some file.1, returned, fun found eq => ⟨m, ?_, rfl⟩⟩
        rw [← Option.some.inj eq, content, same file hf key]

theorem forall_keyFiles {P : Text → Prop} : (∀ fileName ∈ s.keyFiles, P fileName) ↔
    ∀ file ∈ (s.keystore.getD .empty).files, isKeyFile file.1 = true → P file.1 := by
  cases hk : s.keystore with
  | none => simp [keyFiles, hk, Keystore.empty]
  | some keystore =>
    simp only [keyFiles, hk, List.mem_filter, Keystore.names, List.mem_map, Option.getD_some]
    constructor
    · exact fun h file hf key => h file.1 ⟨⟨file, hf, rfl⟩, key⟩
    · intro h fileName found
      obtain ⟨⟨file, hf, rfl⟩, key⟩ := found
      exact h file hf key

theorem keyFiles_eq_nil : s.keyFiles = [] ↔
    ∀ file ∈ (s.keystore.getD .empty).files, isKeyFile file.1 = true → False := by
  rw [List.eq_nil_iff_forall_not_mem]
  exact forall_keyFiles

/-- A file that was there before call `n` is not of call `n`. -/
theorem origin_fresh (written : s.WrittenBefore n) {file : Text × Origin}
    (hf : file ∈ (s.keystore.getD .empty).files) : file.2 ≠ .call n := by
  intro own
  cases hk : s.keystore with
  | none => simp [hk, Keystore.empty] at hf
  | some keystore =>
    rw [hk, Option.getD_some] at hf
    exact Nat.lt_irrefl n (written.keys keystore hk file hf n own)

theorem keysMatch_of_cert {t : MspDir} {cert : Origin} (hc : t.signcerts = some cert)
    (hk : t.keystore = some keystore) :
    t.KeysMatch ↔ ∀ file ∈ keystore.files, isKeyFile file.1 = true → file.2 = cert := by
  constructor
  · intro h
    obtain ⟨keystore', hk', same⟩ := h cert hc
    cases Option.some.inj (hk.symm.trans hk')
    exact same
  · intro h cert' hc'
    cases Option.some.inj (hc.symm.trans hc')
    exact ⟨keystore, hk, h⟩

/-- With the key written as well, the directory is the same as far as the pair goes. -/
theorem interrupted_key (origin : Origin) (writes : Nat) :
    (interrupted origin (writes + 3) s).signcerts = some origin ∧
      (interrupted origin (writes + 3) s).keystore =
        some ((s.keystore.getD .empty).write priv_sk origin) := by
  cases writes <;> simp [interrupted, toMSP, perform]

theorem keyFiles_unmatched (written : s.WrittenBefore n) :
    (∀ file ∈ (s.keystore.getD .empty).files, isKeyFile file.1 = true → file.2 = .call n) ↔
      s.keyFiles = [] := by
  rw [keyFiles_eq_nil]
  refine forall₂_congr fun file hf => imp_congr_right fun _ => ?_
  exact iff_false_intro (origin_fresh written hf)

/-- A call keeps key and certificate together exactly when it is safe. -/
theorem interrupted_keysMatch_iff (written : s.WrittenBefore n) (h : s.KeysMatch) (writes : Nat) :
    (interrupted (.call n) writes s).KeysMatch ↔ s.CallSafe writes := by
  match writes with
  | 0 => exact iff_of_true h trivial
  | 1 =>
    cases hk : s.keystore with
    | none =>
      refine iff_of_false (fun same => ?_) (fun safe => safe.1 hk)
      obtain ⟨keystore, found, _⟩ := same (.call n) rfl
      exact absurd (hk.symm.trans found) (by simp)
    | some keystore =>
      have unmatched := keyFiles_unmatched written
      rw [hk, Option.getD_some] at unmatched
      rw [keysMatch_of_cert (t := interrupted (.call n) 1 s) rfl hk, unmatched]
      simp [CallSafe, hk]
  | 2 =>
    have known : (interrupted (.call n) 2 s).KeysMatch ↔ ∀ file ∈ (s.keystore.getD .empty).files,
        isKeyFile file.1 = true → file.2 = .call n := keysMatch_of_cert rfl rfl
    exact known.trans (keyFiles_unmatched written)
  | writes + 3 =>
    obtain ⟨hc, hk⟩ := interrupted_key (s := s) (.call n) writes
    show _ ↔ ∀ fileName ∈ s.keyFiles, fileName = priv_sk
    rw [keysMatch_of_cert hc hk, forall_keyFiles]
    simp only [Keystore.mem_write]
    constructor
    · intro same file hf key
      by_contra other
      exact origin_fresh written hf (same file (Or.inr ⟨hf, other⟩) key)
    · intro safe file hf key
      rcases hf with rfl | ⟨hf, other⟩
      · rfl
      · exact absurd (safe file hf key) other

theorem perform_written (written : s.WrittenBefore (n + 1)) (write : MspWrite) :
    (perform (.call n) s write).WrittenBefore (n + 1) := by
  cases write with
  | signcerts =>
    exact ⟨written.keys, fun cert hc => ⟨n, (Option.some.inj hc).symm⟩⟩
  | mkdirKeystore =>
    refine ⟨fun keystore hk file hf m own => ?_, written.certificate⟩
    cases old : s.keystore with
    | none =>
      simp only [perform, old, Option.getD_none, Option.some.injEq] at hk
      simp [← hk, Keystore.empty] at hf
    | some before =>
      simp only [perform, old, Option.getD_some, Option.some.injEq] at hk
      exact written.keys before old file (hk ▸ hf) m own
  | priv_sk =>
    refine ⟨fun keystore hk file hf m own => ?_, written.certificate⟩
    obtain ⟨before, old, rfl⟩ := Option.map_eq_some_iff.mp hk
    rcases Keystore.mem_write.mp hf with rfl | ⟨kept, _⟩
    · rw [Origin.call.inj own]
      exact Nat.lt_succ_self m
    · exact written.keys before old file kept m own
  | cacerts => exact ⟨written.keys, written.certificate⟩

theorem interrupted_written (written : s.WrittenBefore n) (writes : Nat) :
    (interrupted (.call n) writes s).WrittenBefore (n + 1) := by
  have before : s.WrittenBefore (n + 1) :=
    ⟨fun keystore hk file hf m own => Nat.lt_succ_of_lt (written.keys keystore hk file hf m own),
      written.certificate⟩
  have kept : ∀ (t : MspDir) (write : MspWrite), t.WrittenBefore (n + 1) →
      (perform (.call n) t write).WrittenBefore (n + 1) := fun _ write h => perform_written h write
  exact StepRun.foldl_keeps kept before _

end

/-- The calls so far and the directory they have left. -/
structure MspHistory where
  calls : Nat
  dir : MspDir

namespace MspHistory

def step (s : MspHistory) (writes : Nat) : MspHistory :=
  ⟨s.calls + 1, interrupted (.call s.calls) writes s.dir⟩

/-- A directory without a certificate, in which others may have left key files. -/
def initial (keystore : Option Keystore) : MspHistory := ⟨0, ⟨none, keystore, none⟩⟩

/-- The calls of one type, each with the number of writes it gets to. -/
def run (keystore : Option Keystore) (calls : List Nat) : MspHistory :=
  calls.foldl step (initial keystore)

end MspHistory

open MspHistory

theorem keysMatch_iff_eachStep {s : MspHistory} (written : s.dir.WrittenBefore s.calls)
    (h : s.dir.KeysMatch) (calls : List Nat) :
    (∀ done, done <+: calls → (done.foldl step s).dir.KeysMatch) ↔
      StepRun.EachStep step (fun s writes => s.dir.CallSafe writes) s calls := by
  induction calls generalizing s with
  | nil =>
    refine iff_of_true (fun done reached => ?_) trivial
    rw [List.prefix_nil.mp reached]
    exact h
  | cons writes calls ih =>
    have first := interrupted_keysMatch_iff written h writes
    have later := interrupted_written written writes
    constructor
    · intro all
      have now := all [writes] ⟨calls, rfl⟩
      refine ⟨first.mp now, (ih later now).mp fun done reached => ?_⟩
      exact all (writes :: done) (List.cons_prefix_cons.mpr ⟨rfl, reached⟩)
    · intro safe done reached
      cases done with
      | nil => exact h
      | cons writes' done =>
        obtain ⟨rfl, rest⟩ := List.cons_prefix_cons.mp reached
        exact (ih later (first.mpr safe.1)).mpr safe.2 done rest

theorem initial_written {keystore : Option Keystore}
    (leftover : ∀ files, keystore = some files → ∀ file ∈ files.files, file.2 = .leftover) :
    (initial keystore).dir.WrittenBefore (initial keystore).calls where
  keys files hk file hf m own := by
    rw [leftover files hk file hf] at own
    cases own
  certificate cert hc := by cases hc

/-- In every state that the calls lead through, the pair that is found is of one call, exactly when
each call is safe in the directory it finds. -/
theorem key_certificate_pair_iff {keystore : Option Keystore}
    (leftover : ∀ files, keystore = some files → ∀ file ∈ files.files, file.2 = .leftover)
    (calls : List Nat) :
    (∀ done, done <+: calls → (run keystore done).dir.PairMatches) ↔
      StepRun.EachStep step (fun s writes => s.dir.CallSafe writes) (initial keystore) calls := by
  have written := initial_written leftover
  have start : (initial keystore).dir.KeysMatch := fun cert hc => by cases hc
  rw [← keysMatch_iff_eachStep written start]
  refine forall_congr' fun done => imp_congr_right fun _ => ?_
  have reached : (run keystore done).dir.WrittenBefore (run keystore done).calls :=
    StepRun.foldl_keeps (fun _ writes h => interrupted_written h writes) written done
  exact pairMatches_iff reached

/-- Calls that all get as far as the key, in a directory without older keys. -/
theorem key_certificate_pair_reenrolled : (run none [4, 3, 4]).dir.PairMatches := by
  have empty : ∀ files, (none : Option Keystore) = some files →
      ∀ file ∈ files.files, file.2 = .leftover := fun _ some => by cases some
  refine (key_certificate_pair_iff empty [4, 3, 4]).mpr ?_ [4, 3, 4] (List.prefix_refl _)
  have first : (initial none).dir.CallSafe 4 := by simp [CallSafe, initial, keyFiles]
  have second : ((initial none).step 4).dir.CallSafe 3 := by
    show ∀ fileName ∈ [priv_sk], fileName = priv_sk
    simp
  have third : (((initial none).step 4).step 3).dir.CallSafe 4 := by
    show ∀ fileName ∈ [priv_sk], fileName = priv_sk
    simp
  exact ⟨first, second, third, trivial⟩

/-- A first call interrupted after the certificate makes the check throw; a second one makes it pair
the new certificate with the old key, and so does a key that was there before. -/
theorem key_certificate_pair_broken :
    (run none [1]).dir.cryptoExistLocal [] = .error .ENOENT ∧
      ¬ (run none [1]).dir.PairMatches ∧ ¬ (run none [4, 1]).dir.PairMatches ∧
      ¬ (run (some ⟨[("0a_sk".toList, .leftover)], by simp⟩) [4]).dir.PairMatches := by
  refine ⟨rfl, fun h => ?_, fun h => ?_, fun h => ?_⟩
  · obtain ⟨found, returned, _⟩ := h [] fun keystore some => by cases some
    cases returned
  · obtain ⟨found, returned, pair⟩ := h [priv_sk] fun keystore some => by
      cases some
      exact List.Perm.refl _
    have first : (run none [4, 1]).dir.cryptoExistLocal [priv_sk] = .ok (some priv_sk) := rfl
    cases Except.ok.inj (first.symm.trans returned)
    obtain ⟨n, key, cert⟩ := pair priv_sk rfl
    have differ : (0 : Nat) = 1 := by
      cases key
      cases cert
    cases differ
  · obtain ⟨found, returned, pair⟩ := h ["0a_sk".toList, priv_sk] fun keystore some => by
      cases some
      exact List.Perm.swap _ _ _
    have first : (run (some ⟨[("0a_sk".toList, .leftover)], by simp⟩) [4]).dir.cryptoExistLocal
        ["0a_sk".toList, priv_sk] = .ok (some "0a_sk".toList) := rfl
    cases Except.ok.inj (first.symm.trans returned)
    obtain ⟨n, key, cert⟩ := pair _ rfl
    cases key

end FabricCommon
