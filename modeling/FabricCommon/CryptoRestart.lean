import FabricCommon.CryptoOrder

namespace FabricCommon

open CryptoPath CaCryptoGen

/-- A call that generates TLS material too. -/
def CaCryptoGen.gen (type : NodeType) (p : CryptoPath) (cut : Option (FaultyRun.Cut Bool))
    (s : NodeDir) : NodeDir × GenResult :=
  match type with
  | .orderer => genOrderer p cut s
  | .peer => genPeer p true cut s

def CaCryptoGen.after (type : NodeType) (p : CryptoPath)
    (cuts : List (Option (FaultyRun.Cut Bool))) (s : NodeDir) : NodeDir :=
  cuts.foldl (fun s cut => (gen type p cut s).1) s

/-- `findKeyFiles` takes the file for a key of the node. -/
def IsKeyFile (path : Path) : Prop :=
  path.dropLast = keystore ∧
    ∃ name, path.getLast? = some name ∧ "_sk".toList.isSuffixOf name.toList = true

/-- The directory may hold anything but crypto material. -/
structure NoCrypto (p : CryptoPath) (s : NodeDir) : Prop where
  absent : ∀ path ∈ p.required, s.read path = none
  noKeys : HoldsOnly (fun path => ¬ IsKeyFile path) s

/-- What holds of a directory to which only generation calls have written crypto material. -/
structure CryptoInvariant (p : CryptoPath) (s : NodeDir) : Prop where
  files : HoldsOnly (fun path => IsKeyFile path → path = privateKey) s
  signed : (s.read privateKey).isSome → (s.read p.signcerts).isSome ∧ keystore ∈ s.dirs
  last : (s.read p.tlscacerts).isSome → (s.read privateKey).isSome

section

variable {p : CryptoPath} {s : NodeDir} {cut : Option (FaultyRun.Cut Bool)}

end

section

variable {p : CryptoPath} {s : NodeDir} {cut : Option (FaultyRun.Cut Bool)}

theorem NoCrypto.invariant (h : NoCrypto p s) : CryptoInvariant p s where
  files := fun file mem isKey => absurd isKey (h.noKeys file mem)
  signed present := by
    rw [h.absent privateKey (by simp [required])] at present
    cases present
  last present := by
    rw [h.absent p.tlscacerts (by simp [required])] at present
    cases present

end

end FabricCommon
