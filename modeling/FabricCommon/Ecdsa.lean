import Mathlib.Algebra.Field.Basic
import Mathlib.Algebra.Module.Basic
import Mathlib.Tactic.FieldSimp

/-! Signatures with a group of points over a field of scalars. -/

namespace Ecdsa

/-- A base point, and what a signature takes of a point, which is the same for its negative. -/
structure Domain (F G : Type) [Field F] [AddCommGroup G] [Module F G] where
  base : G
  coordinate : G → F
  coordinate_neg : ∀ P, coordinate (-P) = coordinate P

variable {F G : Type} [Field F] [AddCommGroup G] [Module F G] (dom : Domain F G)

namespace Domain

/-- The point that a verifier computes for the public key `Q` and the hash `e`. -/
def checked (Q : G) (e r s : F) : G := (e * s⁻¹) • dom.base + (r * s⁻¹) • Q

def Verifies (Q : G) (e r s : F) : Prop :=
  r ≠ 0 ∧ s ≠ 0 ∧ dom.coordinate (dom.checked Q e r s) = r

/-- The two numbers of the signature with nonce `k` by the private key `d`. -/
def signR (k : F) : F := dom.coordinate (k • dom.base)

def signS (d e k : F) : F := k⁻¹ * (e + dom.signR k * d)

variable {dom} {Q : G} {d e k r s : F}

theorem checked_neg : dom.checked Q e r (-s) = -dom.checked Q e r s := by
  simp only [checked, inv_neg, mul_neg, neg_smul, neg_add]

/-- A signature and the one with the second number negated are good for the same hashes. -/
theorem verifies_neg : dom.Verifies Q e r (-s) ↔ dom.Verifies Q e r s := by
  simp only [Verifies, checked_neg, dom.coordinate_neg, neg_ne_zero]

/-- A verifier computes the point of the nonce again. -/
theorem checked_signed (hk : k ≠ 0) (hs : dom.signS d e k ≠ 0) :
    dom.checked (d • dom.base) e (dom.signR k) (dom.signS d e k) = k • dom.base := by
  have inner : e + dom.signR k * d ≠ 0 := by
    intro zero
    exact hs (by rw [signS, zero, mul_zero])
  have nonce : e * (dom.signS d e k)⁻¹ + dom.signR k * (dom.signS d e k)⁻¹ * d = k := by
    rw [signS, mul_inv, inv_inv]
    field_simp
  rw [checked, smul_smul, ← add_smul, nonce]

theorem verifies_signed (hk : k ≠ 0) (hr : dom.signR k ≠ 0) (hs : dom.signS d e k ≠ 0) :
    dom.Verifies (d • dom.base) e (dom.signR k) (dom.signS d e k) :=
  ⟨hr, hs, congrArg dom.coordinate (checked_signed hk hs)⟩

end Domain

end Ecdsa
