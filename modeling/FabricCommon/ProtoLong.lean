import Mathlib.Data.List.Basic
import Mathlib.Algebra.Group.Nat.Defs
import Mathlib.Algebra.Ring.Int.Defs

namespace ProtoLong

/-- An integer of 64 bits, as one object. -/
structure Long where
  bits : BitVec 64
  unsigned : Bool
  deriving DecidableEq, Repr

namespace Long

/-- The integer that it stands for. -/
def value (n : Long) : Int := if n.unsigned then n.bits.toNat else n.bits.toInt

def low (n : Long) : BitVec 32 := n.bits.setWidth 32

/-- The low half alone. -/
def toInt (n : Long) : Int := if n.unsigned then n.low.toNat else n.low.toInt

def toString (n : Long) : String := n.value.repr

/-- The first number that the low half does not hold. -/
def limit (n : Long) : Int := if n.unsigned then 2 ^ 32 else 2 ^ 31

variable {n : Long}

theorem low_toNat (n : Long) : n.low.toNat = n.bits.toNat % 2 ^ 32 := BitVec.toNat_setWidth ..

/-- No number from the limit on is told by its low half. -/
theorem toInt_eq_value_iff (nonneg : 0 ≤ n.value) : n.toInt = n.value ↔ n.value < n.limit := by
  have low := n.low_toNat
  have bounded := n.bits.isLt
  cases unsigned : n.unsigned with
  | true =>
    simp only [toInt, value, limit, unsigned, if_true]
    omega
  | false =>
    simp only [toInt, value, limit, unsigned, Bool.false_eq_true, if_false,
      BitVec.toInt_eq_toNat_cond] at nonneg ⊢
    omega

end Long

/-- A field of type `uint64`. -/
abbrev ULong := { n : Long // n.unsigned = true }

/-- A field of type `int64`. -/
abbrev SLong := { n : Long // n.unsigned = false }

def uint64 (n : Nat) : ULong := ⟨⟨BitVec.ofNat 64 n, true⟩, rfl⟩

def int64 (n : Int) : SLong := ⟨⟨BitVec.ofInt 64 n, false⟩, rfl⟩

theorem ULong.limit (n : ULong) : n.val.limit = 2 ^ 32 := by
  simp only [Long.limit, n.property, if_true]

theorem SLong.limit (n : SLong) : n.val.limit = 2 ^ 31 := by
  simp only [Long.limit, n.property, Bool.false_eq_true, if_false]

section Doubles

/-- The double nearest to an integer, on a tie the one with an even significand. -/
def nearestDouble (n : Nat) : Nat :=
  let unit := 2 ^ (n.log2 - 52)
  let significand := n / unit
  let rest := n % unit
  let up := unit < 2 * rest ∨ (2 * rest = unit ∧ significand % 2 = 1)
  (if up then significand + 1 else significand) * unit

theorem nearestDouble_of_lt {n : Nat} (h : n < 2 ^ 53) : nearestDouble n = n := by
  have exact : n.log2 - 52 = 0 := by
    by_cases zero : n = 0
    · subst zero
      rfl
    · have := (Nat.log2_lt zero).mpr h
      omega
  simp [nearestDouble, exact, Nat.mod_one]

def nearestDoubleInt (n : Int) : Int := n.sign * nearestDouble n.natAbs

theorem nearestDoubleInt_of_lt {n : Int} (h : n.natAbs < 2 ^ 53) : nearestDoubleInt n = n := by
  rw [nearestDoubleInt, nearestDouble_of_lt h, Int.sign_mul_natAbs]

end Doubles

end ProtoLong
