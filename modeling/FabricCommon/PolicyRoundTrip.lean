import FabricCommon.PolicyProtoTranslator
import Mathlib.Data.List.Forall2

namespace FabricCommon

/-- What a policy says, apart from how it is written. -/
inductive PolicyTree where
  | signedBy (index : Nat)
  | nOf (n : Nat) (rules : List PolicyTree)

/-- A key `<n>-of` of decimal digits. -/
def KeyNumber (key : Text) (n : Nat) : Prop :=
  ∃ digits : Text, digits ≠ [] ∧ (∀ c ∈ digits, c.isDigit = true) ∧
    key = digits ++ ['-', 'o', 'f'] ∧ Nat.ofDigitChars 10 digits 0 = n

namespace PolicyTree

@[elab_as_elim]
theorem induction {P : PolicyTree → Prop} (signedBy : ∀ index, P (.signedBy index))
    (nOf : ∀ n rules, (∀ tree ∈ rules, P tree) → P (.nOf n rules)) : ∀ tree, P tree
  | .signedBy index => signedBy index
  | .nOf n rules => nOf n rules fun tree _ => induction signedBy nOf tree

mutual
/-- The tree is the one that a policy object spells. -/
def SpelledBy : PolicyTree → PolicySpec → Prop
  | .signedBy index, .signedBy value => index = value
  | .nOf n rules, .keyed key array => KeyNumber key n ∧ AllSpelledBy rules array
  | _, _ => False
def AllSpelledBy : List PolicyTree → List PolicySpec → Prop
  | [], [] => True
  | tree :: trees, spec :: specs => SpelledBy tree spec ∧ AllSpelledBy trees specs
  | _, _ => False
end

mutual
def Bounded (bound : Nat) : PolicyTree → Prop
  | .signedBy index => index < bound
  | .nOf n rules => n < bound ∧ AllBounded bound rules
def AllBounded (bound : Nat) : List PolicyTree → Prop
  | [] => True
  | tree :: trees => Bounded bound tree ∧ AllBounded bound trees
end

mutual
/-- The decoded rule of the same shape, with the same numbers. -/
def decoded : PolicyTree → DecodedSignaturePolicy
  | .signedBy index => .signed_by index
  | .nOf n rules => .n_out_of n (allDecoded rules)
def allDecoded : List PolicyTree → List DecodedSignaturePolicy
  | [] => []
  | tree :: trees => tree.decoded :: allDecoded trees
end

end PolicyTree

open PolicyTree

end FabricCommon
