import FabricCommon.EventMessages
import FabricCommon.PanicRun
import Mathlib.Algebra.Group.Nat.Defs
import Mathlib.Algebra.Ring.Int.Defs

namespace FabricCommon.Golang

namespace Elliptic

structure CurveParams where
  N : Int
  deriving DecidableEq

/-- What the interface holds. A curve made elsewhere is none of the four, even with the parameters
of one of them. -/
inductive Curve
  | P224
  | P256
  | P384
  | P521
  | other (name : String) (params : CurveParams)
  deriving DecidableEq

def Curve.params : Curve → CurveParams
  | P224 => ⟨0xffffffffffffffffffffffffffff16a2e0b8f03e13dd29455c5c2a3d⟩
  | P256 => ⟨0xffffffff00000000ffffffffffffffffbce6faada7179e84f3b9cac2fc632551⟩
  | P384 => ⟨2 ^ 384 - 0x389cb27e0bc8d220a7e5f24db74f58851313e695333ad68d⟩
  | P521 =>
    ⟨2 ^ 521 - 0x5ae79787c40d069948033feb708f65a2fc44a36477663b851449048e16ec79bf7⟩
  | other _ params => params

end Elliptic

structure PublicKey where
  curve : Elliptic.Curve

/-- The order of the group that the key is in. -/
abbrev PublicKey.N (k : PublicKey) : Int := k.curve.params.N

def CurveHalfOrders : List (Elliptic.Curve × Int) :=
  [(.P224, Elliptic.Curve.P224.params.N >>> (1 : Nat)),
    (.P256, Elliptic.Curve.P256.params.N >>> (1 : Nat)),
    (.P384, Elliptic.Curve.P384.params.N >>> (1 : Nat)),
    (.P521, Elliptic.Curve.P521.params.N >>> (1 : Nat))]

section

variable (sprint : Elliptic.Curve → String)

def isLowS (k : PublicKey) (s : Int) : Except String Bool :=
  match CurveHalfOrders.lookup k.curve with
  | none => .error ("curve not recognized [" ++ sprint k.curve ++ "]")
  | some halfOrder => .ok (compare s halfOrder != .gt)

/-- The number behind the pointer `s` afterwards, and what is returned. -/
def toLowS (k : PublicKey) (s : Int) : Int × Except String (Int × Bool) :=
  match isLowS sprint k s with
  | .error err => (s, .error err)
  | .ok lowS =>
    if !lowS then (k.N - s, .ok (k.N - s, true))
    else (s, .ok (s, false))

structure PrivateKey where
  publicKey : PublicKey
  D : Int

structure ECDSASignature where
  R : Int
  S : Int
  deriving DecidableEq

structure Crypto where
  privKey : PrivateKey
  digest : Bytes → Bytes

variable (ecdsaSign : PrivateKey → Bytes → Except String (Int × Int))
  (marshal : ECDSASignature → Except String Bytes)

def Crypto.sign (c : Crypto) (message : Bytes) : Except String Bytes := do
  let (ri, si) ← ecdsaSign c.privKey (c.digest message)
  let (si, _) ← (toLowS sprint c.privKey.publicKey si).2
  marshal ⟨ri, si⟩

end

/-- The representative of `s` and `-s` modulo `N` in the lower half. -/
def lowHalf (N s : Int) : Int := if s ≤ N / 2 then s else N - s

section

variable {N s t : Int}

theorem lowHalf_eq_or (N s : Int) : lowHalf N s = s ∨ lowHalf N s = N - s := by
  unfold lowHalf
  split
  next => exact .inl rfl
  next => exact .inr rfl

theorem lowHalf_le_half (odd : N % 2 = 1) (s : Int) : lowHalf N s ≤ N / 2 := by
  unfold lowHalf
  split
  next low => exact low
  next high => omega

theorem one_le_lowHalf (pos : 1 ≤ s) (lt : s ≤ N - 1) : 1 ≤ lowHalf N s := by
  cases lowHalf_eq_or N s with
  | inl same => omega
  | inr negated => omega

theorem lowHalf_of_le (low : s ≤ N / 2) : lowHalf N s = s := if_pos low

theorem lowHalf_neg (odd : N % 2 = 1) (s : Int) : lowHalf N (N - s) = lowHalf N s := by
  unfold lowHalf
  split
  next low => rw [if_neg (by omega)]
  next high =>
    rw [if_pos (by omega)]
    omega

/-- Two numbers with one representative are the same or negatives of each other. -/
theorem lowHalf_eq_iff (odd : N % 2 = 1) : lowHalf N s = lowHalf N t ↔ s = t ∨ s + t = N := by
  constructor
  · intro h
    cases lowHalf_eq_or N s with
    | inl fst => cases lowHalf_eq_or N t with
      | inl snd => exact .inl (by omega)
      | inr snd => exact .inr (by omega)
    | inr fst => cases lowHalf_eq_or N t with
      | inl snd => exact .inr (by omega)
      | inr snd => exact .inl (by omega)
  · intro h
    cases h with
    | inl same => rw [same]
    | inr negated =>
      rw [show t = N - s by omega]
      exact (lowHalf_neg odd s).symm

end

/-- Whether `CurveHalfOrders` has the curve of the key. -/
def PublicKey.Supported (k : PublicKey) : Prop := (CurveHalfOrders.lookup k.curve).isSome

instance (k : PublicKey) : Decidable k.Supported :=
  inferInstanceAs (Decidable ((CurveHalfOrders.lookup k.curve).isSome = true))

variable {sprint : Elliptic.Curve → String} {k : PublicKey}

theorem halfOrder_eq (supported : k.Supported) :
    CurveHalfOrders.lookup k.curve = some (k.N / 2) := by
  obtain ⟨curve⟩ := k
  cases curve with
  | other name params => cases supported
  | _ => decide +kernel

theorem N_odd (supported : k.Supported) : k.N % 2 = 1 := by
  obtain ⟨curve⟩ := k
  cases curve with
  | other name params => cases supported
  | _ => decide +kernel

theorem isLowS_eq (supported : k.Supported) (s : Int) :
    isLowS sprint k s = .ok (decide (s ≤ k.N / 2)) := by
  simp only [isLowS, halfOrder_eq supported]
  by_cases low : s ≤ k.N / 2
  · rw [decide_eq_true low, bne_iff_ne.mpr (Int.compare_ne_gt.mpr low)]
  · have high : compare s (k.N / 2) = .gt := Int.compare_eq_gt.mpr (by omega)
    rw [decide_eq_false low, high]
    rfl

theorem toLowS_eq (sprint : Elliptic.Curve → String) (supported : k.Supported) (s : Int) :
    toLowS sprint k s =
      (lowHalf k.N s, .ok (lowHalf k.N s, decide (k.N / 2 < s))) := by
  simp only [toLowS, isLowS_eq supported, lowHalf]
  by_cases low : s ≤ k.N / 2
  · simp [low]
  · have high : k.N / 2 < s := by omega
    simp [low, high]

theorem toLowS_unsupported (unsupported : ¬ k.Supported) (s : Int) :
    toLowS sprint k s = (s, .error ("curve not recognized [" ++ sprint k.curve ++ "]")) := by
  have none : CurveHalfOrders.lookup k.curve = none := Option.not_isSome_iff_eq_none.mp unsupported
  simp only [toLowS, isLowS, none]

/-- What `toLowS` makes of `s` on a curve with group order `N`: the canonical one of the two numbers
that a signature could carry for it. -/
def Canonical (sprint : Elliptic.Curve → String) (k : PublicKey) (s : Int) : Prop :=
  ∃ s' flag, toLowS sprint k s = (s', .ok (s', flag)) ∧
    (1 ≤ s' ∧ s' ≤ k.N / 2) ∧ (s' = s ∨ s' = k.N - s) ∧
    isLowS sprint k s' = .ok true ∧ (flag = true ↔ k.N / 2 < s) ∧
    toLowS sprint k s' = (s', .ok (s', false)) ∧
    (∃ flag', toLowS sprint k (k.N - s) = (s', .ok (s', flag'))) ∧
    ∀ t flag', 1 ≤ t → t ≤ k.N - 1 → toLowS sprint k t = (s', .ok (s', flag')) →
      s = t ∨ (s + t) % k.N = 0

theorem toLowS_canonical (sprint : Elliptic.Curve → String) (k : PublicKey) :
    (k.Supported → ∀ s, 1 ≤ s → s ≤ k.N - 1 → Canonical sprint k s) ∧
      (¬ k.Supported → ∀ s, ∃ err, toLowS sprint k s = (s, .error err)) := by
  constructor
  · intro supported s pos lt
    have odd := N_odd supported
    have low := lowHalf_le_half odd s
    have again := toLowS_eq sprint supported (lowHalf k.N s)
    rw [lowHalf_of_le low, decide_eq_false (by omega)] at again
    have negated := toLowS_eq sprint supported (k.N - s)
    rw [lowHalf_neg odd] at negated
    refine ⟨_, _, toLowS_eq sprint supported s, ⟨one_le_lowHalf pos lt, low⟩,
      lowHalf_eq_or k.N s, ?_, decide_eq_true_iff, again, ⟨_, negated⟩, ?_⟩
    · rw [isLowS_eq supported, decide_eq_true low]
    · intro t flag' _ _ same
      rw [toLowS_eq sprint supported t] at same
      cases (lowHalf_eq_iff odd).mp (Prod.mk.inj same).1.symm with
      | inl equal => exact .inl equal
      | inr opposite => exact .inr (by rw [opposite, Int.emod_self])
  · intro unsupported s
    exact ⟨_, toLowS_unsupported unsupported s⟩

theorem toLowS_canonical_P256 :
    Canonical (fun _ => "") ⟨.P256⟩ 1 ∧
      ∃ err, toLowS (fun _ => "&{}") ⟨.other "P-192" ⟨7⟩⟩ 6 = (6, .error err) :=
  ⟨(toLowS_canonical (fun _ => "") ⟨.P256⟩).1 (by decide) 1 (by decide) (by decide +kernel),
    (toLowS_canonical (fun _ => "&{}") ⟨.other "P-192" ⟨7⟩⟩).2 (by decide) 6⟩

section

variable {ecdsaSign : PrivateKey → Bytes → Except String (Int × Int)}
  {marshal : ECDSASignature → Except String Bytes}

/-- Whatever number the signer draws, the signature that leaves `sign` is a low one. -/
theorem sign_isLowS {c : Crypto} {message signature : Bytes}
    (signed : c.sign sprint ecdsaSign marshal message = .ok signature) :
    ∃ R S, isLowS sprint c.privKey.publicKey S = .ok true ∧ marshal ⟨R, S⟩ = .ok signature := by
  obtain ⟨⟨ri, si⟩, _, signed⟩ := PanicRun.bind_eq_ok.mp signed
  obtain ⟨⟨S, flag⟩, low, signed⟩ := PanicRun.bind_eq_ok.mp signed
  refine ⟨ri, S, ?_, signed⟩
  by_cases supported : c.privKey.publicKey.Supported
  · rw [toLowS_eq sprint supported] at low
    obtain ⟨rfl, _⟩ := Prod.mk.inj (Except.ok.inj low)
    rw [isLowS_eq supported, decide_eq_true (lowHalf_le_half (N_odd supported) si)]
  · rw [toLowS_unsupported supported] at low
    cases low

end

end FabricCommon.Golang
