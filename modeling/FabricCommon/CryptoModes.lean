import FabricCommon.CurveOrder
import FabricCommon.Ecdsa
import FabricCommon.LowS
import Mathlib.Data.List.Induction
import Mathlib.Data.Nat.Digits.Defs

namespace FabricCommon.Golang

open PanicRun

/-- A function of the package `hash` of the gateway. -/
abbrev Hash := Bytes → Bytes

/-- A `Crypto` with the digest that it keeps for a gateway. -/
structure ModalCrypto extends Crypto where
  gatewayDigest : Option Hash

namespace ModalCrypto

/-- `Digest`: what a gateway hashes a message with before it has it signed. -/
def Digest (c : ModalCrypto) (message : Bytes) : Bytes :=
  match c.gatewayDigest with
  | some gatewayDigest => gatewayDigest message
  | none => c.digest message

-- the functions that the settings choose between
variable (SHA256 NONE : Hash)

def DefaultMode (c : ModalCrypto) : ModalCrypto :=
  { c with digest := SHA256, gatewayDigest := none }

def GatewayMode (c : ModalCrypto) : ModalCrypto :=
  { c with digest := NONE, gatewayDigest := some SHA256 }

def SetDigest (digestFunc : Hash) (c : ModalCrypto) : ModalCrypto := { c with digest := digestFunc }

/-- What `LoadCryptoFrom` makes of the key it has read. -/
def load (priv : PrivateKey) : ModalCrypto := DefaultMode SHA256 ⟨⟨priv, NONE⟩, none⟩

inductive ModeChange
  | DefaultMode
  | GatewayMode
  | SetDigest (digestFunc : Hash)

def change (c : ModalCrypto) : ModeChange → ModalCrypto
  | .DefaultMode => c.DefaultMode SHA256
  | .GatewayMode => c.GatewayMode SHA256 NONE
  | .SetDigest digestFunc => c.SetDigest digestFunc

def run (c : ModalCrypto) (changes : List ModeChange) : ModalCrypto :=
  changes.foldl (change SHA256 NONE) c

/-- The digest that the last change has left for `Sign`; for a gateway, none at all. -/
def signDigest (changes : List ModeChange) : Hash :=
  match changes.getLast? with
  | none => SHA256
  | some .DefaultMode => SHA256
  | some .GatewayMode => fun message => message
  | some (.SetDigest digestFunc) => digestFunc

/-- Whether the last mode that was set is the one for a gateway. -/
def inGatewayMode (changes : List ModeChange) : Bool :=
  changes.foldl (fun inGateway x => match x with
    | .DefaultMode => false
    | .GatewayMode => true
    | .SetDigest _ => inGateway) false

end ModalCrypto

/-- Who has a message signed: the caller itself, or a gateway client that takes `Digest` for its
hash and `Sign` for its signer. -/
inductive SigningPath
  | direct
  | gateway
  deriving DecidableEq

namespace ModalCrypto

variable (sprint : Elliptic.Curve → String)
  (ecdsaSign : PrivateKey → Bytes → Except String (Int × Int))
  (marshal : ECDSASignature → Except String Bytes)

def signVia (c : ModalCrypto) : SigningPath → Bytes → Except String Bytes
  | .direct, message => c.sign sprint ecdsaSign marshal message
  | .gateway, message => c.sign sprint ecdsaSign marshal (c.Digest message)

/-- The bytes that are signed for a message after the changes. -/
def hashed (SHA256 : Hash) (changes : List ModeChange) : SigningPath → Hash
  | .direct, message => signDigest SHA256 changes message
  | .gateway, message =>
    signDigest SHA256 changes
      (if inGatewayMode changes then SHA256 message else signDigest SHA256 changes message)

end ModalCrypto

/-- The points of a curve of order `N` with the integers that stand for the scalars. -/
structure CurveGroup (N : Int) (F G : Type) [Field F] [AddCommGroup G] [Module F G] extends
    Ecdsa.Domain F G where
  representative : F → Int
  representative_cast : ∀ x, (representative x : F) = x
  representative_nonneg : ∀ x, 0 ≤ representative x
  representative_lt : ∀ x, representative x < N
  order : (N : F) = 0

section

variable {N : Int} {F G : Type} [Field F] [AddCommGroup G] [Module F G] (group : CurveGroup N F G)

theorem CurveGroup.representative_pos {x : F} (h : x ≠ 0) : 0 < group.representative x := by
  have nonneg := group.representative_nonneg x
  have ne : group.representative x ≠ 0 := by
    intro zero
    apply h
    rw [← group.representative_cast x, zero, Int.cast_zero]
  omega

/-- The number that `ToLowS` may put for `s` stands for the negated scalar. -/
theorem cast_lowHalf_eq_or (order : (N : F) = 0) (s : Int) :
    ((lowHalf N s : Int) : F) = s ∨ ((lowHalf N s : Int) : F) = -s := by
  cases lowHalf_eq_or N s with
  | inl same => exact .inl (by rw [same])
  | inr negated => exact .inr (by rw [negated, Int.cast_sub, order, zero_sub])

/-- A scalar that `ecdsa.Sign` goes on with. -/
def Usable (d e k : F) : Prop := k ≠ 0 ∧ group.signR k ≠ 0 ∧ group.signS d e k ≠ 0

instance [DecidableEq F] (d e k : F) : Decidable (Usable group d e k) :=
  inferInstanceAs (Decidable (_ ∧ _ ∧ _))

variable [DecidableEq F] (hashToInt : Bytes → F)

/-- `ecdsa.Sign` on the scalars that come of the random bytes. -/
def ecdsaSignFrom (nonces : List F) (priv : PrivateKey) (digest : Bytes) :
    Except String (Int × Int) :=
  match nonces.find? fun k => Usable group (priv.D : F) (hashToInt digest) k with
  | none => .error "EOF"
  | some k => .ok (group.representative (group.signR k),
      group.representative (group.signS (priv.D : F) (hashToInt digest) k))

/-- The numbers of a signature that a verifier with the public key of `priv` takes for the digest,
the second of them a low one. -/
structure GoodSignature (priv : PrivateKey) (digest : Bytes) (sig : ECDSASignature) : Prop where
  r_pos : 0 < sig.R
  r_lt : sig.R < N
  s_pos : 0 < sig.S
  s_low : sig.S ≤ N / 2
  verifies : group.Verifies ((priv.D : F) • group.base) (hashToInt digest) sig.R sig.S

end

section

variable {N : Int} {F G : Type} [Field F] [DecidableEq F] [AddCommGroup G] [Module F G]
  {group : CurveGroup N F G} {hashToInt : Bytes → F} {nonces : List F} {priv : PrivateKey}
  {digest : Bytes}

theorem ecdsaSignFrom_ok {ri si : Int}
    (signed : ecdsaSignFrom group hashToInt nonces priv digest = .ok (ri, si)) :
    (0 < ri ∧ ri < N) ∧ (0 < si ∧ si < N) ∧
      group.Verifies ((priv.D : F) • group.base) (hashToInt digest) ri si := by
  unfold ecdsaSignFrom at signed
  split at signed
  next => cases signed
  next k drawn =>
    have usable : Usable group (priv.D : F) (hashToInt digest) k := by
      simpa using List.find?_some drawn
    obtain ⟨hk, hr, hs⟩ := usable
    obtain ⟨rfl, rfl⟩ := Prod.mk.inj (Except.ok.inj signed)
    refine ⟨⟨group.representative_pos hr, group.representative_lt _⟩,
      ⟨group.representative_pos hs, group.representative_lt _⟩, ?_⟩
    rw [group.representative_cast, group.representative_cast]
    exact Ecdsa.Domain.verifies_signed hk hr hs

theorem ecdsaSignFrom_returns
    (usable : ∃ k ∈ nonces, Usable group (priv.D : F) (hashToInt digest) k) :
    ∃ numbers, ecdsaSignFrom group hashToInt nonces priv digest = .ok numbers := by
  unfold ecdsaSignFrom
  obtain ⟨k, listed, hk⟩ := usable
  split
  next unusable => exact absurd hk (by simpa using List.find?_eq_none.mp unusable k listed)
  next => exact ⟨_, rfl⟩

variable {sprint : Elliptic.Curve → String} {marshal : ECDSASignature → Except String Bytes}
  {message signature : Bytes} {c : Crypto}

/-- What leaves `Sign` is as good as what `ecdsa.Sign` has drawn. -/
theorem sign_good (onCurve : c.privKey.publicKey.N = N)
    (signed : c.sign sprint (ecdsaSignFrom group hashToInt nonces) marshal message =
      .ok signature) :
    ∃ sig, marshal sig = .ok signature ∧
      GoodSignature group hashToInt c.privKey (c.digest message) sig := by
  obtain ⟨⟨ri, si⟩, drawn, signed⟩ := bind_eq_ok.mp signed
  obtain ⟨⟨S, flag⟩, low, signed⟩ := bind_eq_ok.mp signed
  obtain ⟨⟨r_pos, r_lt⟩, ⟨s_pos, s_lt⟩, verifies⟩ := ecdsaSignFrom_ok drawn
  by_cases supported : c.privKey.publicKey.Supported
  · rw [toLowS_eq sprint supported, onCurve] at low
    obtain ⟨rfl, _⟩ := Prod.mk.inj (Except.ok.inj low)
    have odd : N % 2 = 1 := onCurve ▸ N_odd supported
    have low_pos : 0 < lowHalf N si := one_le_lowHalf s_pos (Int.le_sub_one_of_lt s_lt)
    refine ⟨⟨ri, lowHalf N si⟩, signed, r_pos, r_lt, low_pos, lowHalf_le_half odd si, ?_⟩
    show group.Verifies _ _ _ ((lowHalf N si : Int) : F)
    cases cast_lowHalf_eq_or group.order si with
    | inl same => rwa [same]
    | inr negated =>
      rw [negated]
      exact Ecdsa.Domain.verifies_neg.mpr verifies
  · rw [toLowS_unsupported supported] at low
    cases low

theorem sign_returns (supported : c.privKey.publicKey.Supported)
    (marshals : ∀ sig, ∃ bytes, marshal sig = .ok bytes)
    (usable : ∃ k ∈ nonces, Usable group (c.privKey.D : F) (hashToInt (c.digest message)) k) :
    ∃ signature, c.sign sprint (ecdsaSignFrom group hashToInt nonces) marshal message =
      .ok signature := by
  obtain ⟨⟨ri, si⟩, drawn⟩ := ecdsaSignFrom_returns usable
  obtain ⟨bytes, encoded⟩ := marshals ⟨ri, lowHalf c.privKey.publicKey.N si⟩
  have low := congrArg Prod.snd (toLowS_eq sprint supported si)
  exact ⟨bytes, bind_eq_ok.mpr ⟨(ri, si), drawn, bind_eq_ok.mpr ⟨_, low, encoded⟩⟩⟩

end

namespace ModalCrypto

variable {SHA256 NONE : Hash} {priv : PrivateKey} {changes : List ModeChange}

theorem inGatewayMode_SetDigest (digestFunc : Hash) :
    inGatewayMode (changes ++ [.SetDigest digestFunc]) = inGatewayMode changes := by
  simp only [inGatewayMode, List.foldl_append, List.foldl_cons, List.foldl_nil]

/-- The state after any changes, from what the changes were. -/
theorem run_load (unchanged : ∀ message, NONE message = message) (changes : List ModeChange) :
    run SHA256 NONE (load SHA256 NONE priv) changes =
      ⟨⟨priv, signDigest SHA256 changes⟩, if inGatewayMode changes then some SHA256 else none⟩ := by
  have same : NONE = fun message => message := funext unchanged
  induction changes using List.reverseRecOn with
  | nil => rfl
  | append_singleton changes x ih =>
    have stepped : run SHA256 NONE (load SHA256 NONE priv) (changes ++ [x]) =
        change SHA256 NONE (run SHA256 NONE (load SHA256 NONE priv) changes) x := by
      simp only [run, List.foldl_append, List.foldl_cons, List.foldl_nil]
    rw [stepped, ih]
    cases x with
    | DefaultMode => simp [change, DefaultMode, signDigest, inGatewayMode]
    | GatewayMode => simp [change, GatewayMode, signDigest, inGatewayMode, same]
    | SetDigest digestFunc =>
      rw [inGatewayMode_SetDigest]
      simp [change, SetDigest, signDigest]

variable {sprint : Elliptic.Curve → String}
  {ecdsaSign : PrivateKey → Bytes → Except String (Int × Int)}
  {marshal : ECDSASignature → Except String Bytes}

/-- On both paths the message is signed as by a `Crypto` whose digest is that of the history. -/
theorem signVia_run (unchanged : ∀ message, NONE message = message) (path : SigningPath)
    (message : Bytes) :
    (run SHA256 NONE (load SHA256 NONE priv) changes).signVia sprint ecdsaSign marshal path
        message =
      Crypto.sign sprint ecdsaSign marshal ⟨priv, hashed SHA256 changes path⟩ message := by
  rw [run_load unchanged]
  cases path with
  | direct => rfl
  | gateway =>
    simp only [signVia, Digest, Crypto.sign, hashed]
    cases inGatewayMode changes <;> rfl

variable {F G : Type} [Field F] [DecidableEq F] [AddCommGroup G] [Module F G]

/-- However the modes and digests were set, what is signed on either path is a low signature that
verifies, for the bytes that the history of the settings says; and on a supported curve it is signed
as soon as a usable scalar is drawn. -/
theorem signVia_over_modes (SHA256 NONE : Hash) (unchanged : ∀ message, NONE message = message)
    (sprint : Elliptic.Curve → String)
    (marshal : ECDSASignature → Except String Bytes) (hashToInt : Bytes → F) (priv : PrivateKey)
    (group : CurveGroup priv.publicKey.N F G) (nonces : List F) (changes : List ModeChange)
    (path : SigningPath) (message : Bytes) :
    (∀ signature, (run SHA256 NONE (load SHA256 NONE priv) changes).signVia sprint
        (ecdsaSignFrom group hashToInt nonces) marshal path message = .ok signature →
      ∃ sig, marshal sig = .ok signature ∧
        GoodSignature group hashToInt priv (hashed SHA256 changes path message) sig) ∧
    (priv.publicKey.Supported → (∀ sig, ∃ bytes, marshal sig = .ok bytes) →
      (∃ k ∈ nonces, Usable group (priv.D : F)
        (hashToInt (hashed SHA256 changes path message)) k) →
      ∃ signature, (run SHA256 NONE (load SHA256 NONE priv) changes).signVia sprint
        (ecdsaSignFrom group hashToInt nonces) marshal path message = .ok signature) := by
  rw [signVia_run unchanged]
  constructor
  · intro signature signed
    exact sign_good (c := ⟨priv, hashed SHA256 changes path⟩) rfl signed
  · intro supported marshals usable
    exact sign_returns (c := ⟨priv, hashed SHA256 changes path⟩) supported marshals usable

instance : Fact CurveOrder.orderP256.Prime := ⟨CurveOrder.prime_P256⟩

/-- The first coordinate of twice the base point. -/
def doubledBaseX : ZMod CurveOrder.orderP256 :=
  0x7cf27b188d034f7e8a52380304b51ac3c08969e277f21b35a60b48fc47669978

/-- The points of P-256 by their discrete logarithms. The coordinate is the one of the curve at
twice the base point and its opposite, and not taken care of elsewhere. -/
def scalarsP256 : CurveGroup (PublicKey.mk .P256).N (ZMod CurveOrder.orderP256)
    (ZMod CurveOrder.orderP256) where
  base := 1
  coordinate P := if P * P = 4 then doubledBaseX else P * P
  coordinate_neg P := by simp only [neg_mul_neg]
  representative x := x.val
  representative_cast x := by rw [Int.cast_natCast, ZMod.natCast_zmod_val]
  representative_nonneg x := Int.natCast_nonneg _
  representative_lt x := Int.ofNat_lt.mpr (ZMod.val_lt x)
  order := ZMod.natCast_self CurveOrder.orderP256

/-- The number of a digest with as many bits as the order of the curve. -/
def bigEndian (digest : Bytes) : ZMod CurveOrder.orderP256 :=
  (digest.foldl (fun n b => 256 * n + b.toNat) 0 : ℕ)

/-- The digest of no bytes at all. -/
def emptyDigest : Bytes :=
  [0xe3, 0xb0, 0xc4, 0x42, 0x98, 0xfc, 0x1c, 0x14, 0x9a, 0xfb, 0xf4, 0xc8, 0x99, 0x6f, 0xb9, 0x24,
    0x27, 0xae, 0x41, 0xe4, 0x64, 0x9b, 0x93, 0x4c, 0xa4, 0x95, 0x99, 0x1b, 0x78, 0x52, 0xb8, 0x55]

/-- An integer that is not negative in the encoding of ASN.1. -/
def derInteger (n : Int) : Bytes :=
  let digits := (Nat.digits 256 n.toNat).reverse.map Nat.toUInt8
  let content := if digits.head?.all (· < 0x80) && digits ≠ [] then digits else 0 :: digits
  0x02 :: content.length.toUInt8 :: content

/-- `asn1.Marshal` of two such integers of 33 bytes at most. -/
def derSignature (sig : ECDSASignature) : Except String Bytes :=
  let content := derInteger sig.R ++ derInteger sig.S
  .ok (0x30 :: content.length.toUInt8 :: content)

example : derSignature ⟨1, 200⟩ = .ok [0x30, 7, 2, 1, 1, 2, 2, 0, 200] := by decide +kernel

theorem scalarsP256_usable : Usable scalarsP256 (3 : ZMod CurveOrder.orderP256)
    (bigEndian emptyDigest) 2 := by
  have two : (2 : ZMod CurveOrder.orderP256) ≠ 0 := by decide
  have doubled : scalarsP256.signR (2 : ZMod CurveOrder.orderP256) ≠ 0 := by decide +kernel
  refine ⟨two, doubled, mul_ne_zero (inv_ne_zero two) ?_⟩
  decide +kernel

/-- A gateway has the empty message signed after the mode was set for it. -/
theorem signVia_gateway_P256 :
    ∃ signature, (run (fun _ => emptyDigest) (fun message => message)
        (load (fun _ => emptyDigest) (fun message => message) ⟨⟨.P256⟩, 3⟩)
        [.GatewayMode]).signVia (fun _ => "") (ecdsaSignFrom scalarsP256 bigEndian [0, 2])
        derSignature .gateway [] = .ok signature ∧
      ∃ sig, derSignature sig = .ok signature ∧
        GoodSignature scalarsP256 bigEndian ⟨⟨.P256⟩, 3⟩ emptyDigest sig := by
  have signs := signVia_over_modes (fun _ => emptyDigest) (fun message => message) (fun _ => rfl)
    (fun _ => "") derSignature bigEndian ⟨⟨.P256⟩, 3⟩ scalarsP256 [0, 2] [.GatewayMode] .gateway []
  obtain ⟨signature, signed⟩ := signs.2 (by decide) (fun sig => ⟨_, rfl⟩)
    ⟨2, by simp, scalarsP256_usable⟩
  exact ⟨signature, signed, signs.1 signature signed⟩

end ModalCrypto

end FabricCommon.Golang
