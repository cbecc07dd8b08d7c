/-
  SAFETY NUMBERS (`derive_safety_number` of `core/crypto/src/lib.rs`, `safety_number_for_display` of
  `core/crypto/src/device_qr.rs`).

  The number of two devices is libsignal's fingerprint of their identity keys, where each key is its own
  identifier.  libsignal is a parameter (`Fingerprints`), and what it documents of a fingerprint is named
  (`Fingerprints.Documented`): it has 60 digits, and they are the same seen from either side.

  What a fingerprint is FOR is that nobody finds two pairs with the same digits.  Such pairs exist, there being more
  pairs than digits, so that there are none is not assumed: where a result needs it, it says "or here are two".
-/
import E2EMessaging.Crypto.DeviceQr

namespace E2EMessaging.Crypto

open E2EMessaging.Lib

/-! ## The program -/

/-- `SAFETY_NUMBER_VERSION`. -/
def safetyNumberVersion : Nat := 1

/-- `SAFETY_NUMBER_ITERATIONS`. -/
def safetyNumberIterations : Nat := 5200

/-- `SafetyNumberError`. -/
inductive SafetyNumberError where
  | invalidIdentityKey
  deriving Repr, DecidableEq

/-- How it is displayed. -/
def SafetyNumberError.text : SafetyNumberError → String
  | .invalidIdentityKey => "malformed or unrecognized identity key"

/-- What the code uses of libsignal. -/
structure Fingerprints (Key : Type) where
  /-- `IdentityKey::decode`. -/
  decode : Bytes → Option Key
  /-- `Fingerprint::new` and `display_string`, for a version and a number of iterations, and the identifier and the
      key of either side. -/
  fingerprint : Nat → Nat → Bytes → Key → Bytes → Key → Option String

variable {Key : Type}

/-- `derive_safety_number`. -/
def deriveSafetyNumber (S : Fingerprints Key) (localId localIdentityKey remoteId remoteIdentityKey : Bytes) :
    Except SafetyNumberError String :=
  match S.decode localIdentityKey with
  | none => .error .invalidIdentityKey
  | some localKey =>
    match S.decode remoteIdentityKey with
    | none => .error .invalidIdentityKey
    | some remoteKey =>
      match S.fingerprint safetyNumberVersion safetyNumberIterations localId localKey remoteId remoteKey with
      | none => .error .invalidIdentityKey
      | some number => .ok number

/-- `safety_number_for_display`. -/
def safetyNumberForDisplay (S : Fingerprints Key) (primaryKey newDeviceKey : Bytes) : Except QrError String :=
  match deriveSafetyNumber S primaryKey primaryKey newDeviceKey newDeviceKey with
  | .error e => .error (.keyError e.text)
  | .ok number => .ok number

/-- How a `QrError` is displayed. -/
def QrError.text : QrError → String
  | .encodeFailed message => "QR encode failed: " ++ message
  | .invalidPayload message => "invalid QR payload: " ++ message
  | .keyError message => "key error: " ++ message

/-! ## What a number says -/

/-- What libsignal documents of fingerprints. -/
structure Fingerprints.Documented (S : Fingerprints Key) : Prop where
  /-- The display string is made of 60 digits. -/
  digits : ∀ {version iterations i k j l n}, S.fingerprint version iterations i k j l = some n →
    n.toList.length = 60 ∧ ∀ c ∈ n.toList, c.isDigit = true
  /-- The halves are sorted. -/
  symmetric : ∀ version iterations i k j l,
    S.fingerprint version iterations i k j l = S.fingerprint version iterations j l i k

section Numbers

variable {S : Fingerprints Key} {x y : Bytes} {n : String}

/-- Where a number comes from. -/
theorem safetyNumberForDisplay_eq_ok (h : safetyNumberForDisplay S x y = .ok n) :
    ∃ k l, S.decode x = some k ∧ S.decode y = some l ∧
      S.fingerprint safetyNumberVersion safetyNumberIterations x k y l = some n := by
  rw [safetyNumberForDisplay, deriveSafetyNumber] at h
  cases hk : S.decode x with
  | none =>
    rw [hk] at h
    cases h
  | some k =>
    cases hl : S.decode y with
    | none =>
      rw [hk, hl] at h
      cases h
    | some l =>
      rw [hk, hl] at h
      dsimp only at h
      cases hn : S.fingerprint safetyNumberVersion safetyNumberIterations x k y l with
      | none =>
        rw [hn] at h
        cases h
      | some m =>
        rw [hn] at h
        obtain rfl := Except.ok.inj h
        exact ⟨k, l, rfl, rfl, hn⟩

theorem safetyNumberForDisplay_of_decode {k l : Key} (hk : S.decode x = some k) (hl : S.decode y = some l)
    (hn : S.fingerprint safetyNumberVersion safetyNumberIterations x k y l = some n) :
    safetyNumberForDisplay S x y = .ok n := by
  rw [safetyNumberForDisplay, deriveSafetyNumber, hk, hl]
  dsimp only
  rw [hn]

/-- Both devices derive the same number. -/
theorem safetyNumberForDisplay_swap (hS : S.Documented) (h : safetyNumberForDisplay S x y = .ok n) :
    safetyNumberForDisplay S y x = .ok n := by
  obtain ⟨k, l, hk, hl, hn⟩ := safetyNumberForDisplay_eq_ok h
  rw [hS.symmetric] at hn
  exact safetyNumberForDisplay_of_decode hl hk hn

theorem safetyNumberForDisplay_digits (hS : S.Documented) (h : safetyNumberForDisplay S x y = .ok n) :
    n.toList.length = 60 ∧ ∀ c ∈ n.toList, c.isDigit = true := by
  obtain ⟨k, l, -, -, hn⟩ := safetyNumberForDisplay_eq_ok h
  exact hS.digits hn

end Numbers

end E2EMessaging.Crypto
