/-
  BYTE STRINGS, the fixed-width integers written into them, and the machine arithmetic a decoder
  does on positions.

  A decoder reads a byte string at positions it computes itself, from lengths it does not trust.
  Three things can then happen: it returns a value, it REPORTS an error, or it PANICS (a slice or
  an index out of range, an overflow-checked addition that overflows).  `Outcome` keeps the three
  apart.  Additions on positions are done in `usize`, whose width and overflow mode are those of
  the target (`Arch`): 64 or 32 bits, panicking or wrapping.

  Integers are little-endian (`toLeBytes`/`fromLeBytes`) or big-endian (`toBeBytes`/`fromBeBytes`); writing a
  number in `w` bytes keeps it modulo `256 ^ w`, which is what a truncating cast does.  Names are made
  of byte strings in hex (`hexEncode`), which is one-to-one.
-/
import Mathlib.Data.List.Basic
import Mathlib.Tactic.Ring

namespace E2EMessaging.Lib

/-- A byte string. -/
abbrev Bytes := List UInt8

/-! ## Outcomes: a value, a reported error, or a panic -/

/-- The result of a computation that may report an error or panic. -/
inductive Outcome (ε α : Type) where
  | ok (a : α)
  | err (e : ε)
  | panic
  deriving Repr, DecidableEq

namespace Outcome

variable {ε α β : Type}

/-- Sequencing: the first error or panic is the result. -/
def bind (x : Outcome ε α) (f : α → Outcome ε β) : Outcome ε β :=
  match x with
  | ok a => f a
  | err e => err e
  | panic => panic

instance : Monad (Outcome ε) where
  pure := ok
  bind := bind

/-- The computation succeeds. -/
def isOk : Outcome ε α → Bool
  | ok _ => true
  | err _ => false
  | panic => false

theorem exists_of_isOk {x : Outcome ε α} (h : x.isOk = true) : ∃ a, x = ok a := by
  cases x with
  | ok a => exact ⟨a, rfl⟩
  | err e => cases h
  | panic => cases h

/-- A computation that can report an error but not panic. -/
def ofExcept : Except ε α → Outcome ε α
  | .ok a => ok a
  | .error e => err e

@[simp] theorem ok_bind (a : α) (f : α → Outcome ε β) : (ok a >>= f) = f a := rfl

end Outcome

/-! ## `usize` arithmetic on the target -/

/-- A target: the width of `usize` in bits, and whether an overflowing addition panics
    (overflow checks on) or wraps. -/
structure Arch where
  bits : Nat
  checked : Bool
  deriving Repr, DecidableEq

namespace Arch

/-- The largest size of an allocation, `isize::MAX` bytes. -/
def isizeMax (a : Arch) : Nat := 2 ^ (a.bits - 1) - 1

/-- `x + y` in `usize`. -/
def add {ε : Type} (a : Arch) (x y : Nat) : Outcome ε Nat :=
  if x + y < 2 ^ a.bits then .ok (x + y)
  else if a.checked then .panic
  else .ok ((x + y) % 2 ^ a.bits)

/-- `x - y` in `usize`. -/
def sub {ε : Type} (a : Arch) (x y : Nat) : Outcome ε Nat :=
  if y ≤ x then .ok (x - y)
  else if a.checked then .panic
  else .ok ((x + 2 ^ a.bits - y) % 2 ^ a.bits)

theorem add_of_lt {ε : Type} {a : Arch} {x y : Nat} (h : x + y < 2 ^ a.bits) :
    (a.add x y : Outcome ε Nat) = .ok (x + y) := if_pos h

theorem lt_of_le_isizeMax {a : Arch} {n : Nat} (h : n ≤ a.isizeMax) : n < 2 ^ a.bits := by
  rw [isizeMax] at h
  have hpos : 0 < 2 ^ (a.bits - 1) := Nat.pow_pos (by decide)
  have hle : 2 ^ (a.bits - 1) ≤ 2 ^ a.bits := Nat.pow_le_pow_right (by decide) (Nat.sub_le _ _)
  omega

end Arch

/-! ## Slices and indices -/

/-- `bs[i..j]`: panics unless `i ≤ j ≤ bs.len()`. -/
def slice {ε : Type} (bs : Bytes) (i j : Nat) : Outcome ε Bytes :=
  if i ≤ j ∧ j ≤ bs.length then .ok ((bs.drop i).take (j - i)) else .panic

/-- `bs[i]`: panics unless `i < bs.len()`. -/
def byteAt {ε : Type} (bs : Bytes) (i : Nat) : Outcome ε UInt8 :=
  match bs[i]? with
  | some b => .ok b
  | none => .panic

theorem slice_in_range {ε : Type} {bs : Bytes} {i j : Nat} (hij : i ≤ j) (hj : j ≤ bs.length) :
    (slice bs i j : Outcome ε Bytes) = .ok ((bs.drop i).take (j - i)) := if_pos ⟨hij, hj⟩

/-- Reading back a segment of a concatenation: the shape in which every round trip of an encoder
    and a positional decoder uses `slice`. -/
theorem slice_append {ε : Type} (pre mid post : Bytes) {i j : Nat} (hi : i = pre.length)
    (hj : j = pre.length + mid.length) :
    (slice (pre ++ mid ++ post) i j : Outcome ε Bytes) = .ok mid := by
  subst hi hj
  have hb : pre.length ≤ pre.length + mid.length ∧
      pre.length + mid.length ≤ (pre ++ mid ++ post).length := by
    simp only [List.length_append]
    omega
  rw [slice, if_pos hb]
  simp [List.append_assoc]

theorem byteAt_append {ε : Type} (pre : Bytes) (b : UInt8) (post : Bytes) {i : Nat}
    (hi : i = pre.length) : (byteAt (pre ++ b :: post) i : Outcome ε UInt8) = .ok b := by
  subst hi
  simp [byteAt]

/-! ## Fixed-width integers -/

/-- The `w` low-order bytes of `n`, least significant first. -/
def toLeBytes : Nat → Nat → Bytes
  | 0, _ => []
  | w + 1, n => UInt8.ofNat n :: toLeBytes w (n / 256)

/-- The number a little-endian byte string denotes. -/
def fromLeBytes : Bytes → Nat
  | [] => 0
  | b :: bs => b.toNat + 256 * fromLeBytes bs

/-- Big-endian: most significant byte first. -/
def toBeBytes (w n : Nat) : Bytes := (toLeBytes w n).reverse

/-- The number a big-endian byte string denotes. -/
def fromBeBytes (bs : Bytes) : Nat := fromLeBytes bs.reverse

@[simp] theorem length_toLeBytes (w n : Nat) : (toLeBytes w n).length = w := by
  induction w generalizing n with
  | zero => rfl
  | succ w ih => simp [toLeBytes, ih]

@[simp] theorem length_toBeBytes (w n : Nat) : (toBeBytes w n).length = w := by
  simp [toBeBytes]

/-- Writing in `w` bytes and reading back keeps the number modulo `256 ^ w`. -/
theorem fromLeBytes_toLeBytes (w n : Nat) : fromLeBytes (toLeBytes w n) = n % 256 ^ w := by
  induction w generalizing n with
  | zero => simp [toLeBytes, fromLeBytes, Nat.mod_one]
  | succ w ih =>
    have hb : (UInt8.ofNat n).toNat = n % 256 := by simp
    rw [toLeBytes, fromLeBytes, ih, hb, pow_succ', Nat.mod_mul]

theorem fromLeBytes_toLeBytes_of_lt {w n : Nat} (h : n < 256 ^ w) :
    fromLeBytes (toLeBytes w n) = n := by
  rw [fromLeBytes_toLeBytes, Nat.mod_eq_of_lt h]

/-! ## Hex -/

/-- A lower-case hex digit. -/
def hexDigit (n : Nat) : Char := "0123456789abcdef".toList.getD n '0'

/-- Lower-case hex, two digits a byte (`hex::encode`). -/
def hexEncode (bs : Bytes) : String :=
  String.ofList (bs.flatMap fun b => [hexDigit (b.toNat / 16), hexDigit (b.toNat % 16)])

theorem hexDigit_inj : ∀ a b : Fin 16, hexDigit a = hexDigit b → a = b := by decide

/-- Two digits determine the byte. -/
theorem hexByte_inj {a b : UInt8} (hhi : hexDigit (a.toNat / 16) = hexDigit (b.toNat / 16))
    (hlo : hexDigit (a.toNat % 16) = hexDigit (b.toNat % 16)) : a = b := by
  have ha : a.toNat < 256 := a.toNat_lt
  have hb : b.toNat < 256 := b.toNat_lt
  have hdiv := hexDigit_inj ⟨a.toNat / 16, by omega⟩ ⟨b.toNat / 16, by omega⟩ hhi
  have hmod := hexDigit_inj ⟨a.toNat % 16, by omega⟩ ⟨b.toNat % 16, by omega⟩ hlo
  simp only [Fin.mk.injEq] at hdiv hmod
  have hnat : a.toNat = b.toNat := by omega
  exact UInt8.toNat_inj.mp hnat

/-- **Hex determines the bytes.** -/
theorem hexEncode_injective {xs ys : Bytes} (h : hexEncode xs = hexEncode ys) : xs = ys := by
  have hchars := String.ofList_injective h
  clear h
  induction xs generalizing ys with
  | nil =>
    cases ys with
    | nil => rfl
    | cons y ys => simp at hchars
  | cons x xs ih =>
    cases ys with
    | nil => simp at hchars
    | cons y ys =>
      simp only [List.flatMap_cons, List.cons_append, List.nil_append, List.cons.injEq] at hchars
      obtain ⟨hhi, hlo, htail⟩ := hchars
      rw [hexByte_inj hhi hlo, ih htail]

end E2EMessaging.Lib
