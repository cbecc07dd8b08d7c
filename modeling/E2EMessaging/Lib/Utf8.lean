/-
  READING UTF-8 THAT MAY BE BROKEN.

  The decoder of the web platform goes over the bytes once.  Between two bytes it is at the start of a
  character, or it waits for continuation bytes: how many, what it has read so far, and in which range the
  NEXT byte must lie (the range is narrower after E0, ED, F0 and F4, which keeps overlong forms, surrogates
  and points beyond U+10FFFF out).  A byte that does not fit ends the character as U+FFFD and is read again
  as the first of another.  So every byte string decodes, and what an encoder wrote decodes to what was
  encoded (`decodeUtf8_encode`).
-/
import E2EMessaging.Lib.Bytes

namespace E2EMessaging.Lib

/-- U+FFFD. -/
def unknownChar : Char := Char.ofNat 0xFFFD

/-- The decoder between two bytes. -/
inductive Utf8State where
  | start
  | more (left point lower upper : Nat)
  deriving Repr, DecidableEq

/-- The first byte of a character: what it yields at once, and the next state. -/
def utf8First (b : Nat) : List Char × Utf8State :=
  if b ≤ 0x7F then ([Char.ofNat b], .start)
  else if 0xC2 ≤ b ∧ b ≤ 0xDF then ([], .more 1 (b % 0x20) 0x80 0xBF)
  else if 0xE0 ≤ b ∧ b ≤ 0xEF then
    ([], .more 2 (b % 0x10) (if b = 0xE0 then 0xA0 else 0x80) (if b = 0xED then 0x9F else 0xBF))
  else if 0xF0 ≤ b ∧ b ≤ 0xF4 then
    ([], .more 3 (b % 0x08) (if b = 0xF0 then 0x90 else 0x80) (if b = 0xF4 then 0x8F else 0xBF))
  else ([unknownChar], .start)

/-- One byte. -/
def utf8Step : Utf8State → Nat → List Char × Utf8State
  | .start, b => utf8First b
  | .more left point lower upper, b =>
    if lower ≤ b ∧ b ≤ upper then
      if left = 1 then ([Char.ofNat (point * 0x40 + b % 0x40)], .start)
      else ([], .more (left - 1) (point * 0x40 + b % 0x40) 0x80 0xBF)
    else
      -- the byte is not part of the character: it starts another
      (unknownChar :: (utf8First b).1, (utf8First b).2)

/-- The characters of the rest, from a state. -/
def decodeUtf8From : Utf8State → Bytes → List Char
  | .start, [] => []
  | .more _ _ _ _, [] => [unknownChar]
  | st, b :: bs => (utf8Step st b.toNat).1 ++ decodeUtf8From (utf8Step st b.toNat).2 bs

/-- All characters of a byte string. -/
def decodeUtf8 (bs : Bytes) : List Char := decodeUtf8From .start bs

theorem decodeUtf8From_cons (st : Utf8State) (b : UInt8) (bs : Bytes) :
    decodeUtf8From st (b :: bs) =
      (utf8Step st b.toNat).1 ++ decodeUtf8From (utf8Step st b.toNat).2 bs := by
  cases st with
  | start => rfl
  | more left point lower upper => rfl

/-- A byte that fits the range is taken. -/
theorem decodeUtf8From_more {left point lower upper n : Nat} (hlower : lower ≤ n) (hupper : n ≤ upper)
    (hn : n < 256) (hleft : left ≠ 1) (bs : Bytes) :
    decodeUtf8From (.more left point lower upper) (UInt8.ofNat n :: bs) =
      decodeUtf8From (.more (left - 1) (point * 0x40 + n % 0x40) 0x80 0xBF) bs := by
  rw [decodeUtf8From_cons, UInt8.toNat_ofNat_of_lt' hn, utf8Step, if_pos ⟨hlower, hupper⟩, if_neg hleft]
  rfl

/-- The last one completes the character. -/
theorem decodeUtf8From_last {point lower upper n : Nat} (hlower : lower ≤ n) (hupper : n ≤ upper)
    (hn : n < 256) (bs : Bytes) :
    decodeUtf8From (.more 1 point lower upper) (UInt8.ofNat n :: bs) =
      Char.ofNat (point * 0x40 + n % 0x40) :: decodeUtf8From .start bs := by
  rw [decodeUtf8From_cons, UInt8.toNat_ofNat_of_lt' hn, utf8Step, if_pos ⟨hlower, hupper⟩, if_pos rfl]
  rfl

theorem decodeUtf8From_start {n : Nat} (hn : n < 256) (bs : Bytes) :
    decodeUtf8From .start (UInt8.ofNat n :: bs) =
      (utf8First n).1 ++ decodeUtf8From (utf8First n).2 bs := by
  rw [decodeUtf8From_cons, UInt8.toNat_ofNat_of_lt' hn, utf8Step]

/-- **One encoded character decodes to itself.** -/
theorem decodeUtf8From_encodeChar (c : Char) (bs : Bytes) :
    decodeUtf8From .start (String.utf8EncodeChar c ++ bs) = c :: decodeUtf8From .start bs := by
  have hc : Char.ofNat c.val.toNat = c := Char.ofNat_toNat c
  have hvalid : c.val.toNat < 0xD800 ∨ 0xDFFF < c.val.toNat ∧ c.val.toNat < 0x110000 := c.valid
  generalize hv : c.val.toNat = v at hc hvalid
  simp only [String.utf8EncodeChar, hv]
  by_cases h1 : v ≤ 0x7F
  · rw [if_pos h1]
    show decodeUtf8From .start (UInt8.ofNat v :: bs) = _
    rw [decodeUtf8From_start (by omega), utf8First, if_pos h1, hc]
    rfl
  rw [if_neg h1]
  by_cases h2 : v ≤ 0x7FF
  · rw [if_pos h2]
    show decodeUtf8From .start (UInt8.ofNat _ :: UInt8.ofNat _ :: bs) = _
    rw [decodeUtf8From_start (by omega), utf8First, if_neg (by omega), if_pos (by omega)]
    show decodeUtf8From (.more 1 _ _ _) _ = _
    rw [decodeUtf8From_last (by omega) (by omega) (by omega)]
    rw [show (v / 64 % 0x20 + 0xC0) % 0x20 * 0x40 + (v % 0x40 + 0x80) % 0x40 = v by omega, hc]
  rw [if_neg h2]
  by_cases h3 : v ≤ 0xFFFF
  · rw [if_pos h3]
    show decodeUtf8From .start (UInt8.ofNat _ :: UInt8.ofNat _ :: UInt8.ofNat _ :: bs) = _
    rw [decodeUtf8From_start (by omega), utf8First, if_neg (by omega), if_neg (by omega), if_pos (by omega)]
    show decodeUtf8From (.more 2 _ _ _) _ = _
    rw [decodeUtf8From_more (by split <;> omega) (by split <;> omega) (by omega) (by omega)]
    rw [decodeUtf8From_last (by omega) (by omega) (by omega)]
    rw [show ((v / 4096 % 0x10 + 0xE0) % 0x10 * 0x40 + (v / 64 % 0x40 + 0x80) % 0x40) * 0x40 +
      (v % 0x40 + 0x80) % 0x40 = v by omega, hc]
  rw [if_neg h3]
  show decodeUtf8From .start (UInt8.ofNat _ :: UInt8.ofNat _ :: UInt8.ofNat _ :: UInt8.ofNat _ :: bs) = _
  rw [decodeUtf8From_start (by omega), utf8First, if_neg (by omega), if_neg (by omega), if_neg (by omega),
    if_pos (by omega)]
  show decodeUtf8From (.more 3 _ _ _) _ = _
  rw [decodeUtf8From_more (by split <;> omega) (by split <;> omega) (by omega) (by omega)]
  rw [decodeUtf8From_more (by omega) (by omega) (by omega) (by omega)]
  rw [decodeUtf8From_last (by omega) (by omega) (by omega)]
  rw [show (((v / 262144 % 0x08 + 0xF0) % 0x08 * 0x40 + (v / 4096 % 0x40 + 0x80) % 0x40) * 0x40 +
    (v / 64 % 0x40 + 0x80) % 0x40) * 0x40 + (v % 0x40 + 0x80) % 0x40 = v by omega, hc]

/-- **Decoding inverts encoding.** -/
theorem decodeUtf8_encode (cs : List Char) : decodeUtf8 (cs.flatMap String.utf8EncodeChar) = cs := by
  rw [decodeUtf8]
  induction cs with
  | nil => rfl
  | cons c cs ih => rw [List.flatMap_cons, decodeUtf8From_encodeChar, ih]

end E2EMessaging.Lib
