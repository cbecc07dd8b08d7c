/-
  WHAT `b64_decode` ACCEPTS, and that `b64_encode` is inverted by it.

  The decoder works on the UTF-8 bytes of the string, checks characters, padding count and length
  separately, and shuffles bits; `Lib.Base64` says what base64 is on characters and numbers.  The two
  are compared here:

  * the decoder accepts every padded text, with its value, and ONE more kind of text: alphabet
    characters followed by `'='` and one more alphabet character.  The padding count is the number of
    characters FROM the first `'='` on, so this `'='` is counted but not required to be at the end;
  * the encoder's loop stays inside its alphabet table, writes the standard text, and the decoder
    gives the bytes back.
-/
import Mathlib.Data.List.TakeWhile
import E2EMessaging.Lib.Base64
import E2EMessaging.Relay.Base64

namespace E2EMessaging.Relay

open E2EMessaging.Lib

/-! ## Characters and their UTF-8 bytes -/

/-- The byte of an ASCII character. -/
def asciiByte (c : Char) : UInt8 := UInt8.ofNat c.toNat

theorem utf8EncodeChar_ascii {c : Char} (h : c.toNat < 128) :
    String.utf8EncodeChar c = [asciiByte c] := by
  have hle : c.val.toNat ≤ 127 := by
    show c.toNat ≤ 127
    omega
  simp only [String.utf8EncodeChar, if_pos hle]
  rfl

theorem le_toNat_ofNat {n : Nat} (hlo : 128 ≤ n) (hhi : n < 256) : 128 ≤ (UInt8.ofNat n).toNat := by
  rw [UInt8.toNat_ofNat', Nat.mod_eq_of_lt hhi]
  exact hlo

/-- Outside ASCII every byte of a character is. -/
theorem utf8EncodeChar_high {c : Char} (h : 128 ≤ c.toNat) {b : UInt8}
    (hb : b ∈ String.utf8EncodeChar c) : 128 ≤ b.toNat := by
  have hgt : ¬ c.val.toNat ≤ 127 := by
    show ¬ c.toNat ≤ 127
    omega
  rw [String.utf8EncodeChar] at hb
  simp only [if_neg hgt] at hb
  split at hb
  · simp only [List.mem_cons, List.not_mem_nil, or_false] at hb
    rcases hb with rfl | rfl <;> exact le_toNat_ofNat (by omega) (by omega)
  · split at hb
    · simp only [List.mem_cons, List.not_mem_nil, or_false] at hb
      rcases hb with rfl | rfl | rfl <;> exact le_toNat_ofNat (by omega) (by omega)
    · simp only [List.mem_cons, List.not_mem_nil, or_false] at hb
      rcases hb with rfl | rfl | rfl | rfl <;> exact le_toNat_ofNat (by omega) (by omega)

/-- `lookup` finds the characters of the alphabet … -/
theorem lookup_charAt {v : Nat} (hv : v < 64) :
    lookup (asciiByte (Base64.charAt v)) = some (UInt8.ofNat v) := by
  have hall : ∀ v < 64, lookup (UInt8.ofNat (Base64.codes.getD v 65)) = some (UInt8.ofNat v) := by
    decide +kernel
  rw [asciiByte, Base64.toNat_charAt, hall v hv]

/-- … and, in ASCII, no others. -/
theorem charAt_of_lookup {c : Char} (hc : c.toNat < 128) {s : UInt8}
    (hs : lookup (asciiByte c) = some s) : s.toNat < 64 ∧ Base64.charAt s.toNat = c := by
  have hall : ∀ n < 128, (lookup (UInt8.ofNat n)).all (fun s =>
      decide (s.toNat < 64 ∧ Base64.codes.getD s.toNat 65 = n)) = true := by decide +kernel
  have h := hall c.toNat hc
  rw [show lookup (UInt8.ofNat c.toNat) = some s from hs] at h
  obtain ⟨hlt, hcode⟩ := of_decide_eq_true h
  rw [← Base64.toNat_charAt] at hcode
  exact ⟨hlt, Char.toNat_inj.mp hcode⟩

/-- On ASCII, `lookup` is the sextet of the character. -/
theorem lookup_asciiByte {c : Char} (h : c.toNat < 128) :
    lookup (asciiByte c) = (Base64.value c).map UInt8.ofNat := by
  cases hlookup : lookup (asciiByte c) with
  | some s =>
    obtain ⟨hlt, hchar⟩ := charAt_of_lookup h hlookup
    rw [← hchar, Base64.value_charAt hlt, Option.map_some, UInt8.ofNat_toNat]
  | none =>
    cases hvalue : Base64.value c with
    | none => rfl
    | some v =>
      have hfound := lookup_charAt (Base64.value_lt hvalue)
      rw [Base64.charAt_of_value hvalue, hlookup] at hfound
      cases hfound

theorem lookup_of_high {b : UInt8} (h : 128 ≤ b.toNat) : lookup b = none := by
  have hle : ∀ n : UInt8, n.toNat < 128 → ¬ b ≤ n := by
    intro n hn hb
    have := UInt8.le_iff_toNat_le.mp hb
    omega
  have hne : ∀ n : UInt8, n.toNat < 128 → b ≠ n := by
    rintro n hn rfl
    omega
  rw [lookup, if_neg (fun hc => hle 90 (by decide) hc.2), if_neg (fun hc => hle 122 (by decide) hc.2),
    if_neg (fun hc => hle 57 (by decide) hc.2), if_neg (hne 43 (by decide)),
    if_neg (hne 47 (by decide))]

/-- An ASCII character is told by its byte. -/
theorem asciiByte_eq_iff {c d : Char} (hc : c.toNat < 128) (hd : d.toNat < 128) :
    asciiByte c = asciiByte d ↔ c = d := by
  constructor
  · intro h
    have hnat := congrArg UInt8.toNat h
    rw [asciiByte, asciiByte, UInt8.toNat_ofNat', UInt8.toNat_ofNat'] at hnat
    have heq : c.toNat = d.toNat := by omega
    rw [← Char.ofNat_toNat c, ← Char.ofNat_toNat d, heq]
  · rintro rfl
    rfl

/-! ## The text a string holds -/

/-- `t`: the string without spaces, carriage returns and newlines. -/
def stripped (s : String) : List Char :=
  s.toList.filter fun c => decide (c ≠ '\n' ∧ c ≠ '\r' ∧ c ≠ ' ')

/-- The filter of `b64_decode`. -/
def isText (b : UInt8) : Bool := decide (b ≠ 10 ∧ b ≠ 13 ∧ b ≠ 32)

/-- Whitespace goes from the bytes as it goes from the characters. -/
theorem filter_utf8EncodeChar (c : Char) :
    (String.utf8EncodeChar c).filter isText =
      if c ≠ '\n' ∧ c ≠ '\r' ∧ c ≠ ' ' then String.utf8EncodeChar c else [] := by
  rcases Nat.lt_or_ge c.toNat 128 with h | h
  · have hiff : isText (asciiByte c) = true ↔ (c ≠ '\n' ∧ c ≠ '\r' ∧ c ≠ ' ') := by
      have hnl : asciiByte c ≠ 10 ↔ c ≠ '\n' := not_congr (asciiByte_eq_iff (d := '\n') h (by decide))
      have hcr : asciiByte c ≠ 13 ↔ c ≠ '\r' := not_congr (asciiByte_eq_iff (d := '\r') h (by decide))
      have hsp : asciiByte c ≠ 32 ↔ c ≠ ' ' := not_congr (asciiByte_eq_iff (d := ' ') h (by decide))
      rw [isText, decide_eq_true_iff, hnl, hcr, hsp]
    rw [utf8EncodeChar_ascii h]
    by_cases hc : c ≠ '\n' ∧ c ≠ '\r' ∧ c ≠ ' '
    · rw [if_pos hc, List.filter_cons_of_pos (hiff.mpr hc), List.filter_nil]
    · rw [if_neg hc, List.filter_cons_of_neg (fun hp => hc (hiff.mp hp)), List.filter_nil]
  · have hkeep : ∀ b ∈ String.utf8EncodeChar c, isText b = true := by
      intro b hb
      have hhigh := utf8EncodeChar_high h hb
      rw [isText, decide_eq_true_iff]
      refine ⟨?_, ?_, ?_⟩ <;> rintro rfl <;> exact absurd hhigh (by decide)
    rw [List.filter_eq_self.mpr hkeep, if_pos]
    refine ⟨?_, ?_, ?_⟩ <;> rintro rfl <;> exact absurd h (by decide)

/-- Dropping white space from the bytes is dropping it from the characters: no byte of a longer
    character looks like white space. -/
theorem filter_utf8 (s : String) :
    (utf8 s).filter isText = (stripped s).flatMap String.utf8EncodeChar := by
  rw [utf8, stripped]
  induction s.toList with
  | nil => rfl
  | cons c cs ih =>
    rw [List.flatMap_cons, List.filter_append, ih, filter_utf8EncodeChar, List.filter_cons]
    by_cases hc : c ≠ '\n' ∧ c ≠ '\r' ∧ c ≠ ' '
    · rw [if_pos hc, if_pos (decide_eq_true hc), List.flatMap_cons]
    · rw [if_neg hc, if_neg (by simpa using hc), List.nil_append]

/-- A character the decoder lets through: of the alphabet, or `'='`. -/
def IsCode (c : Char) : Prop := c = '=' ∨ (Base64.value c).isSome = true

theorem IsCode.lt {c : Char} (h : IsCode c) : c.toNat < 128 := by
  rcases h with rfl | h
  · decide
  · rcases Nat.lt_or_ge c.toNat 128 with hlt | hge
    · exact hlt
    · rw [Base64.value_of_ge hge] at h
      cases h

/-- The check of `b64_decode` on one byte. -/
def isBad (b : UInt8) : Bool := decide (b ≠ 61) && (lookup b).isNone

/-- The check for illegal bytes passes the alphabet and the padding, and nothing else. -/
theorem isBad_asciiByte {c : Char} (h : c.toNat < 128) :
    isBad (asciiByte c) = false ↔ IsCode c := by
  have hpad : asciiByte c = 61 ↔ c = '=' := asciiByte_eq_iff (d := '=') h (by decide)
  rw [isBad, lookup_asciiByte h, Bool.and_eq_false_iff, decide_eq_false_iff_not, not_not, hpad]
  cases hv : Base64.value c with
  | none => simp [IsCode, hv]
  | some v => simp [IsCode, hv]

/-- **The characters are checked through their bytes.** -/
theorem find_isBad_eq_none {t : List Char} :
    (t.flatMap String.utf8EncodeChar).find? isBad = none ↔ ∀ c ∈ t, IsCode c := by
  rw [List.find?_eq_none]
  constructor
  · intro h c hc
    have hbytes : ∀ b ∈ String.utf8EncodeChar c, ¬ isBad b = true :=
      fun b hb => h b (List.mem_flatMap.mpr ⟨c, hc, hb⟩)
    rcases Nat.lt_or_ge c.toNat 128 with hlt | hge
    · have := hbytes (asciiByte c) (by rw [utf8EncodeChar_ascii hlt]; exact List.mem_singleton_self _)
      exact (isBad_asciiByte hlt).mp (by simpa using this)
    · -- a byte outside ASCII is bad
      obtain ⟨b, hb⟩ := List.exists_mem_of_ne_nil _ (String.utf8EncodeChar_ne_nil (c := c))
      have hhigh := utf8EncodeChar_high hge hb
      have hne : b ≠ 61 := by
        rintro rfl
        exact absurd hhigh (by decide)
      exact absurd (by simp [isBad, hne, lookup_of_high hhigh]) (hbytes b hb)
  · intro h b hb
    obtain ⟨c, hc, hbc⟩ := List.mem_flatMap.mp hb
    have hlt := (h c hc).lt
    rw [utf8EncodeChar_ascii hlt, List.mem_singleton] at hbc
    subst hbc
    simpa using (isBad_asciiByte hlt).mpr (h c hc)

/-- So a text that passes has one byte for each character. -/
theorem flatMap_utf8EncodeChar {t : List Char} (h : ∀ c ∈ t, IsCode c) :
    t.flatMap String.utf8EncodeChar = t.map asciiByte := by
  induction t with
  | nil => rfl
  | cons c t ih =>
    rw [List.flatMap_cons, utf8EncodeChar_ascii (h c List.mem_cons_self).lt,
      ih (fun d hd => h d (List.mem_cons_of_mem c hd))]
    rfl

/-! ## The groups -/

/-- Bits moved left by `i` and a number below `2 ^ i` do not meet: `|` adds them. -/
theorem shl_or {x y i : Nat} (hi : i < 8) (hy : y < 2 ^ i) :
    (UInt8.ofNat x <<< UInt8.ofNat i) ||| UInt8.ofNat y = UInt8.ofNat (x * 2 ^ i + y) := by
  rw [← UInt8.ofNat_shiftLeft x i hi, ← UInt8.ofNat_or, Nat.shiftLeft_eq, Nat.mul_comm,
    ← Nat.two_pow_add_eq_or_of_lt hy]

theorem shr_eq {y i : Nat} (hi : i < 8) (hy : y < 256) :
    UInt8.ofNat y >>> UInt8.ofNat i = UInt8.ofNat (y / 2 ^ i) := by
  have hdiv : y / 2 ^ i ≤ y := Nat.div_le_self y _
  apply UInt8.toNat_inj.mp
  rw [UInt8.toNat_shiftRight, UInt8.toNat_ofNat', UInt8.toNat_ofNat', UInt8.toNat_ofNat',
    Nat.mod_eq_of_lt (show y < 2 ^ 8 from hy), Nat.mod_eq_of_lt (show i < 2 ^ 8 by omega),
    Nat.mod_eq_of_lt hi, Nat.mod_eq_of_lt (show y / 2 ^ i < 2 ^ 8 by omega),
    Nat.shiftRight_eq_div_pow]

/-- The first byte of a group. -/
theorem firstByte {x y : Nat} (hy : y < 64) :
    (UInt8.ofNat x <<< 2) ||| (UInt8.ofNat y >>> 4) = UInt8.ofNat (x * 4 + y / 16) := by
  rw [show (4 : UInt8) = UInt8.ofNat 4 from rfl, shr_eq (by decide) (by omega)]
  exact shl_or (by decide) (show y / 16 < 4 by omega)

/-- The second byte. -/
theorem secondByte {y z : Nat} (hz : z < 64) :
    (UInt8.ofNat y <<< 4) ||| (UInt8.ofNat z >>> 2) = UInt8.ofNat (y * 16 + z / 4) := by
  rw [show (2 : UInt8) = UInt8.ofNat 2 from rfl, shr_eq (by decide) (by omega)]
  exact shl_or (by decide) (show z / 4 < 16 by omega)

/-- The third byte. -/
theorem thirdByte {z w : Nat} (hw : w < 64) :
    (UInt8.ofNat z <<< 6) ||| UInt8.ofNat w = UInt8.ofNat (z * 64 + w) :=
  shl_or (by decide) hw

theorem ofNat_congr {m n : Nat} (h : m % 256 = n % 256) : UInt8.ofNat m = UInt8.ofNat n := by
  apply UInt8.toNat_inj.mp
  simpa using h

/-- A slot of a group on an ASCII character. -/
theorem sextet_asciiByte {c : Char} (h : c.toNat < 128) :
    sextet (asciiByte c) = (Base64.value c).map UInt8.ofNat := by
  rw [sextet]
  split
  · rename_i hpad
    have hc : c = '=' := (asciiByte_eq_iff (d := '=') h (by decide)).mp hpad
    rw [hc, Base64.value_pad]
    rfl
  · exact lookup_asciiByte h

/-- The table of the decoder has the value of each character of the alphabet. -/
theorem sextet_of_value {c : Char} {v : Nat} (h : Base64.value c = some v) :
    sextet (asciiByte c) = some (UInt8.ofNat v) := by
  have hcode : IsCode c := Or.inr (by rw [h]; rfl)
  rw [sextet_asciiByte hcode.lt, h]
  rfl

/-- It has none for the padding, which is looked for apart. -/
theorem sextet_pad : sextet (asciiByte '=') = none := by decide

/-- A full group. -/
theorem b64DecodeLoop_full {c0 c1 c2 c3 : Char} {x y z w : Nat} (h0 : Base64.value c0 = some x)
    (h1 : Base64.value c1 = some y) (h2 : Base64.value c2 = some z) (h3 : Base64.value c3 = some w)
    (rest : Bytes) :
    b64DecodeLoop (asciiByte c0 :: asciiByte c1 :: asciiByte c2 :: asciiByte c3 :: rest) =
      Base64.ofSextets [x, y, z, w] ++ b64DecodeLoop rest := by
  have hx := Base64.value_lt h0
  have hy := Base64.value_lt h1
  have hz := Base64.value_lt h2
  have hw := Base64.value_lt h3
  rw [b64DecodeLoop, sextet_of_value h0, sextet_of_value h1, sextet_of_value h2, sextet_of_value h3]
  simp only [Option.getD_some, Option.isSome_some, if_true, List.filter_cons_of_pos, List.filter_nil,
    List.length_cons, List.length_nil, firstByte hy, secondByte hz, thirdByte hw, Base64.ofSextets]
  rw [if_neg (by decide), if_neg (by decide),
    ofNat_congr (show (x * 4 + y / 16) % 256 =
      (((x * 64 + y) * 64 + z) * 64 + w) / 65536 % 256 by omega),
    ofNat_congr (show (y * 16 + z / 4) % 256 =
      (((x * 64 + y) * 64 + z) * 64 + w) / 256 % 256 by omega),
    ofNat_congr (show (z * 64 + w) % 256 = (((x * 64 + y) * 64 + z) * 64 + w) % 256 by omega)]
  rfl

/-- A last group with one `'='`. -/
theorem b64DecodeLoop_three {c0 c1 c2 : Char} {x y z : Nat} (h0 : Base64.value c0 = some x)
    (h1 : Base64.value c1 = some y) (h2 : Base64.value c2 = some z) :
    b64DecodeLoop [asciiByte c0, asciiByte c1, asciiByte c2, asciiByte '='] =
      Base64.ofSextets [x, y, z] := by
  have hx := Base64.value_lt h0
  have hy := Base64.value_lt h1
  have hz := Base64.value_lt h2
  rw [b64DecodeLoop, sextet_of_value h0, sextet_of_value h1, sextet_of_value h2, sextet_pad]
  simp only [Option.getD_some, firstByte hy, secondByte hz, Base64.ofSextets]
  rw [ofNat_congr (show (x * 4 + y / 16) % 256 = ((x * 64 + y) * 64 + z) / 1024 % 256 by omega),
    ofNat_congr (show (y * 16 + z / 4) % 256 = ((x * 64 + y) * 64 + z) / 4 % 256 by omega)]
  rfl

/-- A last group with two `'='`. -/
theorem b64DecodeLoop_two {c0 c1 : Char} {x y : Nat} (h0 : Base64.value c0 = some x)
    (h1 : Base64.value c1 = some y) :
    b64DecodeLoop [asciiByte c0, asciiByte c1, asciiByte '=', asciiByte '='] =
      Base64.ofSextets [x, y] := by
  have hx := Base64.value_lt h0
  have hy := Base64.value_lt h1
  rw [b64DecodeLoop, sextet_of_value h0, sextet_of_value h1, sextet_pad]
  simp only [Option.getD_some, firstByte hy, Base64.ofSextets]
  rw [ofNat_congr (show (x * 4 + y / 16) % 256 = (x * 64 + y) / 16 % 256 by omega)]
  rfl

theorem ofSextets_group (x y z w : Nat) (rest : List Nat) :
    Base64.ofSextets (x :: y :: z :: w :: rest) =
      Base64.ofSextets [x, y, z, w] ++ Base64.ofSextets rest := rfl

/-- **The loop reads a padded text as base64 does.**  By groups of four. -/
theorem b64DecodeLoop_padded : ∀ (u : List Char) (k : Nat),
    (∀ c ∈ u, (Base64.value c).isSome = true) → k ≤ 2 → (u.length + k) % 4 = 0 →
    b64DecodeLoop ((u ++ List.replicate k '=').map asciiByte) =
      Base64.ofSextets (u.filterMap Base64.value)
  | c0 :: c1 :: c2 :: c3 :: u, k, hu, hk, hlen => by
    simp only [List.forall_mem_cons, Option.isSome_iff_exists] at hu
    obtain ⟨⟨x, h0⟩, ⟨y, h1⟩, ⟨z, h2⟩, ⟨w, h3⟩, hrest⟩ := hu
    have hlen' : (u.length + k) % 4 = 0 := by
      simp only [List.length_cons] at hlen
      omega
    have ih := b64DecodeLoop_padded u k
      (fun c hc => Option.isSome_iff_exists.mpr (hrest c hc)) hk hlen'
    simp only [List.cons_append, List.map_cons]
    rw [b64DecodeLoop_full h0 h1 h2 h3, ih, List.filterMap_cons_some h0, List.filterMap_cons_some h1,
      List.filterMap_cons_some h2, List.filterMap_cons_some h3,
      ofSextets_group x y z w (u.filterMap Base64.value)]
  | [c0, c1, c2], k, hu, hk, hlen => by
    simp only [List.forall_mem_cons, Option.isSome_iff_exists] at hu
    obtain ⟨⟨x, h0⟩, ⟨y, h1⟩, ⟨z, h2⟩, -⟩ := hu
    obtain rfl : k = 1 := by
      simp only [List.length_cons, List.length_nil] at hlen
      omega
    rw [List.filterMap_cons_some h0, List.filterMap_cons_some h1, List.filterMap_cons_some h2]
    exact b64DecodeLoop_three h0 h1 h2
  | [c0, c1], k, hu, hk, hlen => by
    simp only [List.forall_mem_cons, Option.isSome_iff_exists] at hu
    obtain ⟨⟨x, h0⟩, ⟨y, h1⟩, -⟩ := hu
    obtain rfl : k = 2 := by
      simp only [List.length_cons, List.length_nil] at hlen
      omega
    rw [List.filterMap_cons_some h0, List.filterMap_cons_some h1]
    exact b64DecodeLoop_two h0 h1
  -- one character and at most two `'='` are no group
  | [c0], k, hu, hk, hlen => by
    simp only [List.length_cons, List.length_nil] at hlen
    omega
  | [], k, hu, hk, hlen => by
    obtain rfl : k = 0 := by
      simp only [List.length_nil] at hlen
      omega
    rfl

/-! ## What is accepted -/

/-- Alphabet characters, then `'='`, then ONE MORE alphabet character. -/
def Misplaced (t : List Char) : Prop :=
  ∃ u x, t = u ++ ['=', x] ∧ (∀ c ∈ u, (Base64.value c).isSome = true) ∧
    (Base64.value x).isSome = true ∧ t.length % 4 = 0

/-- The characters before the first `'='`, counted on the bytes. -/
theorem length_takeWhile_asciiByte {t : List Char} (h : ∀ c ∈ t, IsCode c) :
    ((t.map asciiByte).takeWhile fun b => decide (b ≠ 61)).length =
      (t.takeWhile fun c => decide (c ≠ '=')).length := by
  induction t with
  | nil => rfl
  | cons c t ih =>
    have hpad : asciiByte c = 61 ↔ c = '=' :=
      asciiByte_eq_iff (d := '=') (h c List.mem_cons_self).lt (by decide)
    have ih' := ih fun d hd => h d (List.mem_cons_of_mem c hd)
    rw [List.map_cons, List.takeWhile_cons, List.takeWhile_cons]
    by_cases hc : c = '='
    · rw [if_neg (by simpa using hpad.mpr hc), if_neg (by simpa using hc)]
      rfl
    · rw [if_pos (by simpa [hpad] using hc), if_pos (by simpa using hc), List.length_cons,
        List.length_cons, ih']

/-- The decoder on the text of a string. -/
theorem b64Decode_eq_ok_iff {s : String} {d : Bytes} :
    b64Decode s = .ok d ↔
      (∀ c ∈ stripped s, IsCode c) ∧
      (stripped s).length - ((stripped s).takeWhile fun c => decide (c ≠ '=')).length ≤ 2 ∧
      (stripped s).length % 4 = 0 ∧ d = b64DecodeLoop ((stripped s).map asciiByte) := by
  have hfilter := filter_utf8 s
  generalize stripped s = t at hfilter ⊢
  rw [b64Decode]
  simp only
  rw [show ((utf8 s).filter fun b => decide (b ≠ 10 ∧ b ≠ 13 ∧ b ≠ 32)) =
    t.flatMap String.utf8EncodeChar from hfilter]
  rw [show (fun b : UInt8 => decide (b ≠ 61) && (lookup b).isNone) = isBad from rfl]
  by_cases hcode : ∀ c ∈ t, IsCode c
  · rw [find_isBad_eq_none.mpr hcode, flatMap_utf8EncodeChar hcode, length_takeWhile_asciiByte hcode,
      List.length_map]
    simp only
    cases t with
    | nil =>
      constructor
      · intro h
        exact ⟨hcode, Nat.zero_le 2, rfl, (Except.ok.inj h).symm⟩
      · rintro ⟨-, -, -, rfl⟩
        rfl
    | cons c t =>
      rw [if_neg (by simp)]
      split
      · rename_i hpad
        constructor
        · intro h
          cases h
        · rintro ⟨-, hle, -⟩
          omega
      · rename_i hpad
        split
        · rename_i hlen
          constructor
          · intro h
            cases h
          · rintro ⟨-, -, hlen', -⟩
            exact absurd hlen' hlen
        · rename_i hlen
          constructor
          · intro h
            exact ⟨hcode, by omega, not_not.mp hlen, (Except.ok.inj h).symm⟩
          · rintro ⟨-, -, -, rfl⟩
            rfl
  · -- some byte is bad, so the string is refused; and it is not empty
    have hbad : (t.flatMap String.utf8EncodeChar).find? isBad ≠ none :=
      fun h => hcode (find_isBad_eq_none.mp h)
    obtain ⟨b, hb⟩ := Option.ne_none_iff_exists'.mp hbad
    have hne : ¬ (t.flatMap String.utf8EncodeChar).isEmpty = true := by
      intro h
      rw [List.isEmpty_iff.mp h] at hb
      cases hb
    rw [if_neg hne, hb]
    constructor
    · intro h
      cases h
    · rintro ⟨h, -⟩
      exact absurd h hcode

/-- An alphabet text has no `'='` to stop at. -/
theorem ne_pad_of_value {u : List Char} (hu : ∀ c ∈ u, (Base64.value c).isSome = true) :
    ∀ c ∈ u, decide (c ≠ '=') = true := by
  intro c hc
  rw [decide_eq_true_iff]
  rintro rfl
  have hpad := hu '=' hc
  rw [Base64.value_pad] at hpad
  cases hpad

/-- What stands before the first padding character is found again. -/
theorem takeWhile_append_pad {u : List Char} (hu : ∀ c ∈ u, (Base64.value c).isSome = true)
    (r : List Char) :
    ((u ++ '=' :: r).takeWhile fun c => decide (c ≠ '=')) = u := by
  rw [List.takeWhile_append_of_pos (ne_pad_of_value hu)]
  simp

/-- Before the first `'='` there are alphabet characters only. -/
theorem exists_split {t : List Char} (h : ∀ c ∈ t, IsCode c) :
    ∃ u r, t = u ++ r ∧ (t.takeWhile fun c => decide (c ≠ '=')) = u ∧
      (∀ c ∈ u, (Base64.value c).isSome = true) ∧ (r = [] ∨ ∃ r', r = '=' :: r') := by
  refine ⟨t.takeWhile fun c => decide (c ≠ '='), t.dropWhile fun c => decide (c ≠ '='),
    List.takeWhile_append_dropWhile.symm, rfl, ?_, ?_⟩
  · intro c hc
    have hne : c ≠ '=' := by simpa using List.mem_takeWhile_imp hc
    rcases h c ((List.takeWhile_prefix _).subset hc) with rfl | hv
    · exact absurd rfl hne
    · exact hv
  · cases hr : t.dropWhile fun c => decide (c ≠ '=') with
    | nil => exact Or.inl rfl
    | cons c r' =>
      have hhead := List.head?_dropWhile_not (fun c => decide (c ≠ '=')) t
      rw [hr] at hhead
      have hc : c = '=' := by simpa using hhead
      exact Or.inr ⟨r', by rw [hc]⟩

theorem isCode_of_value {u : List Char} (hu : ∀ c ∈ u, (Base64.value c).isSome = true) :
    ∀ c ∈ u, IsCode c := fun c hc => Or.inr (hu c hc)

/-- A text the decoder accepts is padded, or its `'='` is misplaced. -/
theorem padded_or_misplaced {t : List Char} (hcode : ∀ c ∈ t, IsCode c)
    (hpad : t.length - (t.takeWhile fun c => decide (c ≠ '=')).length ≤ 2)
    (hlen : t.length % 4 = 0) : Base64.Padded t ∨ Misplaced t := by
  obtain ⟨u, r, rfl, htake, hu, hr⟩ := exists_split hcode
  rw [htake, List.length_append] at hpad
  rcases hr with rfl | ⟨r', rfl⟩
  · exact Or.inl ⟨u, 0, rfl, hu, Nat.zero_le 2, hlen⟩
  · cases r' with
    | nil => exact Or.inl ⟨u, 1, rfl, hu, by decide, hlen⟩
    | cons x r'' =>
      -- from the first `'='` on there are at most two characters
      obtain rfl : r'' = [] := by
        apply List.eq_nil_of_length_eq_zero
        simp only [List.length_cons] at hpad
        omega
      rcases hcode x (by simp) with rfl | hx
      · exact Or.inl ⟨u, 2, rfl, hu, Nat.le_refl 2, hlen⟩
      · exact Or.inr ⟨u, x, rfl, hu, hx, hlen⟩

/-- The padding count of alphabet characters followed by `r`. -/
theorem sub_takeWhile_le {u r : List Char} (hu : ∀ c ∈ u, (Base64.value c).isSome = true)
    (hr : r = [] ∨ ∃ r', r = '=' :: r') (hlen : r.length ≤ 2) :
    (u ++ r).length - ((u ++ r).takeWhile fun c => decide (c ≠ '=')).length ≤ 2 := by
  rcases hr with rfl | ⟨r', rfl⟩
  · rw [List.append_nil, List.takeWhile_eq_self_iff.mpr (ne_pad_of_value hu)]
    omega
  · rw [takeWhile_append_pad hu, List.length_append]
    omega

/-- **What `b64_decode` returns.** -/
theorem b64Decode_ok_iff {s : String} {d : Bytes} :
    b64Decode s = .ok d ↔
      (Base64.Padded (stripped s) ∧ d = Base64.valueOf (stripped s)) ∨
      (Misplaced (stripped s) ∧ d = b64DecodeLoop ((stripped s).map asciiByte)) := by
  rw [b64Decode_eq_ok_iff]
  constructor
  · rintro ⟨hcode, hpad, hlen, rfl⟩
    rcases padded_or_misplaced hcode hpad hlen with hp | hm
    · refine Or.inl ⟨hp, ?_⟩
      obtain ⟨u, k, ht, hu, hk, -⟩ := hp
      rw [ht] at hlen ⊢
      rw [Base64.valueOf_append_replicate]
      exact b64DecodeLoop_padded u k hu hk (by simpa using hlen)
    · exact Or.inr ⟨hm, rfl⟩
  · rintro (⟨⟨u, k, ht, hu, hk, hlen⟩, rfl⟩ | ⟨⟨u, x, ht, hu, hx, hlen⟩, rfl⟩)
    · rw [ht] at hlen ⊢
      refine ⟨?_, sub_takeWhile_le hu ?_ (by simpa using hk), hlen, ?_⟩
      · intro c hc
        rcases List.mem_append.mp hc with hc | hc
        · exact isCode_of_value hu c hc
        · exact Or.inl (List.eq_of_mem_replicate hc)
      · cases k with
        | zero => exact Or.inl rfl
        | succ k => exact Or.inr ⟨List.replicate k '=', rfl⟩
      · rw [Base64.valueOf_append_replicate]
        exact (b64DecodeLoop_padded u k hu hk (by simpa using hlen)).symm
    · rw [ht] at hlen ⊢
      refine ⟨?_, sub_takeWhile_le hu (Or.inr ⟨[x], rfl⟩) (Nat.le_refl 2), hlen, rfl⟩
      intro c hc
      rcases List.mem_append.mp hc with hc | hc
      · exact isCode_of_value hu c hc
      · simp only [List.mem_cons, List.not_mem_nil, or_false] at hc
        rcases hc with rfl | rfl
        · exact Or.inl rfl
        · exact Or.inr hx

/-- A misplaced `'='` is not padding: an alphabet character stands after it. -/
theorem Misplaced.not_padded {t : List Char} (h : Misplaced t) : ¬ Base64.Padded t := by
  rintro ⟨u', k, ht', hu', -, -⟩
  obtain ⟨u, x, ht, hu, hx, -⟩ := h
  have heq : u' ++ List.replicate k '=' = u ++ ['=', x] := ht'.symm.trans ht
  -- compare the last characters: `x` is not `'='`, so there is no padding at all
  have hxne : x ≠ '=' := by
    rintro rfl
    rw [Base64.value_pad] at hx
    cases hx
  cases k with
  | zero =>
    rw [List.replicate_zero, List.append_nil] at heq
    have := hu' '=' (by rw [heq]; simp)
    rw [Base64.value_pad] at this
    cases this
  | succ k =>
    have hlast := congrArg List.getLast? heq
    rw [List.replicate_succ', ← List.append_assoc, List.getLast?_concat,
      List.getLast?_append] at hlast
    exact absurd (Option.some.inj (by simpa using hlast)).symm hxne

/-- What the decoder should do with a string: accept exactly the padded texts, and return their
    value, of the length their characters say. -/
def DecodesExactly (s : String) : Prop :=
  ((∃ d, b64Decode s = .ok d) ↔ Base64.Padded (stripped s)) ∧
  ∀ d, b64Decode s = .ok d →
    d.length = 3 * (stripped s).length / 4 - (stripped s).count '=' ∧
      d = Base64.valueOf (stripped s)

/-- **`b64_decode` accepts exactly padded base64, unless a `'='` stands before the last character**:
    then it accepts a text that is not padded. -/
theorem b64_decode_exact_iff (s : String) : DecodesExactly s ↔ ¬ Misplaced (stripped s) := by
  constructor
  · rintro ⟨hiff, -⟩ hm
    exact hm.not_padded (hiff.mp ⟨_, b64Decode_ok_iff.mpr (Or.inr ⟨hm, rfl⟩)⟩)
  · intro hm
    have hok : ∀ d, b64Decode s = .ok d →
        Base64.Padded (stripped s) ∧ d = Base64.valueOf (stripped s) := by
      intro d hd
      rcases b64Decode_ok_iff.mp hd with hp | ⟨hm', -⟩
      · exact hp
      · exact absurd hm' hm
    refine ⟨⟨?_, ?_⟩, ?_⟩
    · rintro ⟨d, hd⟩
      exact (hok d hd).1
    · intro hp
      exact ⟨_, b64Decode_ok_iff.mpr (Or.inl ⟨hp, rfl⟩)⟩
    · intro d hd
      obtain ⟨hp, rfl⟩ := hok d hd
      exact ⟨hp.length_valueOf, rfl⟩

/-- `"AA=A"` is accepted, as two bytes. -/
theorem b64_decode_accepts_misplaced_pad :
    b64Decode "AA=A" = .ok [0, 0] ∧ ¬ DecodesExactly "AA=A" := by
  have hdec : b64Decode "AA=A" = .ok [0, 0] := by decide
  refine ⟨hdec, ?_⟩
  rintro ⟨hiff, -⟩
  have hm : Misplaced (stripped "AA=A") :=
    ⟨['A', 'A'], 'A', by decide, List.all_eq_true.mp (by decide), by decide, by decide⟩
  exact hm.not_padded (hiff.mp ⟨_, hdec⟩)

/-! ## The encoder -/

/-- `ALPHABET[i] as char`, the bounds check included. -/
def alphabetIndex (i : UInt8) : Outcome Empty Char :=
  match alphabet[i.toNat]? with
  | some c => .ok c
  | none => .panic

/-- The loop of `b64_encode` at index `i`, with what it has pushed so far.  A `Vec` is shorter than
    `isize::MAX`, so `i + 3` does not overflow. -/
def b64EncodeFrom (data : Bytes) (i : Nat) (out : List Char) : Outcome Empty (List Char) :=
  if i < data.length then do
    let b0 ← byteAt data i
    let b1 ← (if i + 1 < data.length then byteAt data (i + 1) else .ok 0)
    let b2 ← (if i + 2 < data.length then byteAt data (i + 2) else .ok 0)
    let c0 ← alphabetIndex (b0 >>> 2)
    let c1 ← alphabetIndex ((b0 <<< 4 &&& (0x30 : UInt8)) ||| b1 >>> 4)
    let c2 ← (if i + 1 < data.length then
        alphabetIndex ((b1 <<< 2 &&& (0x3C : UInt8)) ||| b2 >>> 6) else .ok '=')
    let c3 ← (if i + 2 < data.length then alphabetIndex (b2 &&& (0x3F : UInt8)) else .ok '=')
    b64EncodeFrom data (i + 3) (out ++ [c0, c1, c2, c3])
  else .ok out
termination_by data.length - i

/-- A statement about all bytes is one about 256 numbers. -/
theorem uint8_forall {P : UInt8 → Prop} (h : ∀ n < 256, P (UInt8.ofNat n)) (b : UInt8) : P b := by
  have := h b.toNat b.toNat_lt
  rwa [UInt8.ofNat_toNat] at this

/-- The first index. -/
theorem firstIndex (b0 : UInt8) : (b0 >>> 2).toNat = b0.toNat / 4 := by
  rw [UInt8.toNat_shiftRight]
  exact Nat.shiftRight_eq_div_pow _ _

theorem shl_four_and : ∀ b : UInt8, (b <<< 4 &&& (0x30 : UInt8)).toNat = b.toNat % 4 * 16 :=
  uint8_forall (by decide +kernel)

theorem shl_two_and : ∀ b : UInt8, (b <<< 2 &&& (0x3C : UInt8)).toNat = b.toNat % 16 * 4 :=
  uint8_forall (by decide +kernel)

/-- The second index. -/
theorem secondIndex (b0 b1 : UInt8) :
    ((b0 <<< 4 &&& (0x30 : UInt8)) ||| b1 >>> 4).toNat = b0.toNat % 4 * 16 + b1.toNat / 16 := by
  have hlt : b1.toNat / 16 < 2 ^ 4 := by
    have := b1.toNat_lt
    omega
  rw [UInt8.toNat_or, shl_four_and, UInt8.toNat_shiftRight,
    show b1.toNat >>> ((4 : UInt8).toNat % 8) = b1.toNat / 16 from Nat.shiftRight_eq_div_pow _ _,
    Nat.mul_comm]
  exact (Nat.two_pow_add_eq_or_of_lt hlt _).symm

/-- The third. -/
theorem thirdIndex (b1 b2 : UInt8) :
    ((b1 <<< 2 &&& (0x3C : UInt8)) ||| b2 >>> 6).toNat = b1.toNat % 16 * 4 + b2.toNat / 64 := by
  have hlt : b2.toNat / 64 < 2 ^ 2 := by
    have := b2.toNat_lt
    omega
  rw [UInt8.toNat_or, shl_two_and, UInt8.toNat_shiftRight,
    show b2.toNat >>> ((6 : UInt8).toNat % 8) = b2.toNat / 64 from Nat.shiftRight_eq_div_pow _ _,
    Nat.mul_comm]
  exact (Nat.two_pow_add_eq_or_of_lt hlt _).symm

/-- The fourth. -/
theorem fourthIndex (b2 : UInt8) : (b2 &&& (0x3F : UInt8)).toNat = b2.toNat % 64 := by
  rw [UInt8.toNat_and]
  exact Nat.and_two_pow_sub_one_eq_mod _ 6

/-- An index below 64 is in the alphabet: `ALPHABET[i]` does not panic. -/
theorem alphabetIndex_of_lt {i : UInt8} (h : i.toNat < 64) : alphabetIndex i = .ok (alphabetAt i) := by
  have hlen : i.toNat < alphabet.length := h
  rw [alphabetIndex, alphabetAt, List.getD_eq_getElem?_getD, List.getElem?_eq_getElem hlen]
  rfl

/-- The table is that of base64. -/
theorem alphabetAt_eq {i : UInt8} {v : Nat} (h : i.toNat = v) : alphabetAt i = Base64.charAt v := by
  rw [← h]
  rfl

/-- **Every index of one turn of the loop is below 64.** -/
theorem index_lt (b0 b1 b2 : UInt8) :
    (b0 >>> 2).toNat < 64 ∧ ((b0 <<< 4 &&& (0x30 : UInt8)) ||| b1 >>> 4).toNat < 64 ∧
      ((b1 <<< 2 &&& (0x3C : UInt8)) ||| b2 >>> 6).toNat < 64 ∧ (b2 &&& (0x3F : UInt8)).toNat < 64 := by
  have h0 := b0.toNat_lt
  have h1 := b1.toNat_lt
  have h2 := b2.toNat_lt
  rw [firstIndex, secondIndex, thirdIndex, fourthIndex]
  omega

/-- At the end of the data a missing byte counts as zero, and adds no bits. -/
theorem or_zero_shr (b : UInt8) (i : UInt8) : b ||| (0 : UInt8) >>> i = b := by
  rw [UInt8.zero_shiftRight, UInt8.or_zero]

/-- The byte at an index, from the bytes left there. -/
theorem byteAt_of_drop {data rest : Bytes} {i : Nat} {b : UInt8} (h : data.drop i = b :: rest) :
    (byteAt data i : Outcome Empty UInt8) = .ok b ∧ data.drop (i + 1) = rest ∧ i < data.length := by
  have hlt : i < data.length := by
    rcases Nat.lt_or_ge i data.length with hlt | hge
    · exact hlt
    · rw [List.drop_eq_nil_of_le hge] at h
      cases h
  rw [List.drop_eq_getElem_cons hlt, List.cons.injEq] at h
  refine ⟨?_, h.2, hlt⟩
  rw [byteAt, List.getElem?_eq_getElem hlt, h.1]

theorem le_of_drop_eq_nil {data : Bytes} {i : Nat} (h : data.drop i = []) : ¬ i < data.length := by
  have := List.drop_eq_nil_iff.mp h
  omega

/-- **The loop on indices is the recursion on the bytes left**, and stays inside the table. -/
theorem b64EncodeFrom_eq (data : Bytes) (i : Nat) (out : List Char) :
    b64EncodeFrom data i out = .ok (out ++ b64EncodeChars (data.drop i)) := by
  fun_induction b64EncodeFrom data i out with
  | case1 i out hi ih =>
    cases h0 : data.drop i with
    | nil => exact absurd hi (le_of_drop_eq_nil h0)
    | cons b0 rest0 =>
      obtain ⟨hb0, h1, -⟩ := byteAt_of_drop h0
      rw [hb0]
      cases rest0 with
      | nil =>
        have hlt1 := le_of_drop_eq_nil h1
        have hlt2 : ¬ i + 2 < data.length := by omega
        obtain ⟨hi0, hi1, -, -⟩ := index_lt b0 0 0
        have hend : data.drop (i + 3) = [] := List.drop_eq_nil_of_le (by omega)
        rw [or_zero_shr] at hi1
        simp only [Outcome.ok_bind, if_neg hlt1, if_neg hlt2, or_zero_shr, alphabetIndex_of_lt hi0,
          alphabetIndex_of_lt hi1, ih, hend, b64EncodeChars, List.append_nil]
      | cons b1 rest1 =>
        obtain ⟨hb1, h2, hlt1⟩ := byteAt_of_drop h1
        cases rest1 with
        | nil =>
          have hlt2 : ¬ i + 2 < data.length := le_of_drop_eq_nil h2
          obtain ⟨hi0, hi1, hi2, -⟩ := index_lt b0 b1 0
          have hend : data.drop (i + 3) = [] := List.drop_eq_nil_of_le (by omega)
          rw [or_zero_shr] at hi2
          simp only [Outcome.ok_bind, if_pos hlt1, if_neg hlt2, hb1, or_zero_shr,
            alphabetIndex_of_lt hi0, alphabetIndex_of_lt hi1, alphabetIndex_of_lt hi2, ih, hend,
            b64EncodeChars, List.append_nil]
        | cons b2 rest =>
          obtain ⟨hb2, h3, hlt2⟩ := byteAt_of_drop h2
          have hb2' : (byteAt data (i + 2) : Outcome Empty UInt8) = .ok b2 := hb2
          have hlt2' : i + 2 < data.length := hlt2
          have hrest : data.drop (i + 3) = rest := h3
          obtain ⟨hi0, hi1, hi2, hi3⟩ := index_lt b0 b1 b2
          simp only [Outcome.ok_bind, if_pos hlt1, if_pos hlt2', hb1, hb2',
            alphabetIndex_of_lt hi0, alphabetIndex_of_lt hi1, alphabetIndex_of_lt hi2,
            alphabetIndex_of_lt hi3, ih, hrest, b64EncodeChars, List.append_assoc]
  | case2 i out hi =>
    rw [List.drop_eq_nil_of_le (Nat.le_of_not_lt hi), b64EncodeChars, List.append_nil]

/-- **The encoder writes the standard text.** -/
theorem b64EncodeChars_eq (data : Bytes) : b64EncodeChars data = Base64.encode data := by
  fun_induction b64EncodeChars data with
  | case1 => rfl
  | case2 b0 =>
    have h0 := b0.toNat_lt
    rw [← or_zero_shr (b0 <<< 4 &&& (0x30 : UInt8)) 4,
      alphabetAt_eq ((firstIndex b0).trans (show _ = b0.toNat * 16 / 64 by omega)),
      alphabetAt_eq ((secondIndex b0 0).trans (show _ = b0.toNat * 16 % 64 by
        rw [show (0 : UInt8).toNat = 0 from rfl]; omega))]
    rfl
  | case3 b0 b1 =>
    have h0 := b0.toNat_lt
    have h1 := b1.toNat_lt
    rw [← or_zero_shr (b1 <<< 2 &&& (0x3C : UInt8)) 6,
      alphabetAt_eq ((firstIndex b0).trans
        (show _ = (b0.toNat * 256 + b1.toNat) * 4 / 4096 by omega)),
      alphabetAt_eq ((secondIndex b0 b1).trans
        (show _ = (b0.toNat * 256 + b1.toNat) * 4 / 64 % 64 by omega)),
      alphabetAt_eq ((thirdIndex b1 0).trans
        (show _ = (b0.toNat * 256 + b1.toNat) * 4 % 64 by
          rw [show (0 : UInt8).toNat = 0 from rfl]; omega))]
    rfl
  | case4 b0 b1 b2 rest ih =>
    have h0 := b0.toNat_lt
    have h1 := b1.toNat_lt
    have h2 := b2.toNat_lt
    rw [alphabetAt_eq ((firstIndex b0).trans
        (show _ = ((b0.toNat * 256 + b1.toNat) * 256 + b2.toNat) / 262144 by omega)),
      alphabetAt_eq ((secondIndex b0 b1).trans
        (show _ = ((b0.toNat * 256 + b1.toNat) * 256 + b2.toNat) / 4096 % 64 by omega)),
      alphabetAt_eq ((thirdIndex b1 b2).trans
        (show _ = ((b0.toNat * 256 + b1.toNat) * 256 + b2.toNat) / 64 % 64 by omega)),
      alphabetAt_eq ((fourthIndex b2).trans
        (show _ = ((b0.toNat * 256 + b1.toNat) * 256 + b2.toNat) % 64 by omega)), ih]
    have hpad : (3 - (b0 :: b1 :: b2 :: rest).length % 3) % 3 = (3 - rest.length % 3) % 3 := by
      simp only [List.length_cons]
      omega
    rw [Base64.encode, Base64.encode, hpad]
    rfl

theorem b64Encode_eq (data : Bytes) : b64Encode data = String.ofList (Base64.encode data) := by
  rw [b64Encode, b64EncodeChars_eq]

/-- A padded text has no whitespace. -/
theorem stripped_of_padded {t : List Char} (h : Base64.Padded t) :
    stripped (String.ofList t) = t := by
  obtain ⟨u, k, rfl, hu, -, -⟩ := h
  rw [stripped, String.toList_ofList, List.filter_eq_self]
  intro c hc
  have hcode : IsCode c := by
    rcases List.mem_append.mp hc with hc | hc
    · exact isCode_of_value hu c hc
    · exact Or.inl (List.eq_of_mem_replicate hc)
  rw [decide_eq_true_iff]
  refine ⟨?_, ?_, ?_⟩ <;> rintro rfl <;> rcases hcode with hcode | hcode <;> revert hcode <;> decide

theorem b64Decode_of_padded {t : List Char} (h : Base64.Padded t) :
    b64Decode (String.ofList t) = .ok (Base64.valueOf t) := by
  have hp : Base64.Padded (stripped (String.ofList t)) := by rwa [stripped_of_padded h]
  rw [b64Decode_ok_iff.mpr (Or.inl ⟨hp, rfl⟩), stripped_of_padded h]

theorem b64Decode_b64Encode (data : Bytes) : b64Decode (b64Encode data) = .ok data := by
  rw [b64Encode_eq, b64Decode_of_padded (Base64.padded_encode data), Base64.valueOf_encode]

/-- **The round trip**: the loop of `b64_encode` runs to its end without an index out of range, on a
    string of the length it reserves (`data.len().div_ceil(3) * 4`), and `b64_decode` gives the bytes
    back. -/
theorem b64_round_trip (d : Bytes) :
    b64EncodeFrom d 0 [] = .ok (b64Encode d).toList ∧
      b64Decode (b64Encode d) = .ok d ∧
      (b64Encode d).length = 4 * ((d.length + 2) / 3) := by
  refine ⟨?_, b64Decode_b64Encode d, ?_⟩
  · rw [b64EncodeFrom_eq, b64Encode, String.toList_ofList, List.drop_zero, List.nil_append]
  · rw [b64Encode_eq, String.length_ofList, Base64.length_encode]

end E2EMessaging.Relay
