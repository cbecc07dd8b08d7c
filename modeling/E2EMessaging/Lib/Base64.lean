/-
  STANDARD BASE64, stated in arithmetic.

  Three bytes and four sextets (numbers below 64) are the same 24 bits; a last group of two or one
  bytes fills its last sextet with zeros and is marked by one or two `=`.  A text is PADDED when its
  length is a multiple of four and it consists of alphabet characters followed by at most two `=`;
  its VALUE is what its sextets spell, the bits that do not fill a byte being dropped.  Encoding
  gives a padded text with the bytes as its value.

  Nothing here masks or shifts: an implementation that does is compared with this one.
-/
import Mathlib.Data.List.Nodup
import E2EMessaging.Lib.Bytes

namespace E2EMessaging.Lib.Base64

/-! ## Sextets and bytes -/

/-- The bytes a list of sextets spells. -/
def ofSextets : List Nat → Bytes
  | a :: b :: c :: d :: rest =>
    let n := ((a * 64 + b) * 64 + c) * 64 + d
    UInt8.ofNat (n / 65536) :: UInt8.ofNat (n / 256) :: UInt8.ofNat n :: ofSextets rest
  | [a, b, c] =>
    let n := (a * 64 + b) * 64 + c
    [UInt8.ofNat (n / 1024), UInt8.ofNat (n / 4)]
  | [a, b] => [UInt8.ofNat ((a * 64 + b) / 16)]
  -- six bits are no byte
  | [_] => []
  | [] => []

/-- The sextets of a byte string, the last one filled up with zeros. -/
def toSextets : Bytes → List Nat
  | b0 :: b1 :: b2 :: rest =>
    let n := (b0.toNat * 256 + b1.toNat) * 256 + b2.toNat
    n / 262144 :: n / 4096 % 64 :: n / 64 % 64 :: n % 64 :: toSextets rest
  | [b0, b1] =>
    let n := (b0.toNat * 256 + b1.toNat) * 4
    [n / 4096, n / 64 % 64, n % 64]
  | [b0] =>
    let n := b0.toNat * 16
    [n / 64, n % 64]
  | [] => []

/-- Sextets make three bytes of four; what is left over is dropped. -/
theorem length_ofSextets (xs : List Nat) : (ofSextets xs).length = 3 * xs.length / 4 := by
  fun_induction ofSextets xs with
  | case1 a b c d rest n ih =>
    simp only [List.length_cons, ih]
    omega
  | case2 a b c n => simp
  | case3 a b => simp
  | case4 a => simp
  | case5 => simp

/-- Bytes make four sextets of three, the last of them filled up. -/
theorem length_toSextets (bs : Bytes) : (toSextets bs).length = (4 * bs.length + 2) / 3 := by
  fun_induction toSextets bs with
  | case1 b0 b1 b2 rest n ih =>
    simp only [List.length_cons, ih]
    omega
  | case2 b0 b1 n => simp
  | case3 b0 n => simp
  | case4 => simp

theorem toSextets_lt {bs : Bytes} {x : Nat} (hx : x ∈ toSextets bs) : x < 64 := by
  fun_induction toSextets bs with
  | case1 b0 b1 b2 rest n ih =>
    have h0 : b0.toNat < 256 := b0.toNat_lt
    have h1 : b1.toNat < 256 := b1.toNat_lt
    have h2 : b2.toNat < 256 := b2.toNat_lt
    simp only [List.mem_cons] at hx
    rcases hx with rfl | rfl | rfl | rfl | hx
    · omega
    · omega
    · omega
    · omega
    · exact ih hx
  | case2 b0 b1 n =>
    have h0 : b0.toNat < 256 := b0.toNat_lt
    have h1 : b1.toNat < 256 := b1.toNat_lt
    simp only [List.mem_cons, List.not_mem_nil, or_false] at hx
    rcases hx with rfl | rfl | rfl <;> omega
  | case3 b0 n =>
    have h0 : b0.toNat < 256 := b0.toNat_lt
    simp only [List.mem_cons, List.not_mem_nil, or_false] at hx
    rcases hx with rfl | rfl <;> omega
  | case4 => cases hx

/-- A byte is what its number modulo 256 says. -/
theorem ofNat_eq {n : Nat} {b : UInt8} (h : n % 256 = b.toNat) : UInt8.ofNat n = b := by
  apply UInt8.toNat_inj.mp
  simpa using h

/-- **Regrouping loses nothing.** -/
theorem ofSextets_toSextets (bs : Bytes) : ofSextets (toSextets bs) = bs := by
  fun_induction toSextets bs with
  | case1 b0 b1 b2 rest n ih =>
    have h0 : b0.toNat < 256 := b0.toNat_lt
    have h1 : b1.toNat < 256 := b1.toNat_lt
    have h2 : b2.toNat < 256 := b2.toNat_lt
    -- the four sextets are the 24 bits again
    have hn : ((n / 262144 * 64 + n / 4096 % 64) * 64 + n / 64 % 64) * 64 + n % 64 = n := by omega
    rw [ofSextets, ih, hn]
    rw [ofNat_eq (show n / 65536 % 256 = b0.toNat by omega),
      ofNat_eq (show n / 256 % 256 = b1.toNat by omega),
      ofNat_eq (show n % 256 = b2.toNat by omega)]
  | case2 b0 b1 n =>
    have h0 : b0.toNat < 256 := b0.toNat_lt
    have h1 : b1.toNat < 256 := b1.toNat_lt
    have hn : (n / 4096 * 64 + n / 64 % 64) * 64 + n % 64 = n := by omega
    rw [ofSextets, hn, ofNat_eq (show n / 1024 % 256 = b0.toNat by omega),
      ofNat_eq (show n / 4 % 256 = b1.toNat by omega)]
  | case3 b0 n =>
    have h0 : b0.toNat < 256 := b0.toNat_lt
    have hn : n / 64 * 64 + n % 64 = n := by omega
    rw [ofSextets, hn, ofNat_eq (show n / 16 % 256 = b0.toNat by omega)]
  | case4 => rfl

/-! ## Texts -/

/-- The alphabet: the character at place `v` stands for the sextet `v`. -/
def chars : List Char :=
  "ABCDEFGHIJKLMNOPQRSTUVWXYZabcdefghijklmnopqrstuvwxyz0123456789+/".toList

/-- The character of a sextet. -/
def charAt (v : Nat) : Char := chars.getD v 'A'

/-- The sextet of a character, if it is in the alphabet. -/
def value (c : Char) : Option Nat :=
  if chars.idxOf c < 64 then some (chars.idxOf c) else none

/-- The codes of the alphabet: capitals, small letters, digits and two signs. -/
def codes : List Nat := List.range' 65 26 ++ List.range' 97 26 ++ List.range' 48 10 ++ [43, 47]

theorem map_toNat_chars : chars.map Char.toNat = codes := by decide +kernel

/-- The character of a value is looked up in it. -/
theorem toNat_charAt (v : Nat) : (charAt v).toNat = codes.getD v 65 := by
  rw [← map_toNat_chars, charAt, List.getD_eq_getElem?_getD, List.getD_eq_getElem?_getD,
    List.getElem?_map]
  cases chars[v]? with
  | none => rfl
  | some c => rfl

theorem length_chars : chars.length = 64 := by
  rw [← List.length_map Char.toNat, map_toNat_chars]
  rfl

/-- No character stands for two sextets. -/
theorem nodup_chars : chars.Nodup := by
  refine List.Nodup.of_map Char.toNat ?_
  rw [map_toNat_chars]
  decide +kernel

theorem charAt_eq {v : Nat} (h : v < chars.length) : charAt v = chars[v] := by
  rw [charAt, List.getD_eq_getElem?_getD, List.getElem?_eq_getElem h, Option.getD_some]

theorem value_charAt {v : Nat} (h : v < 64) : value (charAt v) = some v := by
  rw [← length_chars] at h
  rw [value, charAt_eq h, nodup_chars.idxOf_getElem v h, if_pos (length_chars ▸ h)]

/-- The character of its sextet. -/
theorem charAt_of_value {c : Char} {v : Nat} (h : value c = some v) : charAt v = c := by
  rw [value] at h
  split at h
  · rename_i hlt
    obtain rfl := Option.some.inj h
    rw [← length_chars] at hlt
    rw [charAt_eq hlt, List.getElem_idxOf hlt]
  · cases h

theorem value_lt {c : Char} {v : Nat} (h : value c = some v) : v < 64 := by
  rw [value] at h
  split at h
  · rename_i hlt
    have hv : chars.idxOf c = v := Option.some.inj h
    omega
  · cases h

theorem value_of_not_mem {c : Char} (h : c.toNat ∉ chars.map Char.toNat) : value c = none := by
  have hmem : c ∉ chars := fun hin => h (List.mem_map_of_mem hin)
  rw [value, List.idxOf_eq_length hmem, length_chars]
  rfl

theorem value_pad : value '=' = none := by
  refine value_of_not_mem ?_
  rw [map_toNat_chars]
  decide

/-- The alphabet is part of ASCII. -/
theorem value_of_ge {c : Char} (h : 128 ≤ c.toNat) : value c = none := by
  refine value_of_not_mem fun hcode => ?_
  rw [map_toNat_chars, codes] at hcode
  simp only [List.mem_append, List.mem_range'_1, List.mem_cons, List.not_mem_nil, or_false] at hcode
  omega

/-- Alphabet characters, then at most two `=`, a multiple of four in all. -/
def Padded (t : List Char) : Prop :=
  ∃ u k, t = u ++ List.replicate k '=' ∧ (∀ c ∈ u, (value c).isSome = true) ∧ k ≤ 2 ∧
    t.length % 4 = 0

/-- What a text stands for. -/
def valueOf (t : List Char) : Bytes := ofSextets (t.filterMap value)

/-- The text of a byte string. -/
def encode (bs : Bytes) : List Char :=
  (toSextets bs).map charAt ++ List.replicate ((3 - bs.length % 3) % 3) '='

/-- So padding adds nothing to the value of a text. -/
theorem filterMap_value_replicate (k : Nat) : (List.replicate k '=').filterMap value = [] := by
  rw [List.filterMap_eq_nil_iff]
  intro c hc
  rw [List.eq_of_mem_replicate hc]
  exact value_pad

/-- An alphabet text has one sextet a character. -/
theorem length_filterMap_value {u : List Char} (hu : ∀ c ∈ u, (value c).isSome = true) :
    (u.filterMap value).length = u.length := by
  induction u with
  | nil => rfl
  | cons c u ih =>
    obtain ⟨v, hv⟩ := Option.isSome_iff_exists.mp (hu c List.mem_cons_self)
    rw [List.filterMap_cons_some hv, List.length_cons, List.length_cons,
      ih (fun d hd => hu d (List.mem_cons_of_mem c hd))]

/-- The value of a padded text is that of what stands before the padding. -/
theorem valueOf_append_replicate (u : List Char) (k : Nat) :
    valueOf (u ++ List.replicate k '=') = ofSextets (u.filterMap value) := by
  rw [valueOf, List.filterMap_append, filterMap_value_replicate, List.append_nil]

/-- The alphabet has no `=` in it. -/
theorem count_pad_eq_zero {u : List Char} (hu : ∀ c ∈ u, (value c).isSome = true) :
    u.count '=' = 0 := by
  rw [List.count_eq_zero]
  intro hin
  have := hu '=' hin
  rw [value_pad] at this
  cases this

/-- **The length of the value**: three bytes for four characters, one less for each `=`. -/
theorem Padded.length_valueOf {t : List Char} (h : Padded t) :
    (valueOf t).length = 3 * t.length / 4 - t.count '=' := by
  obtain ⟨u, k, rfl, hu, hk, hlen⟩ := h
  rw [valueOf_append_replicate, length_ofSextets, length_filterMap_value hu, List.count_append,
    count_pad_eq_zero hu, List.count_replicate_self]
  rw [List.length_append, List.length_replicate] at hlen ⊢
  omega

theorem length_encode (bs : Bytes) : (encode bs).length = 4 * ((bs.length + 2) / 3) := by
  rw [encode, List.length_append, List.length_map, length_toSextets, List.length_replicate]
  omega

/-- What is written before the padding has a value, character by character. -/
theorem value_charAt_toSextets {bs : Bytes} {c : Char} (hc : c ∈ (toSextets bs).map charAt) :
    (value c).isSome = true := by
  obtain ⟨v, hv, rfl⟩ := List.mem_map.mp hc
  rw [value_charAt (toSextets_lt hv)]
  rfl

/-- An encoded text is well padded, so it is in the domain of every exact decoder. -/
theorem padded_encode (bs : Bytes) : Padded (encode bs) := by
  refine ⟨(toSextets bs).map charAt, (3 - bs.length % 3) % 3, rfl, fun c hc =>
    value_charAt_toSextets hc, ?_, ?_⟩
  · omega
  · rw [length_encode]
    omega

theorem filterMap_value_map_charAt {xs : List Nat} (h : ∀ x ∈ xs, x < 64) :
    (xs.map charAt).filterMap value = xs := by
  induction xs with
  | nil => rfl
  | cons x xs ih =>
    rw [List.map_cons, List.filterMap_cons_some (value_charAt (h x List.mem_cons_self)),
      ih (fun y hy => h y (List.mem_cons_of_mem x hy))]

/-- **Encoding is undone by reading the value.** -/
theorem valueOf_encode (bs : Bytes) : valueOf (encode bs) = bs := by
  rw [encode, valueOf_append_replicate, filterMap_value_map_charAt (fun _ hx => toSextets_lt hx),
    ofSextets_toSextets]

end E2EMessaging.Lib.Base64
