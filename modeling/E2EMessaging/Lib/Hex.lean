/-
  READING HEX: what `hexEncode` writes is read back, and what is read is what `hexEncode` writes, in either
  case of the letters.

  `hexDecode` reads two digits a byte and fails on a character that is no digit and on a digit left over.
  Its successes are one equivalence (`hexDecode_eq_some`): digits only, which in lower case are the encoding
  of the bytes.  Both directions of a codec are read off it.
-/
import E2EMessaging.Lib.Bytes

namespace E2EMessaging.Lib

/-- The value of a hex digit of either case. -/
def hexValue (c : Char) : Option Nat :=
  if '0' ≤ c ∧ c ≤ '9' then some (c.toNat - 48)
  else if 'a' ≤ c ∧ c ≤ 'f' then some (c.toNat - 87)
  else if 'A' ≤ c ∧ c ≤ 'F' then some (c.toNat - 55)
  else none

/-- `0-9`, `a-f`, `A-F`. -/
def isHexDigit (c : Char) : Bool :=
  ('0' ≤ c && c ≤ '9') || ('a' ≤ c && c ≤ 'f') || ('A' ≤ c && c ≤ 'F')

/-- The two digits of a byte. -/
def hexByte (b : UInt8) : List Char := [hexDigit (b.toNat / 16), hexDigit (b.toNat % 16)]

/-- Two digits a byte. -/
def hexDecode : List Char → Option Bytes
  | [] => some []
  | [_] => none
  | c :: d :: rest =>
    match hexValue c, hexValue d with
    | some hi, some lo => (hexDecode rest).map (UInt8.ofNat (16 * hi + lo) :: ·)
    | _, _ => none

theorem hexEncode_eq (bs : Bytes) : hexEncode bs = String.ofList (bs.flatMap hexByte) := rfl

/-! ## Digits -/

theorem isHexDigit_ascii {c : Char} (h : isHexDigit c = true) : c.toNat < 128 := by
  simp only [isHexDigit, Bool.or_eq_true, Bool.and_eq_true, decide_eq_true_eq, Char.le_def,
    UInt32.le_iff_toNat_le] at h
  show c.val.toNat < 128
  have hmax : '9'.val.toNat = 57 ∧ 'f'.val.toNat = 102 ∧ 'F'.val.toNat = 70 := ⟨rfl, rfl, rfl⟩
  omega

/-- A digit has a value, and the digit of that value is the same one in lower case. -/
theorem hexValue_of_isHexDigit {c : Char} (h : isHexDigit c = true) :
    ∃ v < 16, hexValue c = some v ∧ hexDigit v = c.toLower := by
  have hall : ∀ n < 128, isHexDigit (Char.ofNat n) = true →
      ∃ v < 16, hexValue (Char.ofNat n) = some v ∧ hexDigit v = (Char.ofNat n).toLower := by
    decide +kernel
  have hc := hall c.toNat (isHexDigit_ascii h)
  rw [Char.ofNat_toNat] at hc
  exact hc h

theorem isHexDigit_of_hexValue {c : Char} {v : Nat} (h : hexValue c = some v) :
    isHexDigit c = true := by
  unfold hexValue at h
  unfold isHexDigit
  split at h
  · rename_i hdigit
    simp [hdigit]
  · split at h
    · rename_i hlower
      simp [hlower]
    · split at h
      · rename_i hupper
        simp [hupper]
      · cases h

/-- What is written for a value is a lower-case digit of that value. -/
theorem hexDigit_spec : ∀ v < 16,
    isHexDigit (hexDigit v) = true ∧ hexValue (hexDigit v) = some v ∧ (hexDigit v).toLower = hexDigit v := by
  decide

theorem length_flatMap_hexByte (bs : Bytes) : (bs.flatMap hexByte).length = 2 * bs.length := by
  induction bs with
  | nil => rfl
  | cons b bs ih =>
    rw [List.flatMap_cons, List.length_append, ih, List.length_cons]
    show 2 + _ = _
    omega

/-- Only lower-case digits are written. -/
theorem mem_flatMap_hexByte {bs : Bytes} {c : Char} (h : c ∈ bs.flatMap hexByte) :
    isHexDigit c = true ∧ c.toLower = c := by
  obtain ⟨b, -, hc⟩ := List.mem_flatMap.mp h
  have hlt : b.toNat < 256 := b.toNat_lt
  rcases List.mem_cons.mp hc with rfl | hc
  · obtain ⟨hdigit, -, hlower⟩ := hexDigit_spec (b.toNat / 16) (by omega)
    exact ⟨hdigit, hlower⟩
  · rw [List.mem_singleton.mp hc]
    obtain ⟨hdigit, -, hlower⟩ := hexDigit_spec (b.toNat % 16) (by omega)
    exact ⟨hdigit, hlower⟩

/-! ## Reading is exact -/

/-- Two digits make a byte, and are its digits. -/
theorem hexByte_ofNat {hi lo : Nat} (hhi : hi < 16) (hlo : lo < 16) :
    hexByte (UInt8.ofNat (16 * hi + lo)) = [hexDigit hi, hexDigit lo] := by
  have hnat : (UInt8.ofNat (16 * hi + lo)).toNat = 16 * hi + lo := by
    rw [UInt8.toNat_ofNat', Nat.mod_eq_of_lt (by omega)]
  rw [hexByte, hnat, show (16 * hi + lo) / 16 = hi by omega, show (16 * hi + lo) % 16 = lo by omega]

/-- An even number of digits is read. -/
theorem exists_hexDecode {cs : List Char} (hdigits : ∀ c ∈ cs, isHexDigit c = true)
    (heven : cs.length % 2 = 0) :
    ∃ bs, hexDecode cs = some bs ∧ cs.map Char.toLower = bs.flatMap hexByte := by
  fun_induction hexDecode cs with
  | case1 => exact ⟨[], rfl, rfl⟩
  | case2 c => cases heven
  | case3 c d rest hi lo hlo hhi ih =>
    obtain ⟨hi', hlt, hval, hdigit⟩ := hexValue_of_isHexDigit (hdigits c (by simp))
    obtain ⟨lo', hlt', hval', hdigit'⟩ := hexValue_of_isHexDigit (hdigits d (by simp))
    obtain rfl : hi' = hi := Option.some.inj (hval.symm.trans hhi)
    obtain rfl : lo' = lo := Option.some.inj (hval'.symm.trans hlo)
    have heven' : rest.length % 2 = 0 := by
      simp only [List.length_cons] at heven
      omega
    obtain ⟨bs, hbs, hlower⟩ := ih (fun e he => hdigits e (by simp [he])) heven'
    refine ⟨UInt8.ofNat (16 * hi' + lo') :: bs, by rw [hbs]; rfl, ?_⟩
    rw [List.flatMap_cons, hexByte_ofNat hlt hlt', ← hlower, hdigit, hdigit']
    rfl
  | case4 c d rest hnone =>
    obtain ⟨hi, -, hhi, -⟩ := hexValue_of_isHexDigit (hdigits c (by simp))
    obtain ⟨lo, -, hlo, -⟩ := hexValue_of_isHexDigit (hdigits d (by simp))
    exact absurd hlo (hnone hi lo hhi)

/-- What is read are digits. -/
theorem isHexDigit_of_hexDecode {cs : List Char} {bs : Bytes} (h : hexDecode cs = some bs) :
    (∀ c ∈ cs, isHexDigit c = true) ∧ cs.length % 2 = 0 := by
  fun_induction hexDecode cs generalizing bs with
  | case1 => exact ⟨fun c hc => (List.not_mem_nil hc).elim, rfl⟩
  | case2 c => cases h
  | case3 c d rest hi lo hlo hhi ih =>
    obtain ⟨tail, htail, -⟩ := Option.map_eq_some_iff.mp h
    obtain ⟨hrest, heven⟩ := ih htail
    refine ⟨?_, (Nat.add_mod_right _ 2).trans heven⟩
    intro e he
    rcases List.mem_cons.mp he with rfl | he
    · exact isHexDigit_of_hexValue hhi
    · rcases List.mem_cons.mp he with rfl | he
      · exact isHexDigit_of_hexValue hlo
      · exact hrest e he
  | case4 c d rest hnone => cases h

/-- **Digits only, and in lower case the encoding.** -/
theorem hexDecode_eq_some {cs : List Char} {bs : Bytes} :
    hexDecode cs = some bs ↔
      (∀ c ∈ cs, isHexDigit c = true) ∧ cs.map Char.toLower = bs.flatMap hexByte := by
  constructor
  · intro h
    obtain ⟨hdigits, heven⟩ := isHexDigit_of_hexDecode h
    obtain ⟨bs', hbs', hlower⟩ := exists_hexDecode hdigits heven
    obtain rfl : bs' = bs := Option.some.inj (hbs'.symm.trans h)
    exact ⟨hdigits, hlower⟩
  · rintro ⟨hdigits, hlower⟩
    have hlen := congrArg List.length hlower
    rw [List.length_map, length_flatMap_hexByte] at hlen
    obtain ⟨bs', hbs', hlower'⟩ := exists_hexDecode hdigits (by omega)
    have hsame : hexEncode bs' = hexEncode bs := by
      rw [hexEncode_eq, hexEncode_eq, ← hlower', hlower]
    rw [hbs', hexEncode_injective hsame]

/-- **What was written is read.** -/
theorem hexDecode_hexByte (bs : Bytes) : hexDecode (bs.flatMap hexByte) = some bs := by
  refine hexDecode_eq_some.mpr ⟨fun c hc => (mem_flatMap_hexByte hc).1, ?_⟩
  exact (List.map_congr_left fun c hc => (mem_flatMap_hexByte hc).2).trans (List.map_id _)

end E2EMessaging.Lib
