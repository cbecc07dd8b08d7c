/-
  THE QR PAYLOAD OF A DEVICE (`encode_device_qr`, `decode_device_qr` of `core/crypto/src/device_qr.rs`).

  The payload is the identity key in lower-case hex.  The decoder cuts the string at BYTE offsets, which
  panics inside a character; what keeps it from doing so is the check before, which lets nothing but hex
  digits through, and these are one byte each.  So it answers every string, and accepts those of 66 digits
  (`decodeDeviceQr_eq_ok`).

  `QrCode::new` is a parameter; its result is only looked at for an error.
-/
import E2EMessaging.Lib.Hex
import E2EMessaging.Lib.Reader
import E2EMessaging.Relay.Base64

namespace E2EMessaging.Crypto

open E2EMessaging.Lib E2EMessaging.Relay

/-! ## The program -/

/-- `QrError`. -/
inductive QrError where
  | encodeFailed (message : String)
  | invalidPayload (message : String)
  | keyError (message : String)
  deriving Repr, DecidableEq

/-- `encode_device_qr`. -/
def encodeDeviceQr (qrCodeNew : Bytes → Except String Unit) (identityPublicKeyBytes : Bytes) :
    Except QrError String :=
  let hexPayload := hexEncode identityPublicKeyBytes
  match qrCodeNew (utf8 hexPayload) with
  | .error e => .error (.encodeFailed e)
  | .ok () => .ok hexPayload

/-- `IntErrorKind`, as far as an unsigned number can have it. -/
inductive IntErrorKind where
  | empty
  | invalidDigit
  | posOverflow
  deriving Repr, DecidableEq

/-- How a `ParseIntError` is displayed. -/
def IntErrorKind.text : IntErrorKind → String
  | .empty => "cannot parse integer from empty string"
  | .invalidDigit => "invalid digit found in string"
  | .posOverflow => "number too large to fit in target type"

/-- One digit of a `u8`, in base 16. -/
def addDigit (result : Nat) (c : Char) : Except IntErrorKind Nat :=
  match hexValue c with
  | none => .error .invalidDigit
  | some d => if result * 16 + d < 256 then .ok (result * 16 + d) else .error .posOverflow

/-- A leading plus is dropped, unless it is all there is. -/
def withoutPlus : List Char → List Char
  | c :: d :: rest => if c = '+' then d :: rest else c :: d :: rest
  | src => src

/-- `u8::from_str_radix(src, 16)`. -/
def u8FromStrRadix16 (src : List Char) : Except IntErrorKind UInt8 :=
  if src = [] then .error .empty else ((withoutPlus src).foldlM addDigit 0).map UInt8.ofNat

/-- `map_err(|e| QrError::InvalidPayload(e.to_string()))`. -/
def orInvalidPayload {α : Type} : Except IntErrorKind α → Outcome QrError α
  | .ok v => .ok v
  | .error e => .err (.invalidPayload e.text)

/-- The characters of the first `n` bytes, and the rest; `none` inside a character and behind the end. -/
def splitBytes : List Char → Nat → Option (List Char × List Char)
  | cs, 0 => some ([], cs)
  | [], _ + 1 => none
  | c :: cs, n + 1 =>
    if c.utf8Size ≤ n + 1 then
      (splitBytes cs (n + 1 - c.utf8Size)).map fun p => (c :: p.1, p.2)
    else none

/-- `&s[i..j]`: panics unless both are boundaries of characters, in order. -/
def strSlice {ε : Type} (s : List Char) (i j : Nat) : Outcome ε (List Char) :=
  if i ≤ j then
    match splitBytes s i with
    | none => .panic
    | some (_, rest) =>
      match splitBytes rest (j - i) with
      | none => .panic
      | some (part, _) => .ok part
  else .panic

/-- The two digits at each of the offsets, collected up to the first error. -/
def parsePairs (a : Arch) (qrPayload : List Char) : List Nat → Outcome QrError Bytes
  | [] => .ok []
  | i :: offsets => do
    let stop ← a.add i 2
    let pair ← strSlice qrPayload i stop
    let byte ← orInvalidPayload (u8FromStrRadix16 pair)
    let bytes ← parsePairs a qrPayload offsets
    .ok (byte :: bytes)

/-- `(0..len).step_by(2)`. -/
def evenOffsets (len : Nat) : List Nat := (List.range ((len + 1) / 2)).map (2 * ·)

/-- `decode_device_qr`. -/
def decodeDeviceQr (a : Arch) (qrPayload : String) : Outcome QrError Bytes :=
  if ¬ qrPayload.toList.all isHexDigit then
    .err (.invalidPayload "payload contains non-hex characters")
  else if (utf8 qrPayload).length % 2 ≠ 0 then
    .err (.invalidPayload "payload has odd length, not valid hex encoding")
  else do
    let bytes ← parsePairs a qrPayload.toList (evenOffsets (utf8 qrPayload).length)
    if bytes.length ≠ 33 then
      .err (.invalidPayload ("decoded " ++ toString bytes.length ++
        " bytes, expected 33 (serialized identity key length)"))
    else .ok bytes

/-! ## Hex digits are single bytes -/

theorem utf8Size_of_isHexDigit {c : Char} (h : isHexDigit c = true) : c.utf8Size = 1 := by
  have hlt := isHexDigit_ascii h
  rw [Char.utf8Size_eq_one_iff, UInt32.le_iff_toNat_le]
  show c.toNat ≤ 127
  omega

section

variable {cs : List Char}

theorem length_utf8_of_digits (hdigits : ∀ c ∈ cs, isHexDigit c = true) :
    (cs.flatMap String.utf8EncodeChar).length = cs.length := by
  induction cs with
  | nil => rfl
  | cons c cs ih =>
    rw [List.flatMap_cons, List.length_append, String.length_utf8EncodeChar,
      utf8Size_of_isHexDigit (hdigits c List.mem_cons_self),
      ih fun d hd => hdigits d (List.mem_cons_of_mem _ hd), List.length_cons]
    omega

/-- Every offset is a boundary. -/
theorem splitBytes_of_digits (hdigits : ∀ c ∈ cs, isHexDigit c = true) {n : Nat} (hn : n ≤ cs.length) :
    splitBytes cs n = some (cs.take n, cs.drop n) := by
  induction cs generalizing n with
  | nil =>
    obtain rfl : n = 0 := Nat.le_zero.mp hn
    rfl
  | cons c cs ih =>
    cases n with
    | zero => rfl
    | succ n =>
      have hsize := utf8Size_of_isHexDigit (hdigits c List.mem_cons_self)
      rw [splitBytes, hsize, if_pos (by omega), Nat.add_sub_cancel,
        ih (fun d hd => hdigits d (List.mem_cons_of_mem _ hd)) (Nat.le_of_succ_le_succ hn)]
      rfl

theorem strSlice_of_digits (hdigits : ∀ c ∈ cs, isHexDigit c = true) {i j : Nat} (hij : i ≤ j)
    (hj : j ≤ cs.length) {ε : Type} :
    (strSlice cs i j : Outcome ε (List Char)) = .ok ((cs.drop i).take (j - i)) := by
  have hrest : ∀ c ∈ cs.drop i, isHexDigit c = true := fun c hc => hdigits c (List.mem_of_mem_drop hc)
  have hlen : j - i ≤ (cs.drop i).length := by
    rw [List.length_drop]
    omega
  rw [strSlice, if_pos hij, splitBytes_of_digits hdigits (by omega)]
  dsimp only
  rw [splitBytes_of_digits hrest hlen]

/-- Two digits are a byte: there is no sign, and nothing overflows. -/
theorem u8FromStrRadix16_pair {c d : Char} {hi lo : Nat} (hhi : hexValue c = some hi)
    (hlo : hexValue d = some lo) (hhi' : hi < 16) (hlo' : lo < 16) :
    u8FromStrRadix16 [c, d] = .ok (UInt8.ofNat (16 * hi + lo)) := by
  have hplus : c ≠ '+' := by
    rintro rfl
    have hnone : hexValue '+' = none := by decide
    rw [hnone] at hhi
    cases hhi
  have hfirst : addDigit 0 c = .ok hi := by
    rw [addDigit, hhi]
    dsimp only
    rw [Nat.zero_mul, Nat.zero_add, if_pos (by omega)]
  have hsecond : addDigit hi d = .ok (16 * hi + lo) := by
    rw [addDigit, hlo]
    dsimp only
    rw [if_pos (by omega), Nat.mul_comm]
  rw [u8FromStrRadix16, if_neg (List.cons_ne_nil _ _), withoutPlus, if_neg hplus, List.foldlM_cons,
    hfirst]
  show ((addDigit hi d >>= fun r => .ok r).map UInt8.ofNat) = _
  rw [hsecond]
  rfl

/-- **The loop reads hex.** -/
theorem parsePairs_of_digits {a : Arch} (ha : cs.length < 2 ^ a.bits)
    (hdigits : ∀ c ∈ cs, isHexDigit c = true) {k n : Nat} (hlen : cs.length = 2 * (k + n)) {bs : Bytes}
    (hbs : hexDecode (cs.drop (2 * k)) = some bs) :
    parsePairs a cs ((List.range' k n).map (2 * ·)) = .ok bs := by
  induction n generalizing k bs with
  | zero =>
    rw [List.drop_eq_nil_of_le (by omega)] at hbs
    rw [← Option.some.inj hbs]
    rfl
  | succ n ih =>
    have hfirst : 2 * k < cs.length := by omega
    have hsecond : 2 * k + 1 < cs.length := by omega
    have hdrop : cs.drop (2 * k) = cs[2 * k] :: cs[2 * k + 1] :: cs.drop (2 * (k + 1)) := by
      rw [List.drop_eq_getElem_cons hfirst, List.drop_eq_getElem_cons hsecond]
      rfl
    obtain ⟨hi, hhi', hhi, -⟩ := hexValue_of_isHexDigit (hdigits _ (List.getElem_mem hfirst))
    obtain ⟨lo, hlo', hlo, -⟩ := hexValue_of_isHexDigit (hdigits _ (List.getElem_mem hsecond))
    rw [hdrop, hexDecode, hhi, hlo] at hbs
    obtain ⟨rest, hrest, rfl⟩ := Option.map_eq_some_iff.mp hbs
    have hpair : (cs.drop (2 * k)).take (2 * k + 2 - 2 * k) = [cs[2 * k], cs[2 * k + 1]] := by
      rw [hdrop, Nat.add_sub_cancel_left]
      rfl
    rw [List.range'_succ, List.map_cons, parsePairs, Arch.add_of_lt (by omega), Outcome.ok_bind,
      strSlice_of_digits hdigits (by omega) (by omega), Outcome.ok_bind, hpair,
      u8FromStrRadix16_pair hhi hlo hhi' hlo', ih (by omega) hrest]
    rfl

end

/-! ## What is accepted -/

section

variable {a : Arch} {s : String}

/-- Hex is decoded, and then it is the count that matters. -/
theorem decodeDeviceQr_of_some (hroom : (utf8 s).length ≤ a.isizeMax) {bs : Bytes}
    (hbs : hexDecode s.toList = some bs) :
    decodeDeviceQr a s = if bs.length ≠ 33 then
      .err (.invalidPayload ("decoded " ++ toString bs.length ++
        " bytes, expected 33 (serialized identity key length)"))
    else .ok bs := by
  obtain ⟨hdigits, heven⟩ := isHexDigit_of_hexDecode hbs
  have hlen : (utf8 s).length = s.toList.length := length_utf8_of_digits hdigits
  have hall : s.toList.all isHexDigit = true := List.all_eq_true.mpr hdigits
  have hpairs : parsePairs a s.toList (evenOffsets s.toList.length) = .ok bs := by
    rw [evenOffsets, List.range_eq_range']
    exact parsePairs_of_digits (hlen ▸ Arch.lt_of_le_isizeMax hroom) hdigits (by omega) hbs
  rw [decodeDeviceQr, if_neg (not_not.mpr hall), hlen, if_neg (not_not.mpr heven), hpairs]
  rfl

/-- Everything else is an invalid payload. -/
theorem decodeDeviceQr_of_none (hnone : hexDecode s.toList = none) :
    ∃ message, decodeDeviceQr a s = .err (.invalidPayload message) := by
  rw [decodeDeviceQr]
  by_cases hall : s.toList.all isHexDigit = true
  · have hdigits := List.all_eq_true.mp hall
    have hlen : (utf8 s).length = s.toList.length := length_utf8_of_digits hdigits
    have hodd : s.toList.length % 2 ≠ 0 := by
      intro heven
      obtain ⟨bs, hbs, -⟩ := exists_hexDecode hdigits heven
      rw [hnone] at hbs
      cases hbs
    rw [if_neg (not_not.mpr hall), hlen, if_pos hodd]
    exact ⟨_, rfl⟩
  · rw [if_pos hall]
    exact ⟨_, rfl⟩

theorem decodeDeviceQr_ne_panic (hroom : (utf8 s).length ≤ a.isizeMax) :
    decodeDeviceQr a s ≠ .panic := by
  cases hdec : hexDecode s.toList with
  | none =>
    obtain ⟨message, herr⟩ := decodeDeviceQr_of_none (a := a) hdec
    rw [herr]
    exact Outcome.err_ne_panic _
  | some bs =>
    rw [decodeDeviceQr_of_some hroom hdec]
    split
    · exact Outcome.err_ne_panic _
    · exact Outcome.ok_ne_panic _

/-- **What is decoded** is the hex of 33 bytes. -/
theorem decodeDeviceQr_eq_ok (hroom : (utf8 s).length ≤ a.isizeMax) {key : Bytes} :
    decodeDeviceQr a s = .ok key ↔ key.length = 33 ∧ hexDecode s.toList = some key := by
  constructor
  · intro h
    cases hdec : hexDecode s.toList with
    | none =>
      obtain ⟨message, herr⟩ := decodeDeviceQr_of_none (a := a) hdec
      rw [herr] at h
      cases h
    | some bs =>
      rw [decodeDeviceQr_of_some hroom hdec] at h
      split at h
      · cases h
      · rename_i hcount
        cases h
        exact ⟨not_not.mp hcount, rfl⟩
  · rintro ⟨hcount, hdec⟩
    rw [decodeDeviceQr_of_some hroom hdec, if_neg (not_not.mpr hcount)]

end

/-! ## The codec -/

/-- What a `QrCode` is made of: 66 bytes for a key. -/
theorem length_utf8_hexEncode (key : Bytes) : (utf8 (hexEncode key)).length = 2 * key.length := by
  rw [utf8, hexEncode_eq, String.toList_ofList,
    length_utf8_of_digits fun c hc => (mem_flatMap_hexByte hc).1, length_flatMap_hexByte]

section

variable {qrCodeNew : Bytes → Except String Unit}

theorem encodeDeviceQr_of_length (hqr : ∀ payload : Bytes, payload.length = 66 → qrCodeNew payload = .ok ())
    {key : Bytes} (hkey : key.length = 33) : encodeDeviceQr qrCodeNew key = .ok (hexEncode key) := by
  have hpayload : (utf8 (hexEncode key)).length = 66 := by
    rw [length_utf8_hexEncode, hkey]
  simp only [encodeDeviceQr, hqr _ hpayload]

end

/-- **The codec**: a key is decoded from its payload; a string is decoded if and only if it is 66 hex
    digits, and any other is answered with an error; and what was decoded is encoded as the same digits in
    lower case. -/
theorem device_qr_codec (qrCodeNew : Bytes → Except String Unit)
    (hqr : ∀ payload : Bytes, payload.length = 66 → qrCodeNew payload = .ok ()) (a : Arch)
    (ha : a.bits = 32 ∨ a.bits = 64) :
    (∀ key : Bytes, key.length = 33 →
      ∃ s, encodeDeviceQr qrCodeNew key = .ok s ∧ decodeDeviceQr a s = .ok key) ∧
    ∀ s : String, (utf8 s).length ≤ a.isizeMax →
      decodeDeviceQr a s ≠ .panic ∧
      ((∃ key, decodeDeviceQr a s = .ok key) ↔
        s.toList.length = 66 ∧ ∀ c ∈ s.toList, isHexDigit c = true) ∧
      ∀ key, decodeDeviceQr a s = .ok key →
        encodeDeviceQr qrCodeNew key = .ok (String.ofList (s.toList.map Char.toLower)) := by
  constructor
  · intro key hkey
    have hroom : (utf8 (hexEncode key)).length ≤ a.isizeMax := by
      rw [length_utf8_hexEncode, hkey, Arch.isizeMax]
      rcases ha with hbits | hbits <;> rw [hbits] <;> decide
    refine ⟨_, encodeDeviceQr_of_length hqr hkey, (decodeDeviceQr_eq_ok hroom).mpr ⟨hkey, ?_⟩⟩
    rw [hexEncode_eq, String.toList_ofList]
    exact hexDecode_hexByte key
  · intro s hroom
    refine ⟨decodeDeviceQr_ne_panic hroom, ⟨?_, ?_⟩, ?_⟩
    · rintro ⟨key, h⟩
      obtain ⟨hkey, hdec⟩ := (decodeDeviceQr_eq_ok hroom).mp h
      obtain ⟨hdigits, hlower⟩ := hexDecode_eq_some.mp hdec
      have hlen := congrArg List.length hlower
      rw [List.length_map, length_flatMap_hexByte, hkey] at hlen
      exact ⟨hlen, hdigits⟩
    · rintro ⟨hlen, hdigits⟩
      obtain ⟨key, hdec, hlower⟩ := exists_hexDecode hdigits (by rw [hlen])
      have hcount := congrArg List.length hlower
      rw [List.length_map, length_flatMap_hexByte] at hcount
      exact ⟨key, (decodeDeviceQr_eq_ok hroom).mpr ⟨by omega, hdec⟩⟩
    · intro key h
      obtain ⟨hkey, hdec⟩ := (decodeDeviceQr_eq_ok hroom).mp h
      rw [encodeDeviceQr_of_length hqr hkey, hexEncode_eq, (hexDecode_eq_some.mp hdec).2]

/-- `QrCode::new`, of error correction level M: 2331 bytes at most. -/
def qrCodeCapacity (payload : Bytes) : Except String Unit :=
  if payload.length ≤ 2331 then .ok () else .error "data too long"

/-- The payload of a key in capital letters, and a string of two characters whose second byte is inside
    the first. -/
theorem device_qr_codec_examples :
    (∃ key, decodeDeviceQr ⟨32, true⟩ (String.ofList (List.replicate 66 'F')) = .ok key) ∧
      decodeDeviceQr ⟨32, true⟩ "éa" ≠ .panic :=
  have h := device_qr_codec qrCodeCapacity
    (fun payload hlen => if_pos (by omega : payload.length ≤ 2331)) ⟨32, true⟩ (.inl rfl)
  have hdigits : (String.ofList (List.replicate 66 'F')).toList.all isHexDigit = true := by
    decide +kernel
  ⟨(h.2 _ (by decide +kernel)).2.1.mpr ⟨rfl, List.all_eq_true.mp hdigits⟩, (h.2 _ (by decide +kernel)).1⟩

end E2EMessaging.Crypto
