/-
  THE TEXT OF A BACKUP RECORD (`collectKeyedRecords` and `restoreKeyedRecords` of
  `clients/web/src/BackupPanel.tsx`).

  A key of the object store and its blob become `JSON.stringify({ k, v: Array.from(value) })`, and the text
  becomes UTF-8.  Reading it back is `TextDecoder`, `JSON.parse`, a check of the two types, and
  `new Uint8Array(obj.v)`.

  Keys are arbitrary JavaScript strings, and an unpaired surrogate does not survive UTF-8.  It does not have
  to: `JSON.stringify` escapes it (`wellFormed_stringify`), and on well-formed text the decoder inverts the
  encoder (`textDecode_textEncode`).  So every key and blob is read as it was written, and `jsonEntries` is an
  `EntryCodec`.

  Reading is total: bytes that are no UTF-8, texts that are no JSON and values of other types are all
  "invalid record format".  What the elements of `v` become is the conversion of JavaScript, which accepts
  much more than bytes (`toUint8`); of the numbers themselves the model assumes only that the decimals of a
  byte denote it.
-/
import E2EMessaging.Lib.Utf8
import E2EMessaging.Lib.Json
import E2EMessaging.Web.BackupPanel

namespace E2EMessaging.Web

open E2EMessaging.Lib E2EMessaging.Lib.Json

/-! ## `TextDecoder` -/

/-- The code units of a character. -/
def utf16Units (c : Char) : JsString :=
  if c.toNat < 0x10000 then [UInt16.ofNat c.toNat]
  else [UInt16.ofNat (0xD800 + (c.toNat - 0x10000) / 0x400), UInt16.ofNat (0xDC00 + (c.toNat - 0x10000) % 0x400)]

/-- A string as JavaScript gets it. -/
def toJs (s : String) : JsString := s.toList.flatMap utf16Units

/-- A byte order mark is not part of the text. -/
def dropBom : List Char → List Char
  | [] => []
  | c :: cs => if c = Char.ofNat 0xFEFF then cs else c :: cs

/-- `new TextDecoder().decode`. -/
def textDecode (bs : Bytes) : JsString := (dropBom (decodeUtf8 bs)).flatMap utf16Units

theorem toNat_ofNat_of_isValidChar {n : Nat} (h : n.isValidChar) : (Char.ofNat n).toNat = n := by
  rw [Char.ofNat, dif_pos h]
  rfl

theorem not_surrogate {u : UInt16} (hhigh : isHigh u = false) (hlow : isLow u = false) :
    ¬ (0xD800 ≤ u ∧ u ≤ 0xDFFF) := by
  rintro ⟨h1, h2⟩
  by_cases hmid : u ≤ 0xDBFF
  · exact of_decide_eq_false hhigh ⟨h1, hmid⟩
  · have hlt : 0xDBFF < u.toNat := UInt16.lt_iff_toNat_lt.mp (UInt16.not_le.mp hmid)
    exact of_decide_eq_false hlow ⟨UInt16.le_iff_toNat_le.mpr hlt, h2⟩

theorem toNat_ofNat_unit {u : UInt16} (hhigh : isHigh u = false) (hlow : isLow u = false) :
    (Char.ofNat u.toNat).toNat = u.toNat := by
  have hu : u.toNat < 65536 := u.toNat_lt
  have hnot : ¬ (0xD800 ≤ u.toNat ∧ u.toNat ≤ 0xDFFF) := fun h =>
    not_surrogate hhigh hlow ⟨UInt16.le_iff_toNat_le.mpr h.1, UInt16.le_iff_toNat_le.mpr h.2⟩
  have hvalid : u.toNat.isValidChar := by
    show u.toNat < 0xD800 ∨ 0xDFFF < u.toNat ∧ u.toNat < 0x110000
    omega
  rw [toNat_ofNat_of_isValidChar hvalid]

/-- A unit that stands for itself. -/
theorem utf16Units_single {u : UInt16} (hhigh : isHigh u = false) (hlow : isLow u = false) :
    utf16Units (Char.ofNat u.toNat) = [u] := by
  have hu : u.toNat < 65536 := u.toNat_lt
  rw [utf16Units, toNat_ofNat_unit hhigh hlow, if_pos (by omega), UInt16.ofNat_toNat]

/-- A surrogate pair. -/
theorem utf16Units_pair {u v : UInt16} (hu : isHigh u = true) (hv : isLow v = true) :
    utf16Units (Char.ofNat (0x10000 + (u.toNat - 0xD800) * 0x400 + (v.toNat - 0xDC00))) = [u, v] := by
  obtain ⟨hu1, hu2⟩ := of_decide_eq_true hu
  obtain ⟨hv1, hv2⟩ := of_decide_eq_true hv
  have hu1 : 0xD800 ≤ u.toNat := UInt16.le_iff_toNat_le.mp hu1
  have hu2 : u.toNat ≤ 0xDBFF := UInt16.le_iff_toNat_le.mp hu2
  have hv1 : 0xDC00 ≤ v.toNat := UInt16.le_iff_toNat_le.mp hv1
  have hv2 : v.toNat ≤ 0xDFFF := UInt16.le_iff_toNat_le.mp hv2
  generalize hn : 0x10000 + (u.toNat - 0xD800) * 0x400 + (v.toNat - 0xDC00) = n
  have hvalid : n.isValidChar := by
    show n < 0xD800 ∨ 0xDFFF < n ∧ n < 0x110000
    omega
  have h1 : 0xD800 + (n - 0x10000) / 0x400 = u.toNat := by omega
  have h2 : 0xDC00 + (n - 0x10000) % 0x400 = v.toNat := by omega
  rw [utf16Units, toNat_ofNat_of_isValidChar hvalid, if_neg (by omega), h1, h2, UInt16.ofNat_toNat,
    UInt16.ofNat_toNat]

/-- Well-formed text is made of its characters. -/
theorem utf16Units_utf16Chars {s : JsString} (h : wellFormed s = true) :
    (utf16Chars s).flatMap utf16Units = s := by
  induction s using wellFormed.induct with
  | case1 => rfl
  | case2 u =>
    rw [wellFormed, Bool.not_eq_true', Bool.or_eq_false_iff] at h
    rw [utf16Chars, if_neg (not_surrogate h.1 h.2), List.flatMap_singleton, utf16Units_single h.1 h.2]
  | case3 u v us hhigh ih =>
    simp only [wellFormed, hhigh, if_true, Bool.and_eq_true] at h
    rw [utf16Chars, if_pos (of_decide_eq_true hhigh), if_pos (of_decide_eq_true h.1), List.flatMap_cons,
      utf16Units_pair hhigh h.1, ih h.2]
    rfl
  | case4 u v us hhigh hlow =>
    simp only [wellFormed, hhigh, hlow, if_true] at h
    cases h
  | case5 u v us hhigh hlow ih =>
    simp only [wellFormed, hhigh, hlow] at h
    rw [Bool.not_eq_true] at hhigh hlow
    rw [utf16Chars, if_neg (of_decide_eq_false hhigh), if_neg (of_decide_eq_false hlow), List.flatMap_cons,
      utf16Units_single hhigh hlow, ih h]
    rfl

/-- **Decoding inverts encoding**, on well-formed text that starts with no byte order mark. -/
theorem textDecode_textEncode {s : JsString} (h : wellFormed s = true)
    (hbom : dropBom (utf16Chars s) = utf16Chars s) : textDecode (textEncode s) = s := by
  rw [textDecode, textEncode, decodeUtf8_encode, hbom, utf16Units_utf16Chars h]

/-! ## `new Uint8Array` -/

mutual

/-- `ToString` throws.  A field `toString` hides the method and is no function itself; an array has the
    strings of its items. -/
def throwsToString : JsonValue → Bool
  | .array items => anyThrows items
  | .object fields => (field (units "toString") fields).isSome
  | _ => false

def anyThrows : List JsonValue → Bool
  | [] => false
  | v :: vs => throwsToString v || anyThrows vs

end

/-- The number a text denotes, modulo 256, and 0 if it denotes none: `ToUint8` after `StringToNumber`. -/
abbrev Numeral := JsString → UInt8

mutual

/-- The number of the string of a value. -/
def stringUint8 (N : Numeral) : JsonValue → UInt8
  | .null => 0
  | .bool _ => 0
  | .number spelling => N spelling
  | .string s => N s
  | .array items => arrayUint8 N items
  | .object _ => 0

/-- Several items are joined by commas, which is no number. -/
def arrayUint8 (N : Numeral) : List JsonValue → UInt8
  | [] => 0
  | [v] => stringUint8 N v
  | _ :: _ :: _ => 0

end

/-- One element of the array a `Uint8Array` is made from. -/
def toUint8 (N : Numeral) (v : JsonValue) : Option UInt8 :=
  if throwsToString v then none
  else
    match v with
    | .bool true => some 1
    | v => some (stringUint8 N v)

/-! ## Records -/

/-- The digits of a byte. -/
def decimal (b : UInt8) : JsString := units (toString b.toNat)

/-- A numeral reads the digits of a byte as that byte. -/
def ReadsBytes (N : Numeral) : Prop := ∀ b, N (decimal b) = b

/-- `{ k: key, v: Array.from(value) }`. -/
def entryValue (k : JsString) (v : Bytes) : JsonValue :=
  .object [(units "k", .string k), (units "v", .array (v.map fun b => .number (decimal b)))]

/-- A record, as `collectKeyedRecords` writes it. -/
def writeEntry (k : JsString) (v : Bytes) : Bytes := textEncode (stringify (entryValue k v))

/-- A record, as `restoreKeyedRecords` reads it; `none` is "invalid record format".  Reading a field of
    `null` throws, other values have no such fields. -/
def readEntry (N : Numeral) (record : Bytes) : Option (JsString × Bytes) :=
  match parse (textDecode record) with
  | some (.object fields) =>
    match field (units "k") fields, field (units "v") fields with
    | some (.string k), some (.array items) => (items.mapM (toUint8 N)).map fun v => (k, v)
    | _, _ => none
  | _ => none

theorem isNumber_decimal (b : UInt8) : IsNumber (decimal b) := by
  have hall : ∀ n < 256, (numberPhase (units (toString n))).any NumberPhase.complete = true := by
    decide +kernel
  have hb := hall b.toNat b.toNat_lt
  rw [Option.any_eq_true] at hb
  exact hb

theorem spelled_entryValue (k : JsString) (v : Bytes) : Spelled (entryValue k v) := by
  have hitems : ∀ v : Bytes, SpelledItems (v.map fun b => .number (decimal b)) := by
    intro v
    induction v with
    | nil => exact True.intro
    | cons b v ih => exact ⟨isNumber_decimal b, ih⟩
  exact ⟨True.intro, hitems v, True.intro⟩

theorem mapM_toUint8_decimal {N : Numeral} (hN : ReadsBytes N) (v : Bytes) :
    (v.map fun b => JsonValue.number (decimal b)).mapM (toUint8 N) = some v := by
  induction v with
  | nil => rfl
  | cons b v ih =>
    have hb : toUint8 N (.number (decimal b)) = some b := congrArg some (hN b)
    rw [List.map_cons, List.mapM_cons, hb, ih]
    rfl

/-- **A record is read as it was written**, whatever the key and the blob. -/
theorem readEntry_writeEntry {N : Numeral} (hN : ReadsBytes N) (k : JsString) (v : Bytes) :
    readEntry N (writeEntry k v) = some (k, v) := by
  have hspelled := spelled_entryValue k v
  have hformed : wellFormed (stringify (entryValue k v)) = true := by
    rw [← List.append_nil (stringify _), wellFormed_stringify _ hspelled]
    rfl
  have htext : textDecode (writeEntry k v) = stringify (entryValue k v) :=
    textDecode_textEncode hformed rfl
  rw [readEntry, htext, parse_stringify hspelled]
  show ((v.map fun b => JsonValue.number (decimal b)).mapM (toUint8 N)).map (fun v => (k, v)) = _
  rw [mapM_toUint8_decimal hN]
  rfl

/-- The records of the panel. -/
def jsonEntries (N : Numeral) (hN : ReadsBytes N) : EntryCodec where
  write := writeEntry
  read := readEntry N
  read_write := readEntry_writeEntry hN

end E2EMessaging.Web
