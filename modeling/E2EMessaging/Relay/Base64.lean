/-
  BASE64 AS THE RELAY READS AND WRITES IT (`b64_decode`, `b64_encode` of `relay/src/ws.rs`).

  The decoder drops whitespace, checks every character, the number of padding characters and the
  length BEFORE it decodes anything, and then reads groups of four.  `'='` counts as padding from
  its first occurrence on, but the characters after it are only required to be base64 characters:
  the decoding loop stops at the first group that is not full.
-/
import E2EMessaging.Lib.Bytes

namespace E2EMessaging.Relay

open E2EMessaging.Lib

/-- The UTF-8 bytes of a string (`str::bytes`, `str::as_bytes`). -/
def utf8 (s : String) : Bytes := s.toList.flatMap String.utf8EncodeChar

/-! ## Decoding -/

/-- `lookup`: the six bits a character stands for. -/
def lookup (c : UInt8) : Option UInt8 :=
  if 65 ≤ c ∧ c ≤ 90 then some (c - 65)
  else if 97 ≤ c ∧ c ≤ 122 then some (c - 97 + 26)
  else if 48 ≤ c ∧ c ≤ 57 then some (c - 48 + 52)
  else if c = 43 then some 62
  else if c = 47 then some 63
  else none

/-- One slot of a group: padding stands for no bits. -/
def sextet (c : UInt8) : Option UInt8 := if c = 61 then none else lookup c

/-- The decoding loop.  A group without any bits ends it, an incomplete one is its last. -/
def b64DecodeLoop : Bytes → Bytes
  | c0 :: c1 :: c2 :: c3 :: rest =>
    let vals := [sextet c0, sextet c1, sextet c2, sextet c3]
    let n := (vals.filter Option.isSome).length
    if n = 0 then []
    else
      let v0 := (sextet c0).getD 0
      let v1 := (sextet c1).getD 0
      let v2 := (sextet c2).getD 0
      let v3 := (sextet c3).getD 0
      let out := [(v0 <<< 2) ||| (v1 >>> 4)]
        ++ (if (sextet c2).isSome then [(v1 <<< 4) ||| (v2 >>> 2)] else [])
        ++ (if (sextet c3).isSome then [(v2 <<< 6) ||| v3] else [])
      if n < 4 then out else out ++ b64DecodeLoop rest
  -- fewer than four characters are left only at the end: the length is a multiple of four
  | _ => []

/-- An upper-case hex digit. -/
def hexDigitUpper (n : Nat) : Char := "0123456789ABCDEF".toList.getD n '0'

/-- A byte as `{:02X}` prints it. -/
def hexByteUpper (b : UInt8) : String :=
  String.ofList [hexDigitUpper (b.toNat / 16), hexDigitUpper (b.toNat % 16)]

/-- `b64_decode`. -/
def b64Decode (s : String) : Except String Bytes :=
  let bytes := (utf8 s).filter (fun b => decide (b ≠ 10 ∧ b ≠ 13 ∧ b ≠ 32))
  if bytes.isEmpty then .ok []
  else
    match bytes.find? (fun b => decide (b ≠ 61) && (lookup b).isNone) with
    | some b => .error ("invalid base64 character: 0x" ++ hexByteUpper b)
    | none =>
      let nonPadLen := (bytes.takeWhile (fun b => decide (b ≠ 61))).length
      let padCount := bytes.length - nonPadLen
      if 2 < padCount then .error "invalid base64: more than 2 padding characters"
      else if bytes.length % 4 ≠ 0 then
        .error s!"invalid base64 length: {bytes.length} (must be multiple of 4)"
      else .ok (b64DecodeLoop bytes)

/-! ## Encoding -/

/-- `ALPHABET`. -/
def alphabet : List Char :=
  "ABCDEFGHIJKLMNOPQRSTUVWXYZabcdefghijklmnopqrstuvwxyz0123456789+/".toList

/-- `ALPHABET[i] as char`; the indices `b64_encode` uses are below 64. -/
def alphabetAt (i : UInt8) : Char := alphabet.getD i.toNat 'A'

/-- The encoding loop, three bytes at a time. -/
def b64EncodeChars : Bytes → List Char
  | [] => []
  | [b0] => [alphabetAt (b0 >>> 2), alphabetAt (b0 <<< 4 &&& (0x30 : UInt8)), '=', '=']
  | [b0, b1] =>
    [alphabetAt (b0 >>> 2), alphabetAt ((b0 <<< 4 &&& (0x30 : UInt8)) ||| b1 >>> 4),
      alphabetAt (b1 <<< 2 &&& (0x3C : UInt8)), '=']
  | b0 :: b1 :: b2 :: rest =>
    [alphabetAt (b0 >>> 2), alphabetAt ((b0 <<< 4 &&& (0x30 : UInt8)) ||| b1 >>> 4),
      alphabetAt ((b1 <<< 2 &&& (0x3C : UInt8)) ||| b2 >>> 6), alphabetAt (b2 &&& (0x3F : UInt8))]
      ++ b64EncodeChars rest

/-- `b64_encode`. -/
def b64Encode (data : Bytes) : String := String.ofList (b64EncodeChars data)

-- The encoder's own example, and what the decoder makes of it.
example : b64Encode [104, 105, 33, 33] = "aGkhIQ==" ∧
    b64Decode "aGkh\nIQ==" = .ok [104, 105, 33, 33] := by decide

end E2EMessaging.Relay
