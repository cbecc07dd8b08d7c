/-
  THE CALLS OF THE LENGTH-PREFIXED READERS (`PreKeyBundle::from_bytes` of `core/crypto/src/prekey.rs`,
  `bundle_from_bytes` of `session.rs`, `decode_bundle` of `core/transport/src/dht.rs`).

  `read_len_prefixed`, `read_u32` and `read_u32_prefixed` subtract the offset from the length of the input
  before they have checked anything; the comments leave it to the callers that this does not underflow.
  So each caller is run here with a record of its calls: the function called, the offset passed, what came
  back.  The recorded functions are those of `PreKeyBytes` and `BundleBytes` with the record added
  (`result_fromBytesCalls`, `result_bundleCalls`).

  `take_field` keeps a cursor, a suffix of the input, and calls `split_at` and `expect`, which panic.
  `decodeBundle` leaves them out; `takeFieldSplit` has them.

  A read from an offset inside the input stops inside the input (`sound_lenPrefixed`, `sound_u32`,
  `sound_u32Prefixed`, `sound_takeField`), and so the next one starts there: that is the invariant.
-/
import E2EMessaging.Lib.Trace
import E2EMessaging.Crypto.BundleBytes
import E2EMessaging.Transport.Dht

namespace E2EMessaging.Transport

open E2EMessaging.Lib E2EMessaging.Crypto

/-! ## Calls -/

/-- A call of a reader, with the offset passed, or the cursor, and what it returns. -/
inductive ReadCall where
  | lenPrefixed (offset : Nat) (result : Outcome Unit (Bytes × Nat))
  | u32 (offset : Nat) (result : Outcome SignalProtocolError (UInt32 × Nat))
  | u32Prefixed (offset : Nat) (result : Outcome SignalProtocolError (Bytes × Nat))
  | takeField (cursor : Bytes) (result : Outcome DhtPreKeyError (Bytes × Bytes))

/-- The call starts inside the input and does not panic; where it succeeds, it has read what stands at
    its offset and advances by four bytes and the segment. -/
def ReadCall.Sound (bytes : Bytes) : ReadCall → Prop
  | .lenPrefixed offset result =>
    offset ≤ bytes.length ∧ result ≠ .panic ∧ ∀ segment next, result = .ok (segment, next) →
      next = offset + (4 + segment.length) ∧ segment.length < 2 ^ 32 ∧
        Spans bytes offset (withLength (toBeBytes 4) segment) next
  | .u32 offset result =>
    offset ≤ bytes.length ∧ result ≠ .panic ∧ ∀ value next, result = .ok (value, next) →
      next = offset + 4 ∧ Spans bytes offset (toBeBytes 4 value.toNat) next
  | .u32Prefixed offset result =>
    offset ≤ bytes.length ∧ result ≠ .panic ∧ ∀ segment next, result = .ok (segment, next) →
      next = offset + (4 + segment.length) ∧ segment.length < 2 ^ 32 ∧
        Spans bytes offset (withLength (toBeBytes 4) segment) next
  | .takeField cursor result =>
    ∃ offset ≤ bytes.length, cursor = bytes.drop offset ∧ result ≠ .panic ∧
      ∀ field rest, result = .ok (field, rest) →
        rest = bytes.drop (offset + (4 + field.length)) ∧ field.length < 2 ^ 32 ∧
          Spans bytes offset (putField field) (offset + (4 + field.length))

/-! ## `PreKeyBundle::from_bytes` -/

/-- A call of `read_len_prefixed`, with the `ok_or` behind it. -/
def callLenPrefixed (a : Arch) (bytes : Bytes) (offset : Nat) :
    Recorded PreKeyError ReadCall (Bytes × Nat) :=
  let result := readLenPrefixed a bytes offset
  ⟨[.lenPrefixed offset result], segmentOrMalformed result⟩

/-- The one-time prekey behind its presence flag. -/
def oneTimeCalls (D : RecordReaders) (a : Arch) (bytes : Bytes) (presence : UInt8) (offset : Nat) :
    Recorded PreKeyError ReadCall (Option PreKeyRecord × Nat) :=
  if presence = 0 then .lift (.ok (none, offset))
  else if presence = 1 then do
    let (otpkBytes, offset) ← callLenPrefixed a bytes offset
    let otpk ← .lift (orMalformed (D.deserializeOneTime otpkBytes))
    .lift (.ok (some otpk, offset))
  else .lift (.err .malformedKey)

/-- `PreKeyBundle::from_bytes`. -/
def fromBytesCalls (D : RecordReaders) (a : Arch) (bytes : Bytes) :
    Recorded PreKeyError ReadCall PreKeyBundle := do
  let (identityBytes, offset) ← callLenPrefixed a bytes 0
  let identityKey ← .lift (orMalformed (D.identityTryFrom identityBytes))
  let (signedBytes, offset) ← callLenPrefixed a bytes offset
  let signedPreKey ← .lift (orMalformed (D.deserializeSigned signedBytes))
  let next ← .lift (a.add offset 1)
  if bytes.length < next then .lift (.err .malformedKey)
  else
    let presence ← .lift (byteAt bytes offset)
    let (oneTimePreKey, offset) ← oneTimeCalls D a bytes presence next
    if offset ≠ bytes.length then .lift (.err .malformedKey)
    else .lift (.ok { identityKey, signedPreKey, oneTimePreKey })

/-! ## `bundle_from_bytes` -/

/-- A call of `read_u32`. -/
def callU32 (a : Arch) (bytes : Bytes) (offset : Nat) :
    Recorded SignalProtocolError ReadCall (UInt32 × Nat) :=
  let result := readU32 a bytes offset
  ⟨[.u32 offset result], result⟩

/-- A call of `read_u32_prefixed`, which calls `read_u32` first. -/
def callU32Prefixed (a : Arch) (bytes : Bytes) (offset : Nat) :
    Recorded SignalProtocolError ReadCall (Bytes × Nat) :=
  let result := readU32Prefixed a bytes offset
  ⟨[.u32Prefixed offset result, .u32 offset (readU32 a bytes offset)], result⟩

section

variable {Key : Type}

/-- The one-time prekey behind its presence flag. -/
def oneTimePreKeyCalls (C : KeyCodecs Key) (a : Arch) (bytes : Bytes) (presence : UInt8)
    (offset : Nat) : Recorded SignalProtocolError ReadCall (Option (UInt32 × Bytes) × Nat) :=
  if presence = 0 then .lift (.ok (none, offset))
  else if presence = 1 then do
    let (id, offset) ← callU32 a bytes offset
    let (publicBytes, offset) ← callU32Prefixed a bytes offset
    let publicKey ← .lift (orInvalid "malformed one-time prekey public" (C.publicKey publicBytes))
    .lift (.ok (some (id, publicKey), offset))
  else .lift (.err (invalidArgument "invalid one-time prekey presence flag"))

/-- `bundle_from_bytes`. -/
def bundleCalls (C : KeyCodecs Key) (a : Arch) (bytes : Bytes) :
    Recorded SignalProtocolError ReadCall (SignalBundle Key) := do
  let (registrationId, offset) ← callU32 a bytes 0
  let (deviceIdVal, offset) ← callU32 a bytes offset
  let deviceId ← .lift (readDeviceId deviceIdVal)
  let (identityBytes, offset) ← callU32Prefixed a bytes offset
  let identityKey ← .lift (orInvalid "malformed identity key" (C.identityKey identityBytes))
  let (signedPreKeyId, offset) ← callU32 a bytes offset
  let (signedBytes, offset) ← callU32Prefixed a bytes offset
  let signedPreKeyPublic ←
    .lift (orInvalid "malformed signed prekey public" (C.publicKey signedBytes))
  let (signedPreKeySignature, offset) ← callU32Prefixed a bytes offset
  let (kyberPreKeyId, offset) ← callU32 a bytes offset
  let (kyberBytes, offset) ← callU32Prefixed a bytes offset
  let kyberPreKeyPublic ←
    .lift (orInvalid "malformed kyber prekey public" (C.kyberPublicKey kyberBytes))
  let (kyberPreKeySignature, offset) ← callU32Prefixed a bytes offset
  let next ← .lift (a.add offset 1)
  if bytes.length < next then
    .lift (.err (invalidArgument "truncated: missing one-time prekey presence flag"))
  else
    let presence ← .lift (byteAt bytes offset)
    let (preKey, offset) ← oneTimePreKeyCalls C a bytes presence next
    if offset ≠ bytes.length then
      .lift (.err (invalidArgument "trailing bytes after prekey bundle"))
    else
      let bundle : SignalBundle Key :=
        { registrationId, deviceId, preKey, signedPreKeyId, signedPreKeyPublic,
          signedPreKeySignature, kyberPreKeyId, kyberPreKeyPublic, kyberPreKeySignature, identityKey }
      .lift (.ok bundle)

end

/-! ## `decode_bundle` -/

/-- `split_at`: panics if the position is behind the end. -/
def splitAt {ε : Type} (bs : Bytes) (mid : Nat) : Outcome ε (Bytes × Bytes) :=
  if mid ≤ bs.length then .ok (bs.take mid, bs.drop mid) else .panic

/-- `try_into().expect("4 bytes")`. -/
def expectFourBytes {ε : Type} (bs : Bytes) : Outcome ε Bytes :=
  if bs.length = 4 then .ok bs else .panic

/-- `take_field`, with what panics in it. -/
def takeFieldSplit (a : Arch) (cursor : Bytes) : Outcome DhtPreKeyError (Bytes × Bytes) :=
  if cursor.length < 4 then .err .malformedRecord
  else do
    let (lenBytes, rest) ← splitAt cursor 4
    let lenBytes ← expectFourBytes lenBytes
    -- `as usize`
    let len := fromBeBytes lenBytes % 2 ^ a.bits
    if rest.length < len then .err .malformedRecord
    else
      let (field, rest) ← splitAt rest len
      .ok (field, rest)

/-- A call of `take_field`. -/
def callTakeField (a : Arch) (cursor : Bytes) : Recorded DhtPreKeyError ReadCall (Bytes × Bytes) :=
  let result := takeFieldSplit a cursor
  ⟨[.takeField cursor result], result⟩

/-- The one-time prekey behind its flag. -/
def takeOneTimeCalls (D : RecordReaders) (a : Arch) (flag : UInt8) (cursor : Bytes) :
    Recorded DhtPreKeyError ReadCall (Option PreKeyRecord × Bytes) :=
  if flag = 0 then .lift (.ok (none, cursor))
  else if flag = 1 then do
    let (field, cursor) ← callTakeField a cursor
    let oneTime ← .lift (.ofExcept (orMalformedRecord (D.deserializeOneTime field)))
    .lift (.ok (some oneTime, cursor))
  else .lift (.err .malformedRecord)

/-- What follows the two fields; `split_first` finds no flag in an empty cursor. -/
def flagCalls (D : RecordReaders) (a : Arch) (identityKey : Bytes) (signedPreKey : SignedPreKeyRecord) :
    Bytes → Recorded DhtPreKeyError ReadCall PreKeyBundle
  | [] => .lift (.err .malformedRecord)
  | flag :: cursor => do
    let (oneTimePreKey, cursor) ← takeOneTimeCalls D a flag cursor
    if cursor ≠ [] then .lift (.err .malformedRecord)
    else .lift (.ok { identityKey, signedPreKey, oneTimePreKey })

/-- `decode_bundle`. -/
def decodeBundleCalls (D : RecordReaders) (a : Arch) (value : Bytes) :
    Recorded DhtPreKeyError ReadCall PreKeyBundle := do
  let (field, cursor) ← callTakeField a value
  let identityKey ← .lift (.ofExcept (orMalformedRecord (D.identityDecode field)))
  let (field, cursor) ← callTakeField a cursor
  let signedPreKey ← .lift (.ofExcept (orMalformedRecord (D.deserializeSigned field)))
  flagCalls D a identityKey signedPreKey cursor

/-! ## The record changes nothing -/

/-- With or without a record, `from_bytes` returns the same.  What is proved of the calls is proved of the model of
    `Crypto.PreKeyBytes`. -/
theorem result_fromBytesCalls (D : RecordReaders) (a : Arch) (bytes : Bytes) :
    (fromBytesCalls D a bytes).result = PreKeyBundle.fromBytes D a bytes := by
  have hone : ∀ presence offset,
      (oneTimeCalls D a bytes presence offset).result = oneTimeFromBytes D a bytes presence offset := by
    intro presence offset
    simp only [oneTimeCalls, oneTimeFromBytes, Recorded.result_ite, Recorded.result_lift,
      Recorded.result_bind]
    rfl
  simp only [fromBytesCalls, PreKeyBundle.fromBytes, Recorded.result_bind, Recorded.result_ite,
    Recorded.result_lift, hone]
  rfl

theorem result_bundleCalls {Key : Type} (C : KeyCodecs Key) (a : Arch) (bytes : Bytes) :
    (bundleCalls C a bytes).result = bundleFromBytes C a bytes := by
  have hone : ∀ presence offset, (oneTimePreKeyCalls C a bytes presence offset).result =
      readOneTimePreKey C a bytes presence offset := by
    intro presence offset
    simp only [oneTimePreKeyCalls, readOneTimePreKey, Recorded.result_ite, Recorded.result_lift,
      Recorded.result_bind]
    rfl
  simp only [bundleCalls, bundleFromBytes, Recorded.result_bind, Recorded.result_ite,
    Recorded.result_lift, hone]
  rfl

/-! ## One read -/

section

variable {a : Arch} {bytes : Bytes} {offset : Nat}

/-- At an offset in range the reader makes two comparisons and cuts out a segment; no arithmetic overflows. -/
theorem readLenPrefixed_in_range (ha : bytes.length < 2 ^ a.bits) (hoff : offset ≤ bytes.length) :
    readLenPrefixed a bytes offset =
      if bytes.length - offset < 4 then .err ()
      else if bytes.length - (offset + 4) < fromBeBytes ((bytes.drop offset).take 4) then .err ()
      else .ok ((bytes.drop (offset + 4)).take (fromBeBytes ((bytes.drop offset).take 4)),
        offset + 4 + fromBeBytes ((bytes.drop offset).take 4)) := by
  refine (be32_in_range ha hoff fun len offset => do
    let remaining ← a.sub bytes.length offset
    if len > remaining then .err ()
    else
      let stop ← a.add offset len
      let segment ← slice bytes offset stop
      .ok (segment, stop)).trans ?_
  split
  · rfl
  · rename_i hfour
    exact segment_in_range ha (show offset + 4 ≤ bytes.length by omega) _

theorem readU32_in_range (ha : bytes.length < 2 ^ a.bits) (hoff : offset ≤ bytes.length) :
    readU32 a bytes offset =
      if bytes.length - offset < 4 then .err (invalidArgument "truncated: missing 4-byte field")
      else .ok (UInt32.ofNat (fromBeBytes ((bytes.drop offset).take 4)), offset + 4) :=
  be32_in_range ha hoff fun n next => .ok (UInt32.ofNat n, next)

/-- A number and then a segment of that length, with an error text for each way to be too short. -/
theorem readU32Prefixed_in_range (ha : bytes.length < 2 ^ a.bits) (hoff : offset ≤ bytes.length)
    {len : UInt32} (hlen : len = UInt32.ofNat (fromBeBytes ((bytes.drop offset).take 4))) :
    readU32Prefixed a bytes offset =
      if bytes.length - offset < 4 then .err (invalidArgument "truncated: missing 4-byte field")
      else if bytes.length - (offset + 4) < len.toNat then
        .err (invalidArgument "truncated: declared segment longer than remaining bytes")
      else .ok ((bytes.drop (offset + 4)).take len.toNat, offset + 4 + len.toNat) := by
  rw [readU32Prefixed, readU32_in_range ha hoff, ← hlen]
  split
  · rfl
  · rename_i hfour
    exact segment_in_range ha (show offset + 4 ≤ bytes.length by omega) _

theorem length_withLength (segment : Bytes) :
    (withLength (toBeBytes 4) segment).length = 4 + segment.length := by
  rw [withLength, List.length_append, length_toBeBytes]

/-- A call at an offset in range is as the claim says: a segment inside the bytes, or the error. -/
theorem sound_lenPrefixed (ha : bytes.length < 2 ^ a.bits) (hoff : offset ≤ bytes.length) :
    (ReadCall.lenPrefixed offset (readLenPrefixed a bytes offset)).Sound bytes := by
  refine ⟨hoff, ?_, ?_⟩
  · rw [readLenPrefixed_in_range ha hoff]
    split
    · exact Outcome.err_ne_panic _
    · split
      · exact Outcome.err_ne_panic _
      · exact Outcome.ok_ne_panic _
  · intro segment next h
    obtain ⟨hlt, hspan⟩ := (readLenPrefixed_eq_ok ha).mp h
    have hstop := hspan.stop_eq
    rw [length_withLength] at hstop
    exact ⟨hstop, hlt, hspan⟩

theorem sound_u32 (ha : bytes.length < 2 ^ a.bits) (hoff : offset ≤ bytes.length) :
    (ReadCall.u32 offset (readU32 a bytes offset)).Sound bytes := by
  refine ⟨hoff, ?_, ?_⟩
  · rw [readU32_in_range ha hoff]
    split
    · exact Outcome.err_ne_panic _
    · exact Outcome.ok_ne_panic _
  · intro value next h
    have hspan := (readU32_eq_ok ha).mp h
    have hstop := hspan.stop_eq
    rw [length_toBeBytes] at hstop
    exact ⟨hstop, hspan⟩

theorem sound_u32Prefixed (ha : bytes.length < 2 ^ a.bits) (hoff : offset ≤ bytes.length) :
    (ReadCall.u32Prefixed offset (readU32Prefixed a bytes offset)).Sound bytes := by
  refine ⟨hoff, ?_, ?_⟩
  · rw [readU32Prefixed_in_range ha hoff rfl]
    split
    · exact Outcome.err_ne_panic _
    · split
      · exact Outcome.err_ne_panic _
      · exact Outcome.ok_ne_panic _
  · intro segment next h
    obtain ⟨hlt, hspan⟩ := (readU32Prefixed_eq_ok ha).mp h
    have hstop := hspan.stop_eq
    rw [writeU32Prefixed, ← withLength, length_withLength] at hstop
    exact ⟨hstop, hlt, hspan⟩

/-- Without what panics it is `take_field`, as there are four bytes where they are expected, and a `u32`
    is a `usize`. -/
theorem takeFieldSplit_eq (ha : 32 ≤ a.bits) (cursor : Bytes) :
    takeFieldSplit a cursor = .ofExcept (takeField cursor) := by
  unfold takeFieldSplit takeField
  by_cases hfour : cursor.length < 4
  · rw [if_pos hfour, if_pos hfour]
    rfl
  · rw [if_neg hfour, if_neg hfour, splitAt, if_pos (by omega), Outcome.ok_bind]
    dsimp only
    have hlen : (cursor.take 4).length = 4 := by
      rw [List.length_take]
      omega
    rw [expectFourBytes, if_pos hlen, Outcome.ok_bind]
    have hlt := fromBeBytes_lt (cursor.take 4)
    rw [hlen] at hlt
    have hcast : fromBeBytes (cursor.take 4) % 2 ^ a.bits = fromBeBytes (cursor.take 4) := by
      refine Nat.mod_eq_of_lt (Nat.lt_of_lt_of_le hlt ?_)
      exact Nat.pow_le_pow_right (by decide : 0 < 2) ha
    rw [hcast]
    split
    · rfl
    · rename_i hfits
      rw [splitAt, if_pos (by omega), Outcome.ok_bind]
      rfl

/-- And so is `take_field`, which is handed the rest of the bytes instead of an offset. -/
theorem sound_takeField (ha : 32 ≤ a.bits) (hoff : offset ≤ bytes.length) :
    (ReadCall.takeField (bytes.drop offset) (takeFieldSplit a (bytes.drop offset))).Sound bytes := by
  rw [takeFieldSplit_eq ha]
  refine ⟨offset, hoff, rfl, Outcome.ofExcept_ne_panic _, ?_⟩
  intro field rest h
  have htake : takeField (bytes.drop offset) = .ok (field, rest) := by
    cases hx : takeField (bytes.drop offset) with
    | error e =>
      rw [hx] at h
      cases h
    | ok v =>
      rw [hx] at h
      rw [Outcome.ok.inj h]
  obtain ⟨hlt, hdrop⟩ := takeField_eq_ok.mp htake
  obtain ⟨hrest, hspan⟩ := spans_of_drop hoff hdrop
  rw [putField, length_withLength] at hrest hspan
  exact ⟨hrest, hlt, hspan⟩

end

/-! ## The callers -/

/-- A target with a 32-bit or a 64-bit `usize` that can hold the input: a slice has at most `isize::MAX`
    bytes. -/
def Holds (a : Arch) (bytes : Bytes) : Prop :=
  (a.bits = 32 ∨ a.bits = 64) ∧ bytes.length ≤ a.isizeMax

instance (a : Arch) (bytes : Bytes) : Decidable (Holds a bytes) := inferInstanceAs (Decidable (_ ∧ _))

/-- There is room for one byte more, which the check of the presence flag adds. -/
theorem Holds.room {a : Arch} {bytes : Bytes} (h : Holds a bytes) : bytes.length + 1 < 2 ^ a.bits := by
  obtain ⟨hbits, hlen⟩ := h
  rw [Arch.isizeMax] at hlen
  rcases hbits with hbits | hbits <;> rw [hbits] at hlen ⊢ <;> omega

/-- A slice that exists is shorter than the address space, so positions in it do not overflow. -/
theorem Holds.length_lt {a : Arch} {bytes : Bytes} (h : Holds a bytes) : bytes.length < 2 ^ a.bits :=
  Nat.lt_of_succ_lt h.room

/-- A `u32` is a `usize`. -/
theorem Holds.le_bits {a : Arch} {bytes : Bytes} (h : Holds a bytes) : 32 ≤ a.bits := by
  rcases h.1 with hbits | hbits <;> omega

section

variable {a a' : Arch} {bytes : Bytes} {offset : Nat}

open Recorded

theorem segmentOrMalformed_ne_panic {α : Type} {x : Outcome Unit α} (hx : x ≠ .panic) :
    segmentOrMalformed x ≠ .panic := by
  cases x with
  | ok v => exact Outcome.ok_ne_panic _
  | err e => exact Outcome.err_ne_panic _
  | panic => exact absurd rfl hx

theorem orMalformed_ne_panic {α : Type} (o : Option α) : orMalformed o ≠ .panic := by
  cases o with
  | none => exact Outcome.err_ne_panic _
  | some v => exact Outcome.ok_ne_panic _

theorem orInvalid_ne_panic {α : Type} (message : String) (o : Option α) :
    orInvalid message o ≠ .panic := by
  cases o with
  | none => exact Outcome.err_ne_panic _
  | some v => exact Outcome.ok_ne_panic _

theorem readDeviceId_ne_panic (value : UInt32) : readDeviceId value ≠ .panic := by
  unfold readDeviceId
  split
  · split
    · exact Outcome.ok_ne_panic _
    · exact Outcome.err_ne_panic _
  · exact Outcome.err_ne_panic _

/-- On two widths that can hold the bytes the call does the same, soundly, and the next offset is in range again. -/
theorem callLenPrefixed_agrees (h : Holds a bytes) (h' : Holds a' bytes) (hoff : offset ≤ bytes.length) :
    Agrees (ReadCall.Sound bytes) (callLenPrefixed a bytes offset) (callLenPrefixed a' bytes offset)
      fun r => r.2 ≤ bytes.length := by
  have ha := h.length_lt
  have ha' := h'.length_lt
  have hsound := sound_lenPrefixed ha hoff
  refine ⟨?_, ?_, ?_, ?_⟩
  · rw [callLenPrefixed, callLenPrefixed, readLenPrefixed_in_range ha hoff,
      readLenPrefixed_in_range ha' hoff]
  · intro k hk
    rw [List.mem_singleton.mp hk]
    exact hsound
  · exact segmentOrMalformed_ne_panic hsound.2.1
  · rintro ⟨segment, next⟩ hr
    exact (hsound.2.2 segment next (segmentOrMalformed_eq_ok.mp hr)).2.2.le_length

theorem callU32_agrees (h : Holds a bytes) (h' : Holds a' bytes) (hoff : offset ≤ bytes.length) :
    Agrees (ReadCall.Sound bytes) (callU32 a bytes offset) (callU32 a' bytes offset)
      fun r => r.2 ≤ bytes.length := by
  have ha := h.length_lt
  have ha' := h'.length_lt
  have hsound := sound_u32 ha hoff
  refine ⟨?_, ?_, hsound.2.1, ?_⟩
  · rw [callU32, callU32, readU32_in_range ha hoff, readU32_in_range ha' hoff]
  · intro k hk
    rw [List.mem_singleton.mp hk]
    exact hsound
  · rintro ⟨value, next⟩ hr
    exact (hsound.2.2 value next hr).2.le_length

theorem callU32Prefixed_agrees (h : Holds a bytes) (h' : Holds a' bytes)
    (hoff : offset ≤ bytes.length) :
    Agrees (ReadCall.Sound bytes) (callU32Prefixed a bytes offset) (callU32Prefixed a' bytes offset)
      fun r => r.2 ≤ bytes.length := by
  have ha := h.length_lt
  have ha' := h'.length_lt
  have hsound := sound_u32Prefixed ha hoff
  refine ⟨?_, ?_, hsound.2.1, ?_⟩
  · rw [callU32Prefixed, callU32Prefixed, readU32Prefixed_in_range ha hoff rfl,
      readU32Prefixed_in_range ha' hoff rfl, readU32_in_range ha hoff, readU32_in_range ha' hoff]
  · intro k hk
    -- the call itself, and the `read_u32` in it
    rcases List.mem_cons.mp hk with rfl | hk
    · exact hsound
    · rw [List.mem_singleton.mp hk]
      exact sound_u32 ha hoff
  · rintro ⟨segment, next⟩ hr
    exact (hsound.2.2 segment next hr).2.2.le_length

/-- The same for `take_field`: what it leaves is a rest of the bytes again. -/
theorem callTakeField_agrees (h : Holds a bytes) (h' : Holds a' bytes) (hoff : offset ≤ bytes.length) :
    Agrees (ReadCall.Sound bytes) (callTakeField a (bytes.drop offset))
      (callTakeField a' (bytes.drop offset))
      fun r => ∃ next ≤ bytes.length, r.2 = bytes.drop next := by
  have ha := h.le_bits
  have ha' := h'.le_bits
  have hsound := sound_takeField ha hoff
  refine ⟨?_, ?_, ?_, ?_⟩
  · rw [callTakeField, callTakeField, takeFieldSplit_eq ha, takeFieldSplit_eq ha']
  · intro k hk
    rw [List.mem_singleton.mp hk]
    exact hsound
  · obtain ⟨-, -, -, hpanic, -⟩ := hsound
    exact hpanic
  · rintro ⟨field, rest⟩ hr
    obtain ⟨start, hstart, hdrop, -, hread⟩ := hsound
    obtain ⟨hrest, -, hspan⟩ := hread field rest hr
    exact ⟨_, hspan.le_length, hrest⟩

/-- The presence flag, behind its check: `offset + 1` does not overflow, and the index is in range. -/
theorem presence_agrees (h : Holds a bytes) (h' : Holds a' bytes) (hoff : offset ≤ bytes.length)
    {ε β : Type} {e : ε} {P : ReadCall → Prop} {Q : β → Prop}
    {f g : UInt8 → Nat → Recorded ε ReadCall β}
    (hfg : offset + 1 ≤ bytes.length → ∀ presence,
      Agrees P (f presence (offset + 1)) (g presence (offset + 1)) Q) :
    Agrees P
      (do
        let next ← lift (a.add offset 1)
        if bytes.length < next then lift (.err e)
        else
          let presence ← lift (byteAt bytes offset)
          f presence next)
      (do
        let next ← lift (a'.add offset 1)
        if bytes.length < next then lift (.err e)
        else
          let presence ← lift (byteAt bytes offset)
          g presence next) Q := by
  have hroom := h.room
  have hroom' := h'.room
  rw [Arch.add_of_lt (by omega), Arch.add_of_lt (by omega)]
  refine agrees_lift_bind (Outcome.ok_ne_panic _) fun next hnext => ?_
  cases hnext
  refine Agrees.ite (fun _ => agrees_err e Q) fun hflag => ?_
  have hle : offset + 1 ≤ bytes.length := Nat.le_of_not_lt hflag
  obtain ⟨b, hb, -⟩ := byteAt_of_lt (ε := ε) hle
  rw [hb]
  exact agrees_lift_bind (Outcome.ok_ne_panic b) fun presence _ => hfg hle presence

variable (D : RecordReaders)

/-- The branch on the presence flag makes one more call, or none. -/
theorem oneTimeCalls_agrees (h : Holds a bytes) (h' : Holds a' bytes) (hoff : offset ≤ bytes.length)
    (presence : UInt8) :
    Agrees (ReadCall.Sound bytes) (oneTimeCalls D a bytes presence offset)
      (oneTimeCalls D a' bytes presence offset) fun _ => True := by
  refine Agrees.ite (fun _ => agrees_ok trivial) fun _ => ?_
  refine Agrees.ite (fun _ => ?_) fun _ => agrees_err _ _
  refine (callLenPrefixed_agrees h h' hoff).bind ?_
  rintro ⟨otpkBytes, offset⟩ hoff
  exact agrees_lift_bind (orMalformed_ne_panic _) fun otpk _ => agrees_ok trivial

/-- **The calls of `from_bytes`.** -/
theorem fromBytesCalls_agrees (h : Holds a bytes) (h' : Holds a' bytes) :
    Agrees (ReadCall.Sound bytes) (fromBytesCalls D a bytes) (fromBytesCalls D a' bytes)
      fun _ => True := by
  refine (callLenPrefixed_agrees h h' (Nat.zero_le _)).bind ?_
  rintro ⟨identityBytes, offset⟩ hoff
  refine agrees_lift_bind (orMalformed_ne_panic _) fun identityKey _ => ?_
  refine (callLenPrefixed_agrees h h' hoff).bind ?_
  rintro ⟨signedBytes, offset⟩ hoff
  refine agrees_lift_bind (orMalformed_ne_panic _) fun signedPreKey _ => ?_
  refine presence_agrees h h' hoff fun hlt presence => ?_
  refine (oneTimeCalls_agrees D h h' hlt presence).bind ?_
  rintro ⟨oneTimePreKey, offset⟩ -
  exact Agrees.ite (fun _ => agrees_err _ _) fun _ => agrees_ok trivial

theorem oneTimePreKeyCalls_agrees {Key : Type} (C : KeyCodecs Key) (h : Holds a bytes)
    (h' : Holds a' bytes) (hoff : offset ≤ bytes.length) (presence : UInt8) :
    Agrees (ReadCall.Sound bytes) (oneTimePreKeyCalls C a bytes presence offset)
      (oneTimePreKeyCalls C a' bytes presence offset) fun _ => True := by
  refine Agrees.ite (fun _ => agrees_ok trivial) fun _ => ?_
  refine Agrees.ite (fun _ => ?_) fun _ => agrees_err _ _
  refine (callU32_agrees h h' hoff).bind ?_
  rintro ⟨id, offset⟩ hoff
  refine (callU32Prefixed_agrees h h' hoff).bind ?_
  rintro ⟨publicBytes, offset⟩ hoff
  exact agrees_lift_bind (orInvalid_ne_panic _ _) fun publicKey _ => agrees_ok trivial

/-- **The calls of `bundle_from_bytes`.** -/
theorem bundleCalls_agrees {Key : Type} (C : KeyCodecs Key) (h : Holds a bytes) (h' : Holds a' bytes) :
    Agrees (ReadCall.Sound bytes) (bundleCalls C a bytes) (bundleCalls C a' bytes) fun _ => True := by
  refine (callU32_agrees h h' (Nat.zero_le _)).bind ?_
  rintro ⟨registrationId, offset⟩ hoff
  refine (callU32_agrees h h' hoff).bind ?_
  rintro ⟨deviceIdVal, offset⟩ hoff
  refine agrees_lift_bind (readDeviceId_ne_panic _) fun deviceId _ => ?_
  refine (callU32Prefixed_agrees h h' hoff).bind ?_
  rintro ⟨identityBytes, offset⟩ hoff
  refine agrees_lift_bind (orInvalid_ne_panic _ _) fun identityKey _ => ?_
  refine (callU32_agrees h h' hoff).bind ?_
  rintro ⟨signedPreKeyId, offset⟩ hoff
  refine (callU32Prefixed_agrees h h' hoff).bind ?_
  rintro ⟨signedBytes, offset⟩ hoff
  refine agrees_lift_bind (orInvalid_ne_panic _ _) fun signedPreKeyPublic _ => ?_
  refine (callU32Prefixed_agrees h h' hoff).bind ?_
  rintro ⟨signedPreKeySignature, offset⟩ hoff
  refine (callU32_agrees h h' hoff).bind ?_
  rintro ⟨kyberPreKeyId, offset⟩ hoff
  refine (callU32Prefixed_agrees h h' hoff).bind ?_
  rintro ⟨kyberBytes, offset⟩ hoff
  refine agrees_lift_bind (orInvalid_ne_panic _ _) fun kyberPreKeyPublic _ => ?_
  refine (callU32Prefixed_agrees h h' hoff).bind ?_
  rintro ⟨kyberPreKeySignature, offset⟩ hoff
  refine presence_agrees h h' hoff fun hlt presence => ?_
  refine (oneTimePreKeyCalls_agrees C h h' hlt presence).bind ?_
  rintro ⟨preKey, offset⟩ -
  exact Agrees.ite (fun _ => agrees_err _ _) fun _ => agrees_ok trivial

theorem takeOneTimeCalls_agrees (h : Holds a bytes) (h' : Holds a' bytes) (hoff : offset ≤ bytes.length)
    (flag : UInt8) :
    Agrees (ReadCall.Sound bytes) (takeOneTimeCalls D a flag (bytes.drop offset))
      (takeOneTimeCalls D a' flag (bytes.drop offset)) fun _ => True := by
  refine Agrees.ite (fun _ => agrees_ok trivial) fun _ => ?_
  refine Agrees.ite (fun _ => ?_) fun _ => agrees_err _ _
  refine (callTakeField_agrees h h' hoff).bind ?_
  rintro ⟨field, cursor⟩ -
  exact agrees_lift_bind (Outcome.ofExcept_ne_panic _) fun oneTime _ => agrees_ok trivial

/-- **The calls of `decode_bundle`.** -/
theorem decodeBundleCalls_agrees (h : Holds a bytes) (h' : Holds a' bytes) :
    Agrees (ReadCall.Sound bytes) (decodeBundleCalls D a bytes) (decodeBundleCalls D a' bytes)
      fun _ => True := by
  have hfirst := callTakeField_agrees h h' (Nat.zero_le bytes.length)
  rw [List.drop_zero] at hfirst
  refine hfirst.bind ?_
  rintro ⟨field, cursor⟩ ⟨offset, hoff, rfl⟩
  refine agrees_lift_bind (Outcome.ofExcept_ne_panic _) fun identityKey _ => ?_
  refine (callTakeField_agrees h h' hoff).bind ?_
  rintro ⟨field, cursor⟩ ⟨offset, hoff, rfl⟩
  refine agrees_lift_bind (Outcome.ofExcept_ne_panic _) fun signedPreKey _ => ?_
  cases hcursor : bytes.drop offset with
  | nil => exact agrees_err _ _
  | cons flag cursor =>
    obtain ⟨hrest, hspan⟩ := spans_of_drop (w := [flag]) hoff hcursor
    subst hrest
    refine (takeOneTimeCalls_agrees D h h' hspan.le_length flag).bind ?_
    rintro ⟨oneTimePreKey, cursor⟩ -
    exact Agrees.ite (fun _ => agrees_err _ _) fun _ => agrees_ok trivial

/-- The record changes nothing here either, and what panics in `take_field` adds nothing. -/
theorem result_decodeBundleCalls (ha : 32 ≤ a.bits) (value : Bytes) :
    (decodeBundleCalls D a value).result = .ofExcept (decodeBundle D value) := by
  have htake : ∀ cursor, (callTakeField a cursor).result = .ofExcept (takeField cursor) :=
    takeFieldSplit_eq ha
  have hone : ∀ flag cursor,
      (takeOneTimeCalls D a flag cursor).result = .ofExcept (takeOneTime D flag cursor) := by
    intro flag cursor
    simp only [takeOneTimeCalls, takeOneTime, result_ite, result_lift, result_bind, htake]
    split
    · rfl
    · split
      · rw [Outcome.ofExcept_bind]
        simp only [Outcome.ofExcept_bind]
        rfl
      · rfl
  unfold decodeBundleCalls decodeBundle
  simp only [Outcome.ofExcept_bind, result_bind, result_lift, htake]
  refine bind_congr fun p => bind_congr fun identityKey => bind_congr fun q =>
    bind_congr fun signedPreKey => ?_
  obtain ⟨field, cursor⟩ := q
  cases cursor with
  | nil => rfl
  | cons flag cursor =>
    simp only [flagCalls, result_bind, result_ite, result_lift, hone, Outcome.ofExcept_bind]
    refine bind_congr fun r => ?_
    rw [apply_ite Outcome.ofExcept]
    rfl

end

/-- **The readers never panic**: on either pointer width, whatever the input, every call of a reader
    starts inside the input and reads what stands there, nothing overflows or is out of range, and the
    result is the same on every target. -/
theorem length_prefixed_readers_safe {Key : Type} (D : RecordReaders) (C : KeyCodecs Key) (bytes : Bytes)
    (a a' : Arch) (h : Holds a bytes) (h' : Holds a' bytes) :
    ((fromBytesCalls D a bytes).result = PreKeyBundle.fromBytes D a bytes ∧
      (∀ call ∈ (fromBytesCalls D a bytes).calls, call.Sound bytes) ∧
      PreKeyBundle.fromBytes D a bytes ≠ .panic ∧
      fromBytesCalls D a bytes = fromBytesCalls D a' bytes) ∧
    ((bundleCalls C a bytes).result = bundleFromBytes C a bytes ∧
      (∀ call ∈ (bundleCalls C a bytes).calls, call.Sound bytes) ∧
      bundleFromBytes C a bytes ≠ .panic ∧
      bundleCalls C a bytes = bundleCalls C a' bytes) ∧
    ((decodeBundleCalls D a bytes).result = .ofExcept (decodeBundle D bytes) ∧
      (∀ call ∈ (decodeBundleCalls D a bytes).calls, call.Sound bytes) ∧
      (decodeBundleCalls D a bytes).result ≠ .panic ∧
      decodeBundleCalls D a bytes = decodeBundleCalls D a' bytes) := by
  have hfrom := fromBytesCalls_agrees D h h'
  have hbundle := bundleCalls_agrees C h h'
  have hdecode := decodeBundleCalls_agrees D h h'
  refine ⟨⟨result_fromBytesCalls D a bytes, hfrom.calls, ?_, hfrom.same⟩,
    ⟨result_bundleCalls C a bytes, hbundle.calls, ?_, hbundle.same⟩,
    result_decodeBundleCalls D h.le_bits bytes, hdecode.calls, hdecode.noPanic, hdecode.same⟩
  · rw [← result_fromBytesCalls]
    exact hfrom.noPanic
  · rw [← result_bundleCalls]
    exact hbundle.noPanic

/-- A declared length of `u32::MAX`, with a 32-bit `usize`: the one call is refused. -/
theorem length_prefixed_readers_safe_u32_max :
    (fromBytesCalls protobufReaders ⟨32, true⟩ [255, 255, 255, 255, 1]).calls =
        [.lenPrefixed 0 (.err ())] ∧
      PreKeyBundle.fromBytes protobufReaders ⟨32, true⟩ [255, 255, 255, 255, 1] ≠ .panic ∧
      bundleFromBytes typedCodecs ⟨32, true⟩ [255, 255, 255, 255, 1] ≠ .panic ∧
      (decodeBundleCalls protobufReaders ⟨32, true⟩ [255, 255, 255, 255, 1]).result ≠ .panic :=
  have h := length_prefixed_readers_safe protobufReaders typedCodecs [255, 255, 255, 255, 1] ⟨32, true⟩
    ⟨64, false⟩ (by decide) (by decide)
  ⟨rfl, h.1.2.2.1, h.2.1.2.2.1, h.2.2.2.2.1⟩

end E2EMessaging.Transport
