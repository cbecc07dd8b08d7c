/-
  PREKEY BUNDLES AS BYTES (`bundle_to_bytes`, `bundle_from_bytes` of `core/crypto/src/session.rs`).

  Numbers are big-endian `u32`s, everything else is a segment behind its length:

      registration_id ‖ device_id ‖ [identity_key]
      ‖ signed_pre_key_id ‖ [public] ‖ [signature]
      ‖ kyber_pre_key_id  ‖ [public] ‖ [signature]
      ‖ presence flag (‖ one_time_pre_key_id ‖ [public])

  The reader keeps its own offset in `usize` (`Arch`) and rejects trailing bytes.  It does NOT verify
  signatures, and it cannot know whose bundle it was meant to be: whoever can write a bundle can
  write one for their own identity key.

  The format is a BIJECTION (`bundle_format_exact`): what is written is read back, and what is read
  is what writing it again gives.  Each reader is stated as an equivalence with the segment it found
  (`readU32_eq_ok`, `readU32Prefixed_eq_ok`, `readOneTimePreKey_eq_ok`), and the segments, put one
  behind the other, are the whole input.
-/
import E2EMessaging.Lib.Reader
import E2EMessaging.Crypto.RatchetSession

namespace E2EMessaging.Crypto

open E2EMessaging.Lib

/-- libsignal's readers of keys.  Public keys are known by their serialisation. -/
structure KeyCodecs (Key : Type) where
  /-- `IdentityKey::try_from`. -/
  identityKey : Bytes → Option Key
  /-- `PublicKey::try_from`. -/
  publicKey : Bytes → Option Bytes
  /-- `kem::PublicKey::deserialize`. -/
  kyberPublicKey : Bytes → Option Bytes

/-! ## Writing -/

/-- `write_u32_prefixed`; the length is cast with `as u32`. -/
def writeU32Prefixed (segment : Bytes) : Bytes := toBeBytes 4 segment.length ++ segment

section

variable {Key : Type}

/-- `bundle_to_bytes`. -/
def bundleToBytes (serialize : Key → Bytes) (bundle : SignalBundle Key) : Bytes :=
  toBeBytes 4 bundle.registrationId.toNat ++ toBeBytes 4 bundle.deviceId.toNat ++
  writeU32Prefixed (serialize bundle.identityKey) ++
  toBeBytes 4 bundle.signedPreKeyId.toNat ++ writeU32Prefixed bundle.signedPreKeyPublic ++
  writeU32Prefixed bundle.signedPreKeySignature ++
  toBeBytes 4 bundle.kyberPreKeyId.toNat ++ writeU32Prefixed bundle.kyberPreKeyPublic ++
  writeU32Prefixed bundle.kyberPreKeySignature ++
  match bundle.preKey with
  | some (id, publicKey) => 1 :: toBeBytes 4 id.toNat ++ writeU32Prefixed publicKey
  | none => [0]

/-! ## Reading -/

/-- `SignalProtocolError::InvalidArgument`. -/
def invalidArgument (message : String) : SignalProtocolError := .other message

/-- `read_u32`: the number and the offset behind it. -/
def readU32 (a : Arch) (bytes : Bytes) (offset : Nat) :
    Outcome SignalProtocolError (UInt32 × Nat) := do
  let remaining ← a.sub bytes.length offset
  if remaining < 4 then .err (invalidArgument "truncated: missing 4-byte field")
  else
    let b0 ← byteAt bytes offset
    let b1 ← byteAt bytes (← a.add offset 1)
    let b2 ← byteAt bytes (← a.add offset 2)
    let b3 ← byteAt bytes (← a.add offset 3)
    let offset ← a.add offset 4
    .ok (UInt32.ofNat (fromBeBytes [b0, b1, b2, b3]), offset)

/-- `read_u32_prefixed`: the segment and the offset behind it. -/
def readU32Prefixed (a : Arch) (bytes : Bytes) (offset : Nat) :
    Outcome SignalProtocolError (Bytes × Nat) := do
  let (len, offset) ← readU32 a bytes offset
  let remaining ← a.sub bytes.length offset
  if len.toNat > remaining then
    .err (invalidArgument "truncated: declared segment longer than remaining bytes")
  else
    let stop ← a.add offset len.toNat
    let segment ← slice bytes offset stop
    .ok (segment, stop)

/-- A value, or an error with this message. -/
def orInvalid {α : Type} (message : String) : Option α → Outcome SignalProtocolError α
  | some v => .ok v
  | none => .err (invalidArgument message)

/-- `DeviceId::new` on the `u8` of a `u32`: one to 127. -/
def readDeviceId (value : UInt32) : Outcome SignalProtocolError UInt8 :=
  if value.toNat < 256 then
    if 1 ≤ value.toNat ∧ value.toNat ≤ 127 then .ok (UInt8.ofNat value.toNat)
    else .err (invalidArgument "invalid device id")
  else .err (invalidArgument "device id out of range")

/-- The one-time prekey behind its presence flag. -/
def readOneTimePreKey (C : KeyCodecs Key) (a : Arch) (bytes : Bytes) (presence : UInt8)
    (offset : Nat) : Outcome SignalProtocolError (Option (UInt32 × Bytes) × Nat) :=
  if presence = 0 then .ok (none, offset)
  else if presence = 1 then do
    let (id, offset) ← readU32 a bytes offset
    let (publicBytes, offset) ← readU32Prefixed a bytes offset
    let publicKey ← orInvalid "malformed one-time prekey public" (C.publicKey publicBytes)
    .ok (some (id, publicKey), offset)
  else .err (invalidArgument "invalid one-time prekey presence flag")

/-- `bundle_from_bytes`. -/
def bundleFromBytes (C : KeyCodecs Key) (a : Arch) (bytes : Bytes) :
    Outcome SignalProtocolError (SignalBundle Key) := do
  let (registrationId, offset) ← readU32 a bytes 0
  let (deviceIdVal, offset) ← readU32 a bytes offset
  let deviceId ← readDeviceId deviceIdVal
  let (identityBytes, offset) ← readU32Prefixed a bytes offset
  let identityKey ← orInvalid "malformed identity key" (C.identityKey identityBytes)
  let (signedPreKeyId, offset) ← readU32 a bytes offset
  let (signedBytes, offset) ← readU32Prefixed a bytes offset
  let signedPreKeyPublic ← orInvalid "malformed signed prekey public" (C.publicKey signedBytes)
  let (signedPreKeySignature, offset) ← readU32Prefixed a bytes offset
  let (kyberPreKeyId, offset) ← readU32 a bytes offset
  let (kyberBytes, offset) ← readU32Prefixed a bytes offset
  let kyberPreKeyPublic ← orInvalid "malformed kyber prekey public" (C.kyberPublicKey kyberBytes)
  let (kyberPreKeySignature, offset) ← readU32Prefixed a bytes offset
  let next ← a.add offset 1
  if bytes.length < next then
    .err (invalidArgument "truncated: missing one-time prekey presence flag")
  else
    let presence ← byteAt bytes offset
    let (preKey, offset) ← readOneTimePreKey C a bytes presence next
    if offset ≠ bytes.length then
      .err (invalidArgument "trailing bytes after prekey bundle")
    else
      .ok { registrationId, deviceId, preKey, signedPreKeyId, signedPreKeyPublic,
            signedPreKeySignature, kyberPreKeyId, kyberPreKeyPublic, kyberPreKeySignature,
            identityKey }

end

/-! ## The readers find what the writers wrote -/

section

variable {a : Arch} {bytes : Bytes} {offset next : Nat}

theorem readU32_eq_ok (ha : bytes.length < 2 ^ a.bits) {value : UInt32} :
    readU32 a bytes offset = .ok (value, next) ↔
      Spans bytes offset (toBeBytes 4 value.toNat) next := by
  rw [readU32, be32_eq_ok ha fun n next => .ok (UInt32.ofNat n, next)]
  constructor
  · rintro ⟨n, hn, hspan, h⟩
    cases h
    rwa [UInt32.toNat_ofNat_of_lt' hn]
  · intro h
    obtain rfl : next = offset + 4 := by
      rw [h.stop_eq, length_toBeBytes]
    exact ⟨value.toNat, value.toNat_lt, h, by rw [UInt32.ofNat_toNat]⟩

theorem readU32Prefixed_eq_ok (ha : bytes.length < 2 ^ a.bits) {segment : Bytes} :
    readU32Prefixed a bytes offset = .ok (segment, next) ↔
      segment.length < 2 ^ 32 ∧ Spans bytes offset (writeU32Prefixed segment) next := by
  simp only [readU32Prefixed, Outcome.bind_eq_ok (x := readU32 a bytes offset), Prod.exists,
    readU32_eq_ok ha]
  constructor
  · rintro ⟨len, start, hlen, h⟩
    obtain ⟨segment', hcount, hseg, h⟩ := (segment_eq_ok ha hlen.le_length _).mp h
    cases h
    refine ⟨hcount ▸ len.toNat_lt, ?_⟩
    rw [writeU32Prefixed, hcount]
    exact hlen.append hseg
  · rintro ⟨hlt, h⟩
    obtain ⟨start, hlen, hseg⟩ := spans_append.mp h
    have hnum : (UInt32.ofNat segment.length).toNat = segment.length := UInt32.toNat_ofNat_of_lt' hlt
    refine ⟨UInt32.ofNat segment.length, start, hnum.symm ▸ hlen, ?_⟩
    rw [hnum]
    obtain rfl := hseg.stop_eq
    exact (segment_eq_ok ha hlen.le_length _).mpr ⟨segment, rfl, hseg, rfl⟩

theorem orInvalid_eq_ok {α : Type} {message : String} {o : Option α} {v : α} :
    orInvalid message o = .ok v ↔ o = some v := by
  cases o with
  | none => simp [orInvalid]
  | some v' => simp [orInvalid]

theorem readDeviceId_eq_ok {value : UInt32} {id : UInt8} :
    readDeviceId value = .ok id ↔ (1 ≤ id.toNat ∧ id.toNat ≤ 127) ∧ value.toNat = id.toNat := by
  constructor
  · intro h
    rw [readDeviceId] at h
    split at h
    · rename_i hlt
      split at h
      · rename_i hrange
        cases h
        have hnum : (UInt8.ofNat value.toNat).toNat = value.toNat := UInt8.toNat_ofNat_of_lt' hlt
        rw [hnum]
        exact ⟨hrange, rfl⟩
      · cases h
    · cases h
  · rintro ⟨hrange, hval⟩
    rw [readDeviceId, hval, if_pos (by omega), if_pos hrange, UInt8.ofNat_toNat]

end

/-! ## The format is a bijection -/

section

variable {Key : Type}

/-- The codecs accept exactly their own serialisations, and invert them. -/
structure KeyCodecs.Exact (C : KeyCodecs Key) (serialize : Key → Bytes) : Prop where
  identityKey : ∀ bs key, C.identityKey bs = some key ↔ serialize key = bs
  publicKey : ∀ bs key, C.publicKey bs = some key → key = bs
  kyberPublicKey : ∀ bs key, C.kyberPublicKey bs = some key → key = bs

/-- A bundle of keys, with a device id `DeviceId::new` accepts and segments that a `u32` counts. -/
structure SignalBundle.WellFormed (C : KeyCodecs Key) (serialize : Key → Bytes)
    (b : SignalBundle Key) : Prop where
  deviceId : 1 ≤ b.deviceId.toNat ∧ b.deviceId.toNat ≤ 127
  identityKey : (serialize b.identityKey).length < 2 ^ 32
  signedPreKeyPublic : b.signedPreKeyPublic.length < 2 ^ 32 ∧
    C.publicKey b.signedPreKeyPublic = some b.signedPreKeyPublic
  signedPreKeySignature : b.signedPreKeySignature.length < 2 ^ 32
  kyberPreKeyPublic : b.kyberPreKeyPublic.length < 2 ^ 32 ∧
    C.kyberPublicKey b.kyberPreKeyPublic = some b.kyberPreKeyPublic
  kyberPreKeySignature : b.kyberPreKeySignature.length < 2 ^ 32
  preKey : ∀ id publicKey, b.preKey = some (id, publicKey) →
    publicKey.length < 2 ^ 32 ∧ C.publicKey publicKey = some publicKey

/-- What `bundle_to_bytes` writes for the one-time prekey: the presence flag, and the prekey. -/
def oneTimeBytes : Option (UInt32 × Bytes) → Bytes
  | some (id, publicKey) => 1 :: toBeBytes 4 id.toNat ++ writeU32Prefixed publicKey
  | none => [0]

theorem bundleToBytes_eq (serialize : Key → Bytes) (b : SignalBundle Key) :
    bundleToBytes serialize b =
      toBeBytes 4 b.registrationId.toNat ++ toBeBytes 4 b.deviceId.toNat ++
      writeU32Prefixed (serialize b.identityKey) ++
      toBeBytes 4 b.signedPreKeyId.toNat ++ writeU32Prefixed b.signedPreKeyPublic ++
      writeU32Prefixed b.signedPreKeySignature ++
      toBeBytes 4 b.kyberPreKeyId.toNat ++ writeU32Prefixed b.kyberPreKeyPublic ++
      writeU32Prefixed b.kyberPreKeySignature ++ oneTimeBytes b.preKey := by
  rw [bundleToBytes]
  cases b.preKey with
  | none => rfl
  | some p => rfl

variable {C : KeyCodecs Key} {serialize : Key → Bytes} {a : Arch} {bytes : Bytes}

/-- The flag and what follows it, read from the flag's position to the end. -/
theorem readOneTimePreKey_eq_ok (hC : C.Exact serialize) (ha : bytes.length < 2 ^ a.bits)
    {offset next : Nat} {preKey : Option (UInt32 × Bytes)} :
    (∃ presence, Spans bytes offset [presence] (offset + 1) ∧
      readOneTimePreKey C a bytes presence (offset + 1) = .ok (preKey, next)) ↔
    (∀ id publicKey, preKey = some (id, publicKey) →
      publicKey.length < 2 ^ 32 ∧ C.publicKey publicKey = some publicKey) ∧
    Spans bytes offset (oneTimeBytes preKey) next := by
  constructor
  · rintro ⟨presence, hflag, h⟩
    rw [readOneTimePreKey] at h
    split at h
    · rename_i hzero
      cases h
      refine ⟨fun _ _ hp => (by cases hp), ?_⟩
      rw [hzero] at hflag
      exact hflag
    · split at h
      · rename_i hone
        simp only [Outcome.bind_eq_ok, Prod.exists, readU32_eq_ok ha, readU32Prefixed_eq_ok ha,
          orInvalid_eq_ok] at h
        obtain ⟨id, mid, hid, segment, stop, ⟨hlen, hseg⟩, publicKey, hkey, h⟩ := h
        cases h
        obtain rfl := hC.publicKey _ _ hkey
        rw [hone] at hflag
        refine ⟨fun _ _ hp => (by cases hp; exact ⟨hlen, hkey⟩), ?_⟩
        exact (hflag.append hid).append hseg
      · cases h
  · rintro ⟨hvalid, h⟩
    cases preKey with
    | none =>
      obtain rfl : next = offset + 1 := h.stop_eq
      exact ⟨0, h, rfl⟩
    | some p =>
      obtain ⟨id, publicKey⟩ := p
      obtain ⟨hlen, hkey⟩ := hvalid id publicKey rfl
      have h' : Spans bytes offset (([1] ++ toBeBytes 4 id.toNat) ++ writeU32Prefixed publicKey) next := h
      obtain ⟨mid, h', hseg⟩ := spans_append.mp h'
      obtain ⟨start, hflag, hid⟩ := spans_append.mp h'
      obtain rfl : start = offset + 1 := hflag.stop_eq
      refine ⟨1, hflag, ?_⟩
      rw [readOneTimePreKey, if_neg (by decide), if_pos rfl]
      simp only [Outcome.bind_eq_ok, Prod.exists, readU32_eq_ok ha, readU32Prefixed_eq_ok ha,
        orInvalid_eq_ok]
      exact ⟨id, mid, hid, publicKey, next, ⟨hlen, hseg⟩, publicKey, hkey, rfl⟩

/-- **Reading succeeds on what writing gives, and on nothing else.** -/
theorem bundleFromBytes_eq_ok (hC : C.Exact serialize) (ha : bytes.length < 2 ^ a.bits)
    {b : SignalBundle Key} :
    bundleFromBytes C a bytes = .ok b ↔
      b.WellFormed C serialize ∧ bundleToBytes serialize b = bytes := by
  rw [bundleToBytes_eq, ← spans_whole]
  simp only [bundleFromBytes, Outcome.bind_eq_ok, Prod.exists, readU32_eq_ok ha,
    readU32Prefixed_eq_ok ha, orInvalid_eq_ok, readDeviceId_eq_ok, hC.identityKey]
  constructor
  · intro h
    obtain ⟨registrationId, o1, h1, deviceIdVal, o2, h2, deviceId, ⟨hdev, hval⟩, h⟩ := h
    obtain ⟨identityBytes, o3, ⟨l3, h3⟩, identityKey, hidentity, signedPreKeyId, o4, h4, h⟩ := h
    obtain ⟨signedBytes, o5, ⟨l5, h5⟩, signedPublic, hsigned, signedSignature, o6, ⟨l6, h6⟩, h⟩ := h
    obtain ⟨kyberPreKeyId, o7, h7, kyberBytes, o8, ⟨l8, h8⟩, kyberPublic, hkyber, h⟩ := h
    obtain ⟨kyberSignature, o9, ⟨l9, h9⟩, next, hnext, h⟩ := h
    subst hidentity
    obtain rfl := hC.publicKey _ _ hsigned
    obtain rfl := hC.kyberPublicKey _ _ hkyber
    split at h
    · cases h
    · rename_i hflag
      simp only [Outcome.bind_eq_ok, Prod.exists, byteAt_eq_ok] at h
      obtain ⟨presence, hpresence, preKey, stop, htail, h⟩ := h
      rw [Arch.add_of_lt (Nat.lt_of_le_of_lt hpresence.le_length ha)] at hnext
      cases hnext
      split at h
      · cases h
      · rename_i hstop
        cases h
        obtain rfl : stop = bytes.length := Decidable.not_not.mp hstop
        obtain ⟨hpre, htail⟩ := (readOneTimePreKey_eq_ok hC ha).mp ⟨presence, hpresence, htail⟩
        refine ⟨⟨hdev, l3, ⟨l5, hsigned⟩, l6, ⟨l8, hkyber⟩, l9, hpre⟩, ?_⟩
        rw [hval] at h2
        exact ((((((((h1.append h2).append h3).append h4).append h5).append h6).append h7).append
          h8).append h9).append htail
  · rintro ⟨hb, h⟩
    obtain ⟨o9, h, htail⟩ := spans_append.mp h
    obtain ⟨o8, h, h9⟩ := spans_append.mp h
    obtain ⟨o7, h, h8⟩ := spans_append.mp h
    obtain ⟨o6, h, h7⟩ := spans_append.mp h
    obtain ⟨o5, h, h6⟩ := spans_append.mp h
    obtain ⟨o4, h, h5⟩ := spans_append.mp h
    obtain ⟨o3, h, h4⟩ := spans_append.mp h
    obtain ⟨o2, h, h3⟩ := spans_append.mp h
    obtain ⟨o1, h1, h2⟩ := spans_append.mp h
    obtain ⟨presence, hflag, htail⟩ := (readOneTimePreKey_eq_ok hC ha).mpr ⟨hb.preKey, htail⟩
    have hdev : (UInt32.ofNat b.deviceId.toNat).toNat = b.deviceId.toNat :=
      UInt32.toNat_ofNat_of_lt' (Nat.lt_trans b.deviceId.toNat_lt (by decide))
    refine ⟨_, o1, h1, UInt32.ofNat b.deviceId.toNat, o2, hdev.symm ▸ h2, _, ⟨hb.deviceId, hdev⟩, _,
      o3, ⟨hb.identityKey, h3⟩, _, rfl, _, o4, h4, _, o5, ⟨hb.signedPreKeyPublic.1, h5⟩, _,
      hb.signedPreKeyPublic.2, _, o6, ⟨hb.signedPreKeySignature, h6⟩, _, o7, h7, _, o8,
      ⟨hb.kyberPreKeyPublic.1, h8⟩, _, hb.kyberPreKeyPublic.2, _, o9,
      ⟨hb.kyberPreKeySignature, h9⟩, o9 + 1, ?_, ?_⟩
    · exact Arch.add_of_lt (Nat.lt_of_le_of_lt hflag.le_length ha)
    · rw [if_neg (Nat.not_lt.mpr hflag.le_length)]
      simp only [Outcome.bind_eq_ok, Prod.exists, byteAt_eq_ok]
      refine ⟨presence, hflag, b.preKey, bytes.length, htail, ?_⟩
      rw [if_neg (fun hne => hne rfl)]

/-- Seven segments of less than `2^32` bytes and the numbers between them fit a 64-bit `usize`. -/
theorem SignalBundle.WellFormed.length_lt {b : SignalBundle Key} (hb : b.WellFormed C serialize) :
    (bundleToBytes serialize b).length < 2 ^ 64 := by
  have hseg : ∀ bs : Bytes, (writeU32Prefixed bs).length = 4 + bs.length := by
    intro bs
    rw [writeU32Prefixed, List.length_append, length_toBeBytes]
  have htail : (oneTimeBytes b.preKey).length < 2 ^ 33 := by
    cases ho : b.preKey with
    | none => decide
    | some p =>
      have hlen := (hb.preKey p.1 p.2 ho).1
      simp only [oneTimeBytes, List.cons_append, List.length_cons, List.length_append,
        length_toBeBytes, hseg]
      omega
  have hid := hb.identityKey
  have hsigned := hb.signedPreKeyPublic.1
  have hsig := hb.signedPreKeySignature
  have hkyber := hb.kyberPreKeyPublic.1
  have hksig := hb.kyberPreKeySignature
  rw [bundleToBytes_eq]
  simp only [List.length_append, length_toBeBytes, hseg]
  omega

/-- **The format is a bijection** between well-formed bundles and accepted byte strings: what is
    written is read back; what is read is what writing it gives again; and so the reader accepts
    exactly what the writer writes.  (A vector or slice has at most `isize::MAX` bytes, which on a
    64-bit target no bundle exceeds.) -/
theorem bundle_format_exact (C : KeyCodecs Key) (serialize : Key → Bytes) (hC : C.Exact serialize)
    (a : Arch) :
    (∀ b : SignalBundle Key, b.WellFormed C serialize →
      (a.bits = 64 ∨ (bundleToBytes serialize b).length ≤ a.isizeMax) →
      bundleFromBytes C a (bundleToBytes serialize b) = .ok b) ∧
    (∀ (s : Bytes) (b : SignalBundle Key), s.length ≤ a.isizeMax →
      bundleFromBytes C a s = .ok b → bundleToBytes serialize b = s) ∧
    (∀ s : Bytes, s.length ≤ a.isizeMax →
      ((∃ b, bundleFromBytes C a s = .ok b) ↔
        ∃ b : SignalBundle Key, b.WellFormed C serialize ∧ bundleToBytes serialize b = s)) := by
  refine ⟨?_, ?_, ?_⟩
  · intro b hb hfits
    have ha : (bundleToBytes serialize b).length < 2 ^ a.bits := by
      rcases hfits with h64 | hle
      · rw [h64]
        exact hb.length_lt
      · exact Arch.lt_of_le_isizeMax hle
    exact (bundleFromBytes_eq_ok hC ha).mpr ⟨hb, rfl⟩
  · intro s b hs h
    exact ((bundleFromBytes_eq_ok hC (Arch.lt_of_le_isizeMax hs)).mp h).2
  · intro s hs
    have ha := Arch.lt_of_le_isizeMax hs
    constructor
    · rintro ⟨b, h⟩
      exact ⟨b, (bundleFromBytes_eq_ok hC ha).mp h⟩
    · rintro ⟨b, h⟩
      exact ⟨b, (bundleFromBytes_eq_ok hC ha).mpr h⟩

end

/-! ## A bundle of Curve25519 and Kyber1024 keys -/

/-- A serialised key: a type byte and a key of fixed length. -/
def IsTyped (type : UInt8) (length : Nat) (bs : Bytes) : Prop :=
  bs.head? = some type ∧ bs.length = length + 1

instance (type : UInt8) (length : Nat) (bs : Bytes) : Decidable (IsTyped type length bs) :=
  inferInstanceAs (Decidable (_ ∧ _))

/-- Keys told by their type byte and their length; an identity key is its own serialisation. -/
def typedCodecs : KeyCodecs {bs : Bytes // IsTyped 5 32 bs} where
  identityKey := fun bs => if h : IsTyped 5 32 bs then some ⟨bs, h⟩ else none
  publicKey := fun bs => if IsTyped 5 32 bs then some bs else none
  kyberPublicKey := fun bs => if IsTyped 8 1568 bs then some bs else none

theorem typedCodecs_exact : typedCodecs.Exact Subtype.val where
  identityKey := by
    intro bs key
    by_cases h : IsTyped 5 32 bs
    · simp [typedCodecs, h, Subtype.ext_iff, eq_comm]
    · simp only [typedCodecs, h, dite_false, reduceCtorEq, false_iff]
      rintro rfl
      exact h key.property
  publicKey := by
    intro bs key h
    simp only [typedCodecs] at h
    split at h
    · exact (Option.some.inj h).symm
    · cases h
  kyberPublicKey := by
    intro bs key h
    simp only [typedCodecs] at h
    split at h
    · exact (Option.some.inj h).symm
    · cases h

/-- A bundle with a one-time prekey. -/
def typedBundle : SignalBundle {bs : Bytes // IsTyped 5 32 bs} where
  registrationId := 4711
  deviceId := 1
  preKey := some (3, 5 :: List.replicate 32 3)
  signedPreKeyId := 1
  signedPreKeyPublic := 5 :: List.replicate 32 9
  signedPreKeySignature := List.replicate 64 4
  kyberPreKeyId := 2
  kyberPreKeyPublic := 8 :: List.replicate 1568 6
  kyberPreKeySignature := List.replicate 64 2
  identityKey := ⟨5 :: List.replicate 32 7, by decide⟩

theorem typedBundle_wellFormed : typedBundle.WellFormed typedCodecs Subtype.val where
  deviceId := by decide
  identityKey := by decide +kernel
  signedPreKeyPublic := by decide +kernel
  signedPreKeySignature := by decide +kernel
  kyberPreKeyPublic := by decide +kernel
  kyberPreKeySignature := by decide +kernel
  preKey := by
    intro id publicKey h
    cases h
    decide +kernel

/-- The bundle is well formed and is read back. -/
theorem typedBundle_reads_back :
    typedBundle.WellFormed typedCodecs Subtype.val ∧
      bundleFromBytes typedCodecs ⟨64, true⟩ (bundleToBytes Subtype.val typedBundle) =
        .ok typedBundle :=
  ⟨typedBundle_wellFormed,
    (bundle_format_exact typedCodecs Subtype.val typedCodecs_exact ⟨64, true⟩).1 typedBundle
      typedBundle_wellFormed (.inl rfl)⟩

end E2EMessaging.Crypto
