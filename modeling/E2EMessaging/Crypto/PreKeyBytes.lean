/-
  A PREKEY BUNDLE ACROSS A BOUNDARY (`PreKeyBundle::to_bytes`, `PreKeyBundle::from_bytes` and
  `verify_pre_key_bundle` of `core/crypto/src/prekey.rs`).

  The frame is two segments behind their lengths, a presence flag, and a third segment when the flag
  is one (`bundleFrame`).  `Framed` says what it is FOR: these bytes are exactly such a frame, and
  libsignal reads the bundle's components out of its segments.  `fromBytes_eq_ok` is the refinement:
  the reader, with its offset in `usize` and its checked subtractions, succeeds on frames and on
  nothing else, and never with another bundle.

  Neither direction looks at the signature.  That is `verifyPreKeyBundle`, a separate call.
-/
import E2EMessaging.Lib.Reader
import E2EMessaging.Crypto.PreKeyPool

namespace E2EMessaging.Crypto

open E2EMessaging.Lib

/-! ## libsignal's readers -/

/-- What libsignal reads out of bytes; no caller looks at its errors. -/
structure RecordReaders where
  /-- `IdentityKey::try_from`. -/
  identityTryFrom : Bytes → Option Bytes
  /-- `IdentityKey::decode`. -/
  identityDecode : Bytes → Option Bytes
  /-- `SignedPreKeyRecord::deserialize`. -/
  deserializeSigned : Bytes → Option SignedPreKeyRecord
  /-- `PreKeyRecord::deserialize`. -/
  deserializeOneTime : Bytes → Option PreKeyRecord

/-- The readers invert the serialisation. -/
structure RecordReaders.Inverts (D : RecordReaders) (L : Libsignal) : Prop where
  identity : ∀ key, D.identityTryFrom (L.serializeIdentity key) = some key
  signed : ∀ r bs, L.serializeSigned r = .ok bs → D.deserializeSigned bs = some r
  oneTime : ∀ r bs, L.serializeOneTime r = .ok bs → D.deserializeOneTime bs = some r

/-! ## The frame -/

/-- The end of a frame: the flag, and the third segment behind flag one. -/
def frameTail : Option Bytes → Bytes
  | none => [0]
  | some oneTime => [1] ++ withLength (toBeBytes 4) oneTime

/-- Two segments, a flag byte, and a third segment precisely when the flag is one. -/
def bundleFrame (identity signed : Bytes) (oneTime : Option Bytes) : Bytes :=
  withLength (toBeBytes 4) identity ++ withLength (toBeBytes 4) signed ++ frameTail oneTime

/-- `v` is exactly a frame whose segments are read as the components of `b`. -/
def Framed (readIdentity : Bytes → Option Bytes) (D : RecordReaders) (v : Bytes)
    (b : PreKeyBundle) : Prop :=
  ∃ (identity signed : Bytes) (oneTime : Option Bytes),
    v = bundleFrame identity signed oneTime ∧
    (identity.length < 2 ^ 32 ∧ signed.length < 2 ^ 32 ∧ ∀ bs, oneTime = some bs → bs.length < 2 ^ 32) ∧
    readIdentity identity = some b.identityKey ∧
    D.deserializeSigned signed = some b.signedPreKey ∧
    oneTime.map D.deserializeOneTime = b.oneTimePreKey.map some

/-! ## Writing -/

/-- `write_len_prefixed`; the length is cast with `as u32`. -/
def writeLenPrefixed (segment : Bytes) : Bytes := toBeBytes 4 segment.length ++ segment

/-- The presence flag and the one-time prekey. -/
def oneTimeToBytes (L : Libsignal) : Option PreKeyRecord → Except PreKeyError Bytes
  | some r =>
    match L.serializeOneTime r with
    | .error _ => .error .malformedKey
    | .ok bs => .ok (1 :: writeLenPrefixed bs)
  | none => .ok [0]

/-- `PreKeyBundle::to_bytes`. -/
def PreKeyBundle.toBytes (L : Libsignal) (b : PreKeyBundle) : Except PreKeyError Bytes :=
  let identityBytes := writeLenPrefixed (L.serializeIdentity b.identityKey)
  match L.serializeSigned b.signedPreKey with
  | .error _ => .error .malformedKey
  | .ok signed =>
    match oneTimeToBytes L b.oneTimePreKey with
    | .error e => .error e
    | .ok oneTime => .ok (identityBytes ++ writeLenPrefixed signed ++ oneTime)

/-! ## Reading -/

/-- `read_len_prefixed`: the segment and the offset behind it; its `None` is the error `()`. -/
def readLenPrefixed (a : Arch) (bytes : Bytes) (offset : Nat) : Outcome Unit (Bytes × Nat) := do
  let remaining ← a.sub bytes.length offset
  if remaining < 4 then .err ()
  else
    let b0 ← byteAt bytes offset
    let b1 ← byteAt bytes (← a.add offset 1)
    let b2 ← byteAt bytes (← a.add offset 2)
    let b3 ← byteAt bytes (← a.add offset 3)
    let offset ← a.add offset 4
    let len := fromBeBytes [b0, b1, b2, b3]
    let remaining ← a.sub bytes.length offset
    if len > remaining then .err ()
    else
      let stop ← a.add offset len
      let segment ← slice bytes offset stop
      .ok (segment, stop)

/-- `ok_or(PreKeyError::MalformedKey)`. -/
def segmentOrMalformed {α : Type} : Outcome Unit α → Outcome PreKeyError α
  | .ok v => .ok v
  | .err _ => .err .malformedKey
  | .panic => .panic

/-- `map_err(|_| PreKeyError::MalformedKey)`. -/
def orMalformed {α : Type} : Option α → Outcome PreKeyError α
  | some v => .ok v
  | none => .err .malformedKey

/-- The one-time prekey behind its presence flag. -/
def oneTimeFromBytes (D : RecordReaders) (a : Arch) (bytes : Bytes) (presence : UInt8)
    (offset : Nat) : Outcome PreKeyError (Option PreKeyRecord × Nat) :=
  if presence = 0 then .ok (none, offset)
  else if presence = 1 then do
    let (otpkBytes, offset) ← segmentOrMalformed (readLenPrefixed a bytes offset)
    let otpk ← orMalformed (D.deserializeOneTime otpkBytes)
    .ok (some otpk, offset)
  else .err .malformedKey

/-- `PreKeyBundle::from_bytes`. -/
def PreKeyBundle.fromBytes (D : RecordReaders) (a : Arch) (bytes : Bytes) :
    Outcome PreKeyError PreKeyBundle := do
  let (identityBytes, offset) ← segmentOrMalformed (readLenPrefixed a bytes 0)
  let identityKey ← orMalformed (D.identityTryFrom identityBytes)
  let (signedBytes, offset) ← segmentOrMalformed (readLenPrefixed a bytes offset)
  let signedPreKey ← orMalformed (D.deserializeSigned signedBytes)
  let next ← a.add offset 1
  if bytes.length < next then .err .malformedKey
  else
    let presence ← byteAt bytes offset
    let (oneTimePreKey, offset) ← oneTimeFromBytes D a bytes presence next
    if offset ≠ bytes.length then .err .malformedKey
    else .ok { identityKey, signedPreKey, oneTimePreKey }

/-! ## The signature -/

/-- The accessors of a signed prekey record, which parse what it stores, and the check of an
    identity key on a message and a signature. -/
structure Signatures where
  /-- `public_key()`, serialised. -/
  publicKey : SignedPreKeyRecord → Option Bytes
  /-- `signature()`. -/
  signature : SignedPreKeyRecord → Option Bytes
  /-- `identity_key.public_key().verify_signature(message, signature)`. -/
  verifySignature : Bytes → Bytes → Bytes → Bool

/-- `verify_signed_pre_key`. -/
def verifySignedPreKey (S : Signatures) (identityKey : Bytes) (r : SignedPreKeyRecord) :
    Except PreKeyError Unit :=
  match S.publicKey r with
  | none => .error .malformedKey
  | some publicKey =>
    match S.signature r with
    | none => .error .malformedKey
    | some signature =>
      if S.verifySignature identityKey publicKey signature then .ok () else .error .invalidSignature

/-- `verify_pre_key_bundle`. -/
def verifyPreKeyBundle (S : Signatures) (b : PreKeyBundle) : Except PreKeyError Unit :=
  verifySignedPreKey S b.identityKey b.signedPreKey

/-- The signature of the signed prekey verifies, under the bundle's identity key, over the serialised
    public half. -/
def SignatureVerifies (S : Signatures) (b : PreKeyBundle) : Prop :=
  ∃ publicKey signature, S.publicKey b.signedPreKey = some publicKey ∧
    S.signature b.signedPreKey = some signature ∧
    S.verifySignature b.identityKey publicKey signature = true

theorem verifyPreKeyBundle_eq_ok {S : Signatures} {b : PreKeyBundle} :
    verifyPreKeyBundle S b = .ok () ↔ SignatureVerifies S b := by
  rw [verifyPreKeyBundle, verifySignedPreKey, SignatureVerifies]
  cases hpub : S.publicKey b.signedPreKey with
  | none => simp
  | some publicKey =>
    cases hsig : S.signature b.signedPreKey with
    | none => simp
    | some signature => simp

/-! ## Reading is exact -/

section

variable {a : Arch} {bytes : Bytes} {offset next : Nat}

theorem readLenPrefixed_eq_ok (ha : bytes.length < 2 ^ a.bits) {segment : Bytes} :
    readLenPrefixed a bytes offset = .ok (segment, next) ↔
      segment.length < 2 ^ 32 ∧ Spans bytes offset (withLength (toBeBytes 4) segment) next := by
  refine (be32_eq_ok ha fun len offset => do
    let remaining ← a.sub bytes.length offset
    if len > remaining then .err ()
    else
      let stop ← a.add offset len
      let segment ← slice bytes offset stop
      .ok (segment, stop)).trans ?_
  constructor
  · rintro ⟨len, hlt, hlen, h⟩
    obtain ⟨segment', hcount, hseg, h⟩ := (segment_eq_ok ha hlen.le_length _).mp h
    cases h
    rw [withLength, hcount]
    exact ⟨hlt, hlen.append hseg⟩
  · rintro ⟨hlt, h⟩
    obtain ⟨start, hlen, hseg⟩ := spans_append.mp h
    obtain rfl : start = offset + 4 := by
      rw [hlen.stop_eq, length_toBeBytes]
    obtain rfl := hseg.stop_eq
    exact ⟨segment.length, hlt, hlen, (segment_eq_ok ha hlen.le_length _).mpr ⟨segment, rfl, hseg, rfl⟩⟩

theorem segmentOrMalformed_eq_ok {α : Type} {x : Outcome Unit α} {v : α} :
    segmentOrMalformed x = .ok v ↔ x = .ok v := by
  cases x with
  | ok v' => simp [segmentOrMalformed]
  | err e => simp [segmentOrMalformed]
  | panic => simp [segmentOrMalformed]

theorem orMalformed_eq_ok {α : Type} {o : Option α} {v : α} :
    orMalformed o = .ok v ↔ o = some v := by
  cases o with
  | none => simp [orMalformed]
  | some v' => simp [orMalformed]

variable {D : RecordReaders}

/-- The flag and what follows it, read from the flag's position. -/
theorem oneTimeFromBytes_eq_ok (ha : bytes.length < 2 ^ a.bits) {r : Option PreKeyRecord} :
    (∃ presence, Spans bytes offset [presence] (offset + 1) ∧
      oneTimeFromBytes D a bytes presence (offset + 1) = .ok (r, next)) ↔
    ∃ oneTime : Option Bytes, (∀ bs, oneTime = some bs → bs.length < 2 ^ 32) ∧
      oneTime.map D.deserializeOneTime = r.map some ∧ Spans bytes offset (frameTail oneTime) next := by
  constructor
  · rintro ⟨presence, hflag, h⟩
    rw [oneTimeFromBytes] at h
    split at h
    · rename_i hzero
      cases h
      rw [hzero] at hflag
      exact ⟨none, fun _ hbs => (by cases hbs), rfl, hflag⟩
    · split at h
      · rename_i hone
        simp only [Outcome.bind_eq_ok, Prod.exists, segmentOrMalformed_eq_ok,
          readLenPrefixed_eq_ok ha, orMalformed_eq_ok] at h
        obtain ⟨segment, stop, ⟨hlen, hseg⟩, otpk, hotpk, h⟩ := h
        cases h
        rw [hone] at hflag
        refine ⟨some segment, fun _ hbs => (by cases hbs; exact hlen), ?_, hflag.append hseg⟩
        rw [Option.map_some, hotpk, Option.map_some]
      · cases h
  · rintro ⟨oneTime, hlen, hr, h⟩
    cases oneTime with
    | none =>
      cases r with
      | none =>
        obtain rfl : next = offset + 1 := h.stop_eq
        exact ⟨0, h, rfl⟩
      | some otpk => cases hr
    | some segment =>
      cases r with
      | none => cases hr
      | some otpk =>
        obtain ⟨start, hflag, hseg⟩ := spans_append.mp h
        obtain rfl : start = offset + 1 := hflag.stop_eq
        refine ⟨1, hflag, ?_⟩
        rw [oneTimeFromBytes, if_neg (by decide), if_pos rfl]
        simp only [Outcome.bind_eq_ok, Prod.exists, segmentOrMalformed_eq_ok,
          readLenPrefixed_eq_ok ha, orMalformed_eq_ok]
        exact ⟨segment, next, ⟨hlen segment rfl, hseg⟩, otpk, Option.some.inj hr, rfl⟩

/-- **`from_bytes` succeeds on frames and on nothing else.** -/
theorem fromBytes_eq_ok (ha : bytes.length < 2 ^ a.bits) {b : PreKeyBundle} :
    PreKeyBundle.fromBytes D a bytes = .ok b ↔ Framed D.identityTryFrom D bytes b := by
  simp only [PreKeyBundle.fromBytes, Outcome.bind_eq_ok, Prod.exists, segmentOrMalformed_eq_ok,
    readLenPrefixed_eq_ok ha, orMalformed_eq_ok]
  constructor
  · rintro ⟨identityBytes, o1, ⟨l1, h1⟩, identityKey, hid, signedBytes, o2, ⟨l2, h2⟩, signedPreKey,
      hsigned, o3, hnext, h⟩
    split at h
    · cases h
    · simp only [Outcome.bind_eq_ok, Prod.exists, byteAt_eq_ok] at h
      obtain ⟨presence, hflag, oneTimePreKey, stop, htail, h⟩ := h
      rw [Arch.add_of_lt (Nat.lt_of_le_of_lt hflag.le_length ha)] at hnext
      cases hnext
      split at h
      · cases h
      · rename_i hstop
        cases h
        obtain rfl : stop = bytes.length := Decidable.not_not.mp hstop
        obtain ⟨oneTime, l3, hone, h3⟩ := (oneTimeFromBytes_eq_ok ha).mp ⟨presence, hflag, htail⟩
        refine ⟨identityBytes, signedBytes, oneTime, ?_, ⟨l1, l2, l3⟩, hid, hsigned, hone⟩
        exact (spans_whole.mp ((h1.append h2).append h3)).symm
  · rintro ⟨identityBytes, signedBytes, oneTime, hv, ⟨l1, l2, l3⟩, hid, hsigned, hone⟩
    obtain ⟨o2, h, h3⟩ := spans_append.mp (spans_whole.mpr hv.symm)
    obtain ⟨o1, h1, h2⟩ := spans_append.mp h
    obtain ⟨presence, hflag, htail⟩ := (oneTimeFromBytes_eq_ok ha).mpr ⟨oneTime, l3, hone, h3⟩
    refine ⟨identityBytes, o1, ⟨l1, h1⟩, b.identityKey, hid, signedBytes, o2, ⟨l2, h2⟩,
      b.signedPreKey, hsigned, o2 + 1, ?_, ?_⟩
    · exact Arch.add_of_lt (Nat.lt_of_le_of_lt hflag.le_length ha)
    · rw [if_neg (Nat.not_lt.mpr hflag.le_length)]
      simp only [Outcome.bind_eq_ok, Prod.exists, byteAt_eq_ok]
      refine ⟨presence, hflag, b.oneTimePreKey, bytes.length, htail, ?_⟩
      rw [if_neg (fun hne => hne rfl)]

end

end E2EMessaging.Crypto
