/-
  PREKEY BUNDLES ON THE DHT (`core/transport/src/dht.rs`): what a published record shows.

  `encode_bundle` frames the libsignal serialisation of the bundle's components and
  `publish_pre_key_bundle` puts the result into the DHT, where any node can read it.  A record that
  did not depend on private keys would be the same for bundles that differ in private halves only.
  It never is (`published_record_reveals_private`): the components are storage records, serialised
  whole, and the framing is injective (`encodeBundle_injective`), so the private keys can be read
  back off the record.

  READING is exact: `decode_bundle` succeeds on frames and on nothing else (`decodeBundle_eq_ok`), and
  so does the second codec of the same bundles, `from_bytes` of another crate; the two agree on every
  byte string (`bundle_codecs_agree`).  A record is accepted when, besides, it lies under its own
  identity key and its signature verifies (`dht_record_accepted_iff`).
-/
import E2EMessaging.Crypto.PreKeyBytes

namespace E2EMessaging.Transport

open E2EMessaging.Lib E2EMessaging.Crypto

/-- `DhtPreKeyError`. -/
inductive DhtPreKeyError where
  | malformedRecord
  | identityKeyMismatch
  | invalidBundle (e : PreKeyError)
  deriving Repr, DecidableEq

/-- `put_field`: the length as a big-endian `u32`, then the bytes. -/
def putField (bs : Bytes) : Bytes := withLength (toBeBytes 4) bs

/-- The flag byte and the one-time prekey. -/
def encodeOneTimeField (L : Libsignal) : Option PreKeyRecord → Except DhtPreKeyError Bytes
  | none => .ok [0]
  | some r =>
    match L.serializeOneTime r with
    | .error _ => .error .malformedRecord
    | .ok bs => .ok (1 :: putField bs)

/-- `encode_bundle`. -/
def encodeBundle (L : Libsignal) (b : PreKeyBundle) : Except DhtPreKeyError Bytes :=
  match L.serializeSigned b.signedPreKey with
  | .error _ => .error .malformedRecord
  | .ok signed =>
    match encodeOneTimeField L b.oneTimePreKey with
    | .error e => .error e
    | .ok oneTime =>
      .ok (putField (L.serializeIdentity b.identityKey) ++ (putField signed ++ oneTime))

/-- A Kademlia record. -/
structure Record where
  key : Bytes
  value : Bytes
  deriving Repr, DecidableEq

/-- The record `publish_pre_key_bundle` puts: under `record_key_for_identity`, the encoded bundle. -/
def publishedRecord (L : Libsignal) (b : PreKeyBundle) : Except DhtPreKeyError Record :=
  match encodeBundle L b with
  | .error e => .error e
  | .ok value => .ok ⟨L.serializeIdentity b.identityKey, value⟩

/-! ## The framing keeps the components apart -/

theorem encodeOneTimeField_injective {L : Libsignal} (hL : L.WholeRecord) {o o' : Option PreKeyRecord}
    {bs : Bytes} (hfits : ∀ r, o = some r → ∃ bs, L.serializeOneTime r = .ok bs ∧ bs.length < 2 ^ 32)
    (hfits' : ∀ r, o' = some r → ∃ bs, L.serializeOneTime r = .ok bs ∧ bs.length < 2 ^ 32)
    (h : encodeOneTimeField L o = .ok bs) (h' : encodeOneTimeField L o' = .ok bs) : o = o' := by
  rw [← h'] at h
  cases o with
  | none =>
    cases o' with
    | none => rfl
    | some r' =>
      obtain ⟨bs', hbs', -⟩ := hfits' r' rfl
      simp [encodeOneTimeField, hbs'] at h
  | some r =>
    obtain ⟨b1, hb1, hlen⟩ := hfits r rfl
    cases o' with
    | none => simp [encodeOneTimeField, hb1] at h
    | some r' =>
      obtain ⟨b2, hb2, hlen'⟩ := hfits' r' rfl
      have hput : putField b1 ++ [] = putField b2 ++ [] := by
        simpa [encodeOneTimeField, hb1, hb2] using h
      obtain ⟨rfl, -⟩ := withLength_be_cancel hlen hlen' hput
      rw [hL.oneTime (hb1.trans hb2.symm)]

/-- **The framing is injective** on bundles whose components fit their length prefixes. -/
theorem encodeBundle_injective {L : Libsignal} (hL : L.WholeRecord) {b b' : PreKeyBundle}
    (hfits : L.Fits b) (hfits' : L.Fits b') (hid : b.identityKey = b'.identityKey)
    (h : encodeBundle L b = encodeBundle L b') : b = b' := by
  obtain ⟨s, hs, hslen⟩ := hfits.signed
  obtain ⟨s', hs', hslen'⟩ := hfits'.signed
  rw [encodeBundle, encodeBundle, hs, hs', hid] at h
  dsimp only at h
  have hone : ∀ {x : PreKeyBundle}, L.Fits x → ∃ o, encodeOneTimeField L x.oneTimePreKey = .ok o := by
    intro x hx
    cases ho : x.oneTimePreKey with
    | none => exact ⟨_, rfl⟩
    | some r =>
      obtain ⟨bs, hbs, -⟩ := hx.oneTime r ho
      exact ⟨1 :: putField bs, by simp [encodeOneTimeField, hbs]⟩
  obtain ⟨o, ho⟩ := hone hfits
  obtain ⟨o', ho'⟩ := hone hfits'
  rw [ho, ho'] at h
  have hcat := List.append_cancel_left (Except.ok.inj h)
  obtain ⟨rfl, rfl⟩ := withLength_be_cancel hslen hslen' hcat
  have hsigned : b.signedPreKey = b'.signedPreKey := hL.signed (hs.trans hs'.symm)
  have honeTime : b.oneTimePreKey = b'.oneTimePreKey :=
    encodeOneTimeField_injective hL hfits.oneTime hfits'.oneTime ho ho'
  obtain ⟨i, sp, op⟩ := b
  obtain ⟨i', sp', op'⟩ := b'
  dsimp only at hid hsigned honeTime
  rw [hid, hsigned, honeTime]

/-- **A published record depends on the private keys**: bundles that agree on everything public and
    differ in a private half are never encoded, and never published, alike. -/
theorem published_record_reveals_private (L : Libsignal) (hL : L.WholeRecord) (b b' : PreKeyBundle)
    (hfits : L.Fits b) (hfits' : L.Fits b') (hpub : b.PublicEq b') (hne : b ≠ b') :
    encodeBundle L b ≠ encodeBundle L b' ∧ publishedRecord L b ≠ publishedRecord L b' := by
  have henc : encodeBundle L b ≠ encodeBundle L b' :=
    fun h => hne (encodeBundle_injective hL hfits hfits' hpub.1 h)
  refine ⟨henc, fun h => henc ?_⟩
  rw [publishedRecord, publishedRecord] at h
  cases he : encodeBundle L b with
  | error e =>
    cases he' : encodeBundle L b' with
    | error e' =>
      rw [he, he'] at h
      rw [Except.error.inj h]
    | ok v' => simp [he, he'] at h
  | ok v =>
    cases he' : encodeBundle L b' with
    | error e' => simp [he, he'] at h
    | ok v' =>
      rw [he, he'] at h
      rw [(Record.mk.inj (Except.ok.inj h)).2]

/-! ## Reading a record -/

/-- `take_field`: the field, and the cursor behind it. -/
def takeField (cursor : Bytes) : Except DhtPreKeyError (Bytes × Bytes) :=
  if cursor.length < 4 then .error .malformedRecord
  else
    let rest := cursor.drop 4
    let len := fromBeBytes (cursor.take 4)
    if rest.length < len then .error .malformedRecord
    else .ok (rest.take len, rest.drop len)

/-- `map_err(|_| DhtPreKeyError::MalformedRecord)`. -/
def orMalformedRecord {α : Type} : Option α → Except DhtPreKeyError α
  | some v => .ok v
  | none => .error .malformedRecord

/-- The one-time prekey behind its flag. -/
def takeOneTime (D : RecordReaders) (flag : UInt8) (cursor : Bytes) :
    Except DhtPreKeyError (Option PreKeyRecord × Bytes) :=
  if flag = 0 then .ok (none, cursor)
  else if flag = 1 then do
    let (field, cursor) ← takeField cursor
    let oneTime ← orMalformedRecord (D.deserializeOneTime field)
    .ok (some oneTime, cursor)
  else .error .malformedRecord

/-- `decode_bundle`. -/
def decodeBundle (D : RecordReaders) (value : Bytes) : Except DhtPreKeyError PreKeyBundle := do
  let (field, cursor) ← takeField value
  let identityKey ← orMalformedRecord (D.identityDecode field)
  let (field, cursor) ← takeField cursor
  let signedPreKey ← orMalformedRecord (D.deserializeSigned field)
  match cursor with
  | [] => .error .malformedRecord
  | flag :: cursor => do
    let (oneTimePreKey, cursor) ← takeOneTime D flag cursor
    if cursor ≠ [] then .error .malformedRecord
    else .ok { identityKey, signedPreKey, oneTimePreKey }

/-- `decode_and_verify_bundle`: the record must decode, live under its own identity key, and
    verify, in this order. -/
def decodeAndVerifyBundle (L : Libsignal) (D : RecordReaders) (S : Signatures) (key value : Bytes) :
    Except DhtPreKeyError PreKeyBundle :=
  match decodeBundle D value with
  | .error e => .error e
  | .ok bundle =>
    if key ≠ L.serializeIdentity bundle.identityKey then .error .identityKeyMismatch
    else
      match verifyPreKeyBundle S bundle with
      | .error e => .error (.invalidBundle e)
      | .ok () => .ok bundle

theorem takeField_eq_ok {cursor field rest : Bytes} :
    takeField cursor = .ok (field, rest) ↔
      field.length < 2 ^ 32 ∧ cursor = putField field ++ rest := by
  rw [putField, withLength_be32_iff, takeField]
  by_cases hfour : cursor.length < 4
  · rw [if_pos hfour]
    constructor
    · intro h
      cases h
    · rintro ⟨hle, -⟩
      omega
  · rw [if_neg hfour]
    by_cases hfits : (cursor.drop 4).length < fromBeBytes (cursor.take 4)
    · simp only [hfits, if_true]
      constructor
      · intro h
        cases h
      · rintro ⟨-, hle, -⟩
        omega
    · simp only [hfits, if_false, Except.ok.injEq, Prod.mk.injEq]
      constructor
      · rintro ⟨rfl, rfl⟩
        exact ⟨by omega, by omega, rfl, rfl⟩
      · rintro ⟨-, -, rfl, rfl⟩
        exact ⟨rfl, rfl⟩

theorem orMalformedRecord_eq_ok {α : Type} {o : Option α} {v : α} :
    orMalformedRecord o = .ok v ↔ o = some v := by
  cases o with
  | none => simp [orMalformedRecord]
  | some v' => simp [orMalformedRecord]

variable {D : RecordReaders}

/-- The flag and what follows it, up to the end of the record. -/
theorem takeOneTime_eq_ok {cursor : Bytes} {r : Option PreKeyRecord} :
    (∃ flag rest, cursor = flag :: rest ∧ takeOneTime D flag rest = .ok (r, [])) ↔
    ∃ oneTime : Option Bytes, (∀ bs, oneTime = some bs → bs.length < 2 ^ 32) ∧
      oneTime.map D.deserializeOneTime = r.map some ∧ cursor = frameTail oneTime := by
  constructor
  · rintro ⟨flag, rest, rfl, h⟩
    rw [takeOneTime] at h
    split at h
    · rename_i hzero
      cases h
      exact ⟨none, fun _ hbs => (by cases hbs), rfl, by rw [hzero]; rfl⟩
    · split at h
      · rename_i hone
        simp only [except_bind_eq_ok, Prod.exists, takeField_eq_ok, orMalformedRecord_eq_ok] at h
        obtain ⟨field, cursor, ⟨hlen, rfl⟩, oneTime, hread, h⟩ := h
        cases h
        refine ⟨some field, fun _ hbs => (by cases hbs; exact hlen), ?_, ?_⟩
        · rw [Option.map_some, hread, Option.map_some]
        · rw [hone, List.append_nil]
          rfl
      · cases h
  · rintro ⟨oneTime, hlen, hr, rfl⟩
    cases oneTime with
    | none =>
      cases r with
      | none => exact ⟨0, [], rfl, rfl⟩
      | some r => cases hr
    | some field =>
      cases r with
      | none => cases hr
      | some r =>
        refine ⟨1, putField field, rfl, ?_⟩
        rw [takeOneTime, if_neg (by decide), if_pos rfl]
        simp only [except_bind_eq_ok, Prod.exists, takeField_eq_ok, orMalformedRecord_eq_ok]
        exact ⟨field, [], ⟨hlen field rfl, (List.append_nil _).symm⟩, r, Option.some.inj hr, rfl⟩

/-- **`decode_bundle` succeeds on frames and on nothing else.** -/
theorem decodeBundle_eq_ok {value : Bytes} {b : PreKeyBundle} :
    decodeBundle D value = .ok b ↔ Framed D.identityDecode D value b := by
  simp only [decodeBundle, except_bind_eq_ok, Prod.exists, takeField_eq_ok, orMalformedRecord_eq_ok]
  constructor
  · rintro ⟨identity, c1, ⟨l1, rfl⟩, identityKey, hid, signed, c2, ⟨l2, rfl⟩, signedPreKey, hsigned, h⟩
    cases c2 with
    | nil => cases h
    | cons flag cursor =>
      simp only [except_bind_eq_ok, Prod.exists] at h
      obtain ⟨oneTimePreKey, rest, htail, h⟩ := h
      split at h
      · cases h
      · rename_i hend
        cases h
        obtain rfl : rest = [] := Decidable.not_not.mp hend
        obtain ⟨oneTime, l3, hone, htail⟩ := takeOneTime_eq_ok.mp ⟨flag, cursor, rfl, htail⟩
        refine ⟨identity, signed, oneTime, ?_, ⟨l1, l2, l3⟩, hid, hsigned, hone⟩
        rw [htail, bundleFrame, putField, putField, List.append_assoc]
  · rintro ⟨identity, signed, oneTime, rfl, ⟨l1, l2, l3⟩, hid, hsigned, hone⟩
    obtain ⟨flag, rest, htail, h⟩ := takeOneTime_eq_ok.mpr ⟨oneTime, l3, hone, rfl⟩
    refine ⟨identity, putField signed ++ frameTail oneTime, ⟨l1, ?_⟩, b.identityKey, hid, signed,
      frameTail oneTime, ⟨l2, rfl⟩, b.signedPreKey, hsigned, ?_⟩
    · rw [bundleFrame, putField, putField, List.append_assoc]
    · rw [htail]
      simp only [except_bind_eq_ok, Prod.exists]
      refine ⟨b.oneTimePreKey, [], h, ?_⟩
      rw [if_neg (fun hne => hne rfl)]

/-- **A record is accepted exactly when** it is a frame of the bundle's components, nothing more, the
    key it was looked up under is the bundle's serialised identity key, and the signed prekey's
    signature verifies.  A record that decodes to a bundle of another identity is answered with
    `IdentityKeyMismatch`, whatever its signature. -/
theorem dht_record_accepted_iff (L : Libsignal) (D : RecordReaders) (S : Signatures)
    (key value : Bytes) (b : PreKeyBundle) :
    (decodeAndVerifyBundle L D S key value = .ok b ↔
      Framed D.identityDecode D value b ∧ key = L.serializeIdentity b.identityKey ∧
        SignatureVerifies S b) ∧
    (Framed D.identityDecode D value b → key ≠ L.serializeIdentity b.identityKey →
      decodeAndVerifyBundle L D S key value = .error .identityKeyMismatch) := by
  rw [← decodeBundle_eq_ok, ← verifyPreKeyBundle_eq_ok, decodeAndVerifyBundle]
  cases hdec : decodeBundle D value with
  | error e => simp
  | ok b' =>
    dsimp only
    refine ⟨?_, ?_⟩
    · by_cases hkey : key = L.serializeIdentity b'.identityKey
      · rw [if_neg (fun hne => hne hkey)]
        cases hver : verifyPreKeyBundle S b' with
        | error e =>
          constructor
          · intro h
            cases h
          · rintro ⟨hb, -, hok⟩
            rw [← Except.ok.inj hb, hver] at hok
            cases hok
        | ok u =>
          constructor
          · intro h
            cases h
            exact ⟨rfl, hkey, hver⟩
          · rintro ⟨hb, -, -⟩
            exact hb
      · rw [if_pos hkey]
        constructor
        · intro h
          cases h
        · rintro ⟨hb, hkey', -⟩
          rw [← Except.ok.inj hb] at hkey'
          exact absurd hkey' hkey
    · intro hb hkey
      rw [← Except.ok.inj hb] at hkey
      rw [if_pos hkey]

/-! ## Two codecs of one bundle

`PreKeyBundle::to_bytes` and `from_bytes` are a second codec of the same bundles, written in another
crate.  Both write the frame, and both readers succeed on frames only. -/

section

variable {L : Libsignal} {b : PreKeyBundle} {bs : Bytes}

theorem encodeOneTimeField_eq_ok {o : Option PreKeyRecord} :
    encodeOneTimeField L o = .ok bs ↔ oneTimeToBytes L o = .ok bs := by
  cases o with
  | none =>
    rw [encodeOneTimeField, oneTimeToBytes, Except.ok.injEq, Except.ok.injEq]
  | some r =>
    rw [encodeOneTimeField, oneTimeToBytes]
    cases L.serializeOneTime r with
    | error e =>
      constructor <;> intro h <;> cases h
    | ok one =>
      rw [Except.ok.injEq, Except.ok.injEq]
      exact Iff.rfl

theorem encodeBundle_eq_ok : encodeBundle L b = .ok bs ↔ b.toBytes L = .ok bs := by
  rw [encodeBundle, PreKeyBundle.toBytes]
  cases L.serializeSigned b.signedPreKey with
  | error e =>
    constructor <;> intro h <;> cases h
  | ok signed =>
    dsimp only
    cases hone : encodeOneTimeField L b.oneTimePreKey with
    | error e =>
      cases hone' : oneTimeToBytes L b.oneTimePreKey with
      | error e' =>
        constructor <;> intro h <;> cases h
      | ok one =>
        rw [encodeOneTimeField_eq_ok.mpr hone'] at hone
        cases hone
    | ok one =>
      rw [encodeOneTimeField_eq_ok.mp hone]
      rw [Except.ok.injEq, Except.ok.injEq, List.append_assoc]
      exact Iff.rfl

/-- What is written for a one-time prekey is the end of a frame. -/
theorem oneTimeToBytes_framed {o : Option PreKeyRecord} (hinv : D.Inverts L)
    (hfits : ∀ r, o = some r → ∃ bs, L.serializeOneTime r = .ok bs ∧ bs.length < 2 ^ 32) :
    ∃ oneTime : Option Bytes, oneTimeToBytes L o = .ok (frameTail oneTime) ∧
      (∀ bs, oneTime = some bs → bs.length < 2 ^ 32) ∧
      oneTime.map D.deserializeOneTime = o.map some := by
  cases o with
  | none => exact ⟨none, rfl, fun _ hbs => (by cases hbs), rfl⟩
  | some r =>
    obtain ⟨bs, hbs, hlen⟩ := hfits r rfl
    refine ⟨some bs, ?_, fun _ h => (by cases h; exact hlen), ?_⟩
    · rw [oneTimeToBytes, hbs]
      rfl
    · rw [Option.map_some, hinv.oneTime r bs hbs, Option.map_some]

/-- **What is written is a frame of the bundle.** -/
theorem toBytes_framed (hinv : D.Inverts L) (hfits : L.Fits b)
    (hid : (L.serializeIdentity b.identityKey).length < 2 ^ 32) :
    ∃ bs, b.toBytes L = .ok bs ∧ Framed D.identityTryFrom D bs b := by
  obtain ⟨signed, hsigned, hlen⟩ := hfits.signed
  obtain ⟨oneTime, hone, hlens, hread⟩ := oneTimeToBytes_framed hinv hfits.oneTime
  refine ⟨bundleFrame (L.serializeIdentity b.identityKey) signed oneTime, ?_, _, _, _, rfl,
    ⟨hid, hlen, hlens⟩, hinv.identity _, hinv.signed _ _ hsigned, hread⟩
  rw [PreKeyBundle.toBytes, hsigned, hone]
  rfl

/-- A frame fits a 64-bit `usize`. -/
theorem length_lt_of_framed {readIdentity : Bytes → Option Bytes} (h : Framed readIdentity D bs b) :
    bs.length < 2 ^ 64 := by
  obtain ⟨identity, signed, oneTime, rfl, ⟨l1, l2, l3⟩, -⟩ := h
  have htail : (frameTail oneTime).length < 2 ^ 33 := by
    cases oneTime with
    | none => decide
    | some one =>
      have hlen := l3 one rfl
      simp only [frameTail, withLength, List.length_append, List.length_cons, List.length_nil,
        length_toBeBytes]
      omega
  simp only [bundleFrame, withLength, List.length_append, length_toBeBytes]
  omega

/-- **The two codecs agree**: they write the same bytes and fail on the same bundles; they accept the
    same byte strings, with the same bundle; and each reads back what either has written. -/
theorem bundle_codecs_agree (L : Libsignal) (D : RecordReaders) (a : Arch)
    (hdecode : ∀ bs, D.identityDecode bs = D.identityTryFrom bs) (hinv : D.Inverts L) :
    (∀ (b : PreKeyBundle) (bs : Bytes), encodeBundle L b = .ok bs ↔ b.toBytes L = .ok bs) ∧
    (∀ (v : Bytes) (b : PreKeyBundle), v.length ≤ a.isizeMax →
      (decodeBundle D v = .ok b ↔ PreKeyBundle.fromBytes D a v = .ok b)) ∧
    (∀ b : PreKeyBundle, L.Fits b → (L.serializeIdentity b.identityKey).length < 2 ^ 32 →
      ∃ bs, encodeBundle L b = .ok bs ∧ b.toBytes L = .ok bs ∧ decodeBundle D bs = .ok b ∧
        (a.bits = 64 ∨ bs.length ≤ a.isizeMax → PreKeyBundle.fromBytes D a bs = .ok b)) := by
  have hsame : D.identityDecode = D.identityTryFrom := funext hdecode
  refine ⟨fun b bs => encodeBundle_eq_ok, ?_, ?_⟩
  · intro v b hv
    rw [decodeBundle_eq_ok, fromBytes_eq_ok (Arch.lt_of_le_isizeMax hv), hsame]
  · intro b hfits hid
    obtain ⟨bs, hbs, hframed⟩ := toBytes_framed hinv hfits hid
    refine ⟨bs, encodeBundle_eq_ok.mpr hbs, hbs, ?_, ?_⟩
    · rw [decodeBundle_eq_ok, hsame]
      exact hframed
    · intro hroom
      have ha : bs.length < 2 ^ a.bits := by
        rcases hroom with h64 | hle
        · rw [h64]
          exact length_lt_of_framed hframed
        · exact Arch.lt_of_le_isizeMax hle
      exact (fromBytes_eq_ok ha).mpr hframed

end

/-! ## Two bundles -/

/-- A bundle with the given private half of its signed prekey. -/
def sampleBundle (privateKey : Bytes) : PreKeyBundle where
  identityKey := List.replicate 32 7
  signedPreKey :=
    { id := 1, publicKey := 5 :: List.replicate 32 9, privateKey := privateKey
      signature := List.replicate 64 3, timestamp := 1700000000000 }
  oneTimePreKey := none

theorem sampleBundle_fits {priv : Bytes}
    (h : priv = List.replicate 32 64 ∨ priv = List.replicate 32 72) :
    protobuf.Fits (sampleBundle priv) where
  signed := ⟨_, rfl, by rcases h with rfl | rfl <;> decide +kernel⟩
  oneTime := fun r hr => by cases hr

/-- The theorem at two bundles that differ in one private key. -/
theorem sample_records_differ :
    encodeBundle protobuf (sampleBundle (List.replicate 32 64)) ≠
        encodeBundle protobuf (sampleBundle (List.replicate 32 72)) ∧
      publishedRecord protobuf (sampleBundle (List.replicate 32 64)) ≠
        publishedRecord protobuf (sampleBundle (List.replicate 32 72)) :=
  published_record_reveals_private protobuf protobuf_wholeRecord _ _
    (sampleBundle_fits (.inl rfl)) (sampleBundle_fits (.inr rfl)) (by decide) (by decide)

/-- The records of these bundles are not the same although the bundles agree on everything
    public. -/
theorem record_depends_on_private_key :
    ¬ ∀ b b' : PreKeyBundle, b.PublicEq b' → encodeBundle protobuf b = encodeBundle protobuf b' := by
  intro h
  have heq := h (sampleBundle (List.replicate 32 64)) (sampleBundle (List.replicate 32 72)) (by decide)
  exact absurd heq (by decide +kernel)

/-- The readers of the storage encoding: each takes exactly the encodings, and gives what was
    encoded. -/
noncomputable def protobufReaders : RecordReaders where
  identityTryFrom := Function.partialInv protobuf.serializeIdentity
  identityDecode := Function.partialInv protobuf.serializeIdentity
  deserializeSigned := Function.partialInv encodeSigned
  deserializeOneTime := Function.partialInv encodeOneTime

theorem protobufReaders_inverts : protobufReaders.Inverts protobuf where
  identity := by
    intro key
    have hinj : Function.Injective protobuf.serializeIdentity := fun _ _ h => (List.cons.inj h).2
    exact Function.partialInv_left hinj key
  signed := by
    intro r bs h
    cases h
    exact Function.partialInv_left encodeSigned_injective r
  oneTime := by
    intro r bs h
    cases h
    exact Function.partialInv_left encodeOneTime_injective r

/-- Both codecs read back what they write for a bundle. -/
theorem sample_bundle_both_codecs :
    protobuf.Fits (sampleBundle (List.replicate 32 64)) ∧
      ∃ bs, encodeBundle protobuf (sampleBundle (List.replicate 32 64)) = .ok bs ∧
        (sampleBundle (List.replicate 32 64)).toBytes protobuf = .ok bs ∧
        decodeBundle protobufReaders bs = .ok (sampleBundle (List.replicate 32 64)) ∧
        ((Arch.mk 64 true).bits = 64 ∨ bs.length ≤ (Arch.mk 64 true).isizeMax →
          PreKeyBundle.fromBytes protobufReaders ⟨64, true⟩ bs =
            .ok (sampleBundle (List.replicate 32 64))) :=
  ⟨sampleBundle_fits (.inl rfl),
    (bundle_codecs_agree protobuf protobufReaders ⟨64, true⟩ (fun _ => rfl)
      protobufReaders_inverts).2.2 _ (sampleBundle_fits (.inl rfl)) (by decide +kernel)⟩

end E2EMessaging.Transport
