/-
  PREKEY RECORDS AND BUNDLES (`core/crypto/src/prekey.rs`).

  A `PreKeyBundle` holds an identity key, a signed prekey and possibly a one-time prekey.  The
  prekeys are libsignal's RECORDS, the type a device keeps in its own storage: each carries the
  PRIVATE key next to the public one.  `publicPart` is what a bundle says to somebody who must not
  learn a private key.

  libsignal's serialisation is a parameter (`Libsignal`).  `protobuf` is the encoding of its storage
  messages: proto3, fields in order of their numbers, default values omitted.
-/
import E2EMessaging.Lib.Codec

namespace E2EMessaging.Crypto

open E2EMessaging.Lib

/-! ## Records -/

/-- `SignedPreKeyRecord`. -/
structure SignedPreKeyRecord where
  id : UInt32
  publicKey : Bytes
  privateKey : Bytes
  signature : Bytes
  timestamp : UInt64
  deriving Repr, DecidableEq

/-- `PreKeyRecord`. -/
structure PreKeyRecord where
  id : UInt32
  publicKey : Bytes
  privateKey : Bytes
  deriving Repr, DecidableEq

/-- `PreKeyBundle`; the identity key is public. -/
structure PreKeyBundle where
  identityKey : Bytes
  signedPreKey : SignedPreKeyRecord
  oneTimePreKey : Option PreKeyRecord
  deriving Repr, DecidableEq

/-- The record without its private half. -/
def SignedPreKeyRecord.publicPart (r : SignedPreKeyRecord) : UInt32 × Bytes × Bytes × UInt64 :=
  (r.id, r.publicKey, r.signature, r.timestamp)

/-- The record without its private half. -/
def PreKeyRecord.publicPart (r : PreKeyRecord) : UInt32 × Bytes := (r.id, r.publicKey)

/-- The bundles agree on everything but private halves. -/
def PreKeyBundle.PublicEq (b b' : PreKeyBundle) : Prop :=
  b.identityKey = b'.identityKey ∧
    b.signedPreKey.publicPart = b'.signedPreKey.publicPart ∧
    b.oneTimePreKey.map PreKeyRecord.publicPart = b'.oneTimePreKey.map PreKeyRecord.publicPart

instance (b b' : PreKeyBundle) : Decidable (b.PublicEq b') :=
  inferInstanceAs (Decidable (_ ∧ _ ∧ _))

/-! ## libsignal's serialisation -/

/-- `IdentityKey::serialize`, `SignedPreKeyRecord::serialize`, `PreKeyRecord::serialize`; the error
    is libsignal's, which no caller looks at. -/
structure Libsignal where
  serializeIdentity : Bytes → Bytes
  serializeSigned : SignedPreKeyRecord → Except Unit Bytes
  serializeOneTime : PreKeyRecord → Except Unit Bytes

/-- The records are encoded whole: different records have different encodings. -/
structure Libsignal.WholeRecord (L : Libsignal) : Prop where
  signed : Function.Injective L.serializeSigned
  oneTime : Function.Injective L.serializeOneTime

/-- The prekeys of the bundle serialise, to less than `2^32` bytes each. -/
structure Libsignal.Fits (L : Libsignal) (b : PreKeyBundle) : Prop where
  signed : ∃ bs, L.serializeSigned b.signedPreKey = .ok bs ∧ bs.length < 2 ^ 32
  oneTime : ∀ r, b.oneTimePreKey = some r →
    ∃ bs, L.serializeOneTime r = .ok bs ∧ bs.length < 2 ^ 32

/-! ## The storage messages -/

/-- A `bytes` value. -/
def protoBytes (bs : Bytes) : Bytes := withLength varint bs

/-- A `uint32` value. -/
def protoUint32 (n : UInt32) : Bytes := varint n.toNat

/-- A `fixed64` value. -/
def protoFixed64 (n : UInt64) : Bytes := toLeBytes 8 n.toNat

/-- `SignedPreKeyRecordStructure`. -/
def encodeSigned (r : SignedPreKeyRecord) : Bytes :=
  field 0x08 0 protoUint32 r.id ++ (field 0x12 [] protoBytes r.publicKey ++
    (field 0x1A [] protoBytes r.privateKey ++ (field 0x22 [] protoBytes r.signature ++
      (field 0x29 0 protoFixed64 r.timestamp ++ []))))

/-- `PreKeyRecordStructure`. -/
def encodeOneTime (r : PreKeyRecord) : Bytes :=
  field 0x08 0 protoUint32 r.id ++ (field 0x12 [] protoBytes r.publicKey ++
    (field 0x1A [] protoBytes r.privateKey ++ []))

/-- The storage encoding; an identity key serialises as a type byte and the curve point. -/
def protobuf : Libsignal where
  serializeIdentity := fun key => 0x05 :: key
  serializeSigned := fun r => .ok (encodeSigned r)
  serializeOneTime := fun r => .ok (encodeOneTime r)

theorem selfDelimiting_protoBytes : SelfDelimiting protoBytes :=
  selfDelimiting_withLength selfDelimiting_varint

theorem selfDelimiting_protoUint32 : SelfDelimiting protoUint32 :=
  selfDelimiting_varint.comp (fun _ _ h => UInt32.toNat_inj.mp h)

theorem selfDelimiting_protoFixed64 : SelfDelimiting protoFixed64 := by
  refine selfDelimiting_of_length (w := 8) (fun n => length_toLeBytes 8 _) ?_
  intro n n' h
  exact UInt64.toNat_inj.mp (toLeBytes_inj n.toNat_lt n'.toNat_lt h)

/-- Field after field is cancelled: each is followed by fields with other tags only. -/
theorem encodeOneTime_injective : Function.Injective encodeOneTime := by
  rintro ⟨id, pub, priv⟩ ⟨id', pub', priv'⟩ h
  obtain ⟨rfl, hrest⟩ := field_cancel (by decide) selfDelimiting_protoUint32
    ((StartsIn.nil.field _ _ _ _).field _ _ _ _) ((StartsIn.nil.field _ _ _ _).field _ _ _ _) h
  obtain ⟨rfl, hrest⟩ := field_cancel (by decide) selfDelimiting_protoBytes
    (StartsIn.nil.field _ _ _ _) (StartsIn.nil.field _ _ _ _) hrest
  obtain ⟨rfl, -⟩ := field_cancel (by decide) selfDelimiting_protoBytes .nil .nil hrest
  rfl

theorem encodeSigned_injective : Function.Injective encodeSigned := by
  rintro ⟨id, pub, priv, sig, time⟩ ⟨id', pub', priv', sig', time'⟩ h
  have h5 : ∀ x, StartsIn [0x29] (field 0x29 0 protoFixed64 x ++ []) :=
    fun x => StartsIn.nil.field _ _ _ _
  have h4 : ∀ w x, StartsIn [0x22, 0x29]
      (field 0x22 [] protoBytes w ++ (field 0x29 0 protoFixed64 x ++ [])) :=
    fun w x => (h5 x).field _ _ _ _
  have h3 : ∀ v w x, StartsIn [0x1A, 0x22, 0x29] (field 0x1A [] protoBytes v ++
      (field 0x22 [] protoBytes w ++ (field 0x29 0 protoFixed64 x ++ []))) :=
    fun v w x => (h4 w x).field _ _ _ _
  obtain ⟨rfl, hpub⟩ := field_cancel (by decide) selfDelimiting_protoUint32
    ((h3 priv sig time).field _ _ _ _) ((h3 priv' sig' time').field _ _ _ _) h
  obtain ⟨rfl, hpriv⟩ := field_cancel (by decide) selfDelimiting_protoBytes
    (h3 priv sig time) (h3 priv' sig' time') hpub
  have htag : (0x1A : UInt8) ∉ [0x22, 0x29] := by decide
  obtain ⟨rfl, hsig⟩ := field_cancel htag selfDelimiting_protoBytes
    (h4 sig time) (h4 sig' time') hpriv
  obtain ⟨rfl, htime⟩ := field_cancel (by decide) selfDelimiting_protoBytes
    (h5 time) (h5 time') hsig
  obtain ⟨rfl, -⟩ := field_cancel (by decide) selfDelimiting_protoFixed64 .nil .nil htime
  rfl

/-- The storage encoding does encode the records whole. -/
theorem protobuf_wholeRecord : protobuf.WholeRecord where
  signed := fun _ _ h => encodeSigned_injective (Except.ok.inj h)
  oneTime := fun _ _ h => encodeOneTime_injective (Except.ok.inj h)

end E2EMessaging.Crypto
