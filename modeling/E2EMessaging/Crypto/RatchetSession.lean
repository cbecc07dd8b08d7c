/-
  THE DOUBLE-RATCHET SESSION FACADE (`core/crypto/src/ratchet_session.rs`).

  A session wraps a libsignal store.  Peers are addressed by the HASH OF THEIR IDENTITY KEY, and an
  envelope carries the sender's hash, a type tag and libsignal's ciphertext:

      sender identity_hash (32 bytes) ‖ tag (1 = PreKey, 2 = Ciphertext) ‖ ciphertext

  libsignal trusts an identity key on first use, so before it sees a message the facade checks that
  the declared hash is that of the key the message carries, or of the key already bound.

  libsignal is a parameter (`Signal`): its parsers, and what its calls do to a store.  What the
  facade relies on is stated as named properties of it; `Signal.BindsCarried` is the one about
  identities.  `identity_binding` is what follows for every sequence of calls on arbitrary
  envelopes: an identity bound under the name of a hash is a key with that hash.
-/
import Mathlib.Logic.Function.Basic
import E2EMessaging.Lib.Run
import E2EMessaging.Crypto.PreKey

namespace E2EMessaging.Crypto

open E2EMessaging.Lib

/-! ## libsignal -/

/-- `ProtocolAddress`. -/
structure ProtocolAddress where
  name : String
  deviceId : UInt8
  deriving Repr, DecidableEq

/-- `SignalProtocolError`, as far as the wrappers tell its variants apart. -/
inductive SignalProtocolError where
  | sessionNotFound
  | untrustedIdentity
  | invalidMessage
  | ciphertextMessageTooShort
  | legacyCiphertextVersion
  | unrecognizedCiphertextVersion
  | unrecognizedMessageVersion
  | invalidProtobufEncoding
  | signatureValidationFailed
  | other (message : String)
  deriving Repr, DecidableEq

/-- `KyberPreKeyRecord`. -/
structure KyberPreKeyRecord where
  id : UInt32
  publicKey : Bytes
  secretKey : Bytes
  signature : Bytes
  timestamp : UInt64
  deriving Repr, DecidableEq

/-- `IdentityKeyPair`. -/
structure IdentityKeyPair (Key : Type) where
  identityKey : Key
  privateKey : Bytes
  deriving Repr, DecidableEq

/-- libsignal's `PreKeyBundle`: public halves only. -/
structure SignalBundle (Key : Type) where
  registrationId : UInt32
  deviceId : UInt8
  preKey : Option (UInt32 × Bytes)
  signedPreKeyId : UInt32
  signedPreKeyPublic : Bytes
  signedPreKeySignature : Bytes
  kyberPreKeyId : UInt32
  kyberPreKeyPublic : Bytes
  kyberPreKeySignature : Bytes
  identityKey : Key
  deriving Repr, DecidableEq

/-- The header of a `PreKeySignalMessage`. -/
structure PreKeyMessage (Key : Type) where
  identityKey : Key
  preKeyId : Option UInt32
  baseKey : Bytes
  deriving Repr, DecidableEq

/-- `InMemSignalProtocolStore`. -/
structure SignalStore (Key Sess : Type) where
  sessions : ProtocolAddress → Option Sess
  identities : ProtocolAddress → Option Key
  preKeys : UInt32 → Option PreKeyRecord
  signedPreKeys : UInt32 → Option SignedPreKeyRecord
  kyberPreKeys : UInt32 → Option KyberPreKeyRecord

/-- `InMemSignalProtocolStore::new`. -/
def SignalStore.new {Key Sess : Type} : SignalStore Key Sess :=
  ⟨fun _ => none, fun _ => none, fun _ => none, fun _ => none, fun _ => none⟩

/-- `CiphertextMessage`, serialised. -/
inductive CiphertextMessage where
  | signalMessage (bytes : Bytes)
  | preKeySignalMessage (bytes : Bytes)
  | senderKeyMessage (bytes : Bytes)
  | plaintextContent (bytes : Bytes)
  deriving Repr, DecidableEq

/-- The part of libsignal the facade calls.  `Rand` is what a call draws from the generator and reads
    from the clock. -/
structure Signal (Key Sess Rand : Type) where
  /-- `IdentityKey::serialize`. -/
  serialize : Key → Bytes
  /-- `SignalProtocolError::to_string`. -/
  describe : SignalProtocolError → String
  /-- `PreKeySignalMessage::try_from`. -/
  parsePreKey : Bytes → Except SignalProtocolError (PreKeyMessage Key)
  /-- `SignalMessage::try_from`. -/
  parseSignal : Bytes → Except SignalProtocolError Unit
  /-- A signed prekey and a Kyber prekey with the given id. -/
  generateSigned : IdentityKeyPair Key → UInt32 → Rand → SignedPreKeyRecord
  generateKyber : IdentityKeyPair Key → UInt32 → Rand → Except SignalProtocolError KyberPreKeyRecord
  /-- `KeyPair::generate`, public half first. -/
  generateKeyPair : Rand → Bytes × Bytes
  /-- `process_prekey_bundle` for the owner of the identity: remote and local address. -/
  processPreKeyBundle : IdentityKeyPair Key → SignalBundle Key → ProtocolAddress →
    ProtocolAddress → Rand → SignalStore Key Sess →
    SignalStore Key Sess × Except SignalProtocolError Unit
  /-- `message_encrypt`. -/
  messageEncrypt : IdentityKeyPair Key → Bytes → ProtocolAddress → ProtocolAddress → Rand →
    SignalStore Key Sess → SignalStore Key Sess × Except SignalProtocolError CiphertextMessage
  /-- `message_decrypt` on a `PreKeySignalMessage` with this header. -/
  decryptPreKey : IdentityKeyPair Key → Bytes → PreKeyMessage Key → ProtocolAddress →
    ProtocolAddress → Rand → SignalStore Key Sess →
    SignalStore Key Sess × Except SignalProtocolError Bytes
  /-- `message_decrypt` on a `SignalMessage`. -/
  decryptSignal : IdentityKeyPair Key → Bytes → ProtocolAddress → ProtocolAddress → Rand →
    SignalStore Key Sess → SignalStore Key Sess × Except SignalProtocolError Bytes
  /-- Whether the session was set up by a handshake with this base key. -/
  knows : Sess → Bytes → Bool

/-! ## `double_ratchet.rs` -/

/-- `DoubleRatchetError`. -/
inductive DoubleRatchetError where
  | malformedCiphertext
  | unsupportedCiphertextType
  | noSession
  | untrustedIdentity
  | authenticationFailed
  | protocolError (message : String)
  deriving Repr, DecidableEq

/-- `MessageType`. -/
inductive MessageType where
  | preKey
  | ciphertext
  deriving Repr, DecidableEq

section Facade

variable {Key Sess Rand : Type} (S : Signal Key Sess Rand) (sha256 : Bytes → Bytes)

/-- `DoubleRatchetError::from_protocol`. -/
def fromProtocol : SignalProtocolError → DoubleRatchetError
  | .sessionNotFound => .noSession
  | .untrustedIdentity => .untrustedIdentity
  | .invalidMessage => .authenticationFailed
  | .ciphertextMessageTooShort => .malformedCiphertext
  | .legacyCiphertextVersion => .malformedCiphertext
  | .unrecognizedCiphertextVersion => .malformedCiphertext
  | .unrecognizedMessageVersion => .malformedCiphertext
  | .invalidProtobufEncoding => .malformedCiphertext
  | e => .protocolError (S.describe e)

/-- `SerializedCiphertext::try_from`. -/
def serializedCiphertext : CiphertextMessage → Except DoubleRatchetError (MessageType × Bytes)
  | .signalMessage bytes => .ok (.ciphertext, bytes)
  | .preKeySignalMessage bytes => .ok (.preKey, bytes)
  | .senderKeyMessage _ => .error .unsupportedCiphertextType
  | .plaintextContent _ => .error .unsupportedCiphertextType

/-- `decrypt_message`: parse, then let libsignal decrypt. -/
def decryptMessage (identity : IdentityKeyPair Key) (messageType : MessageType) (raw : Bytes)
    (remote loc : ProtocolAddress) (rand : Rand) (store : SignalStore Key Sess) :
    SignalStore Key Sess × Except DoubleRatchetError Bytes :=
  match messageType with
  | .ciphertext =>
    match S.parseSignal raw with
    | .error e => (store, .error (fromProtocol S e))
    | .ok () =>
      let out := S.decryptSignal identity raw remote loc rand store
      (out.1, out.2.mapError (fromProtocol S))
  | .preKey =>
    match S.parsePreKey raw with
    | .error e => (store, .error (fromProtocol S e))
    | .ok m =>
      let out := S.decryptPreKey identity raw m remote loc rand store
      (out.1, out.2.mapError (fromProtocol S))

/-! ## `ratchet_session.rs` -/

/-- `SessionError`. -/
inductive SessionError where
  | preKey (e : SignalProtocolError)
  | establishment (e : SignalProtocolError)
  | encrypt (e : DoubleRatchetError)
  | decrypt (e : DoubleRatchetError)
  | store (e : SignalProtocolError)
  | malformedEnvelope
  | identityHashMismatch
  | noOneTimePreKey
  | notPublisher
  | notSender
  deriving Repr, DecidableEq

/-- `REGISTRATION_ID`, `DEVICE_ID` and the ids of the prekeys. -/
def registrationId : UInt32 := 1
def deviceId : UInt8 := 1
def signedPreKeyId : UInt32 := 1
def kyberPreKeyId : UInt32 := 1
def oneTimePreKeyId : UInt32 := 1

/-- `ENVELOPE_PREFIX_LEN`. -/
def envelopePrefixLen : Nat := 32 + 1

/-- `type_tag`. -/
def typeTag : MessageType → UInt8
  | .preKey => 1
  | .ciphertext => 2

/-- `message_type_from_tag`. -/
def messageTypeFromTag (tag : UInt8) : Option MessageType :=
  if tag = 1 then some .preKey else if tag = 2 then some .ciphertext else none

/-- `hash_of_identity_key`. -/
def hashOfIdentityKey (key : Key) : Bytes := sha256 (S.serialize key)

/-- `hex_name`. -/
def hexName (hash : Bytes) : String := hexEncode hash

/-- `address_for_hash`. -/
def addressForHash (hash : Bytes) : ProtocolAddress := ⟨hexName hash, deviceId⟩

/-- `DoubleRatchetSession`. -/
structure RatchetSession (Key Sess : Type) where
  identity : IdentityKeyPair Key
  localAddress : ProtocolAddress
  localHash : Bytes
  store : SignalStore Key Sess
  remoteAddress : Option ProtocolAddress
  signedPreKey : Option SignedPreKeyRecord
  kyberPreKey : Option KyberPreKeyRecord
  oneTimePreKey : Option PreKeyRecord

/-- `DoubleRatchetSession::new_bob`. -/
def newBob (identity : IdentityKeyPair Key) (rand : Rand) :
    Except SessionError (RatchetSession Key Sess) :=
  let signed := S.generateSigned identity signedPreKeyId rand
  match S.generateKyber identity kyberPreKeyId rand with
  | .error e => .error (.preKey e)
  | .ok kyber =>
    let keyPair := S.generateKeyPair rand
    -- it is kept twice: in the store, where libsignal consumes it, and in the session
    let oneTime : PreKeyRecord := ⟨oneTimePreKeyId, keyPair.1, keyPair.2⟩
    let empty : SignalStore Key Sess := .new
    let localHash := hashOfIdentityKey S sha256 identity.identityKey
    .ok {
      identity
      localAddress := addressForHash localHash
      localHash
      store := { empty with
        signedPreKeys := Function.update empty.signedPreKeys signedPreKeyId (some signed)
        kyberPreKeys := Function.update empty.kyberPreKeys kyberPreKeyId (some kyber)
        preKeys := Function.update empty.preKeys oneTimePreKeyId (some oneTime) }
      remoteAddress := none
      signedPreKey := some signed
      kyberPreKey := some kyber
      oneTimePreKey := some oneTime }

/-- `build_prekey_bundle`. -/
def buildPreKeyBundle (registrationId : UInt32) (deviceId : UInt8) (identity : IdentityKeyPair Key)
    (signed : SignedPreKeyRecord) (kyber : KyberPreKeyRecord) (oneTime : Option PreKeyRecord) :
    SignalBundle Key where
  registrationId := registrationId
  deviceId := deviceId
  preKey := oneTime.map fun r => (r.id, r.publicKey)
  signedPreKeyId := signed.id
  signedPreKeyPublic := signed.publicKey
  signedPreKeySignature := signed.signature
  kyberPreKeyId := kyber.id
  kyberPreKeyPublic := kyber.publicKey
  kyberPreKeySignature := kyber.signature
  identityKey := identity.identityKey

/-- `DoubleRatchetSession::publish_bundle`. -/
def RatchetSession.publishBundle (s : RatchetSession Key Sess) :
    Except SessionError (SignalBundle Key) :=
  match s.signedPreKey, s.kyberPreKey with
  | some signed, some kyber =>
    .ok (buildPreKeyBundle registrationId deviceId s.identity signed kyber s.oneTimePreKey)
  | _, _ => .error .notPublisher

/-- `DoubleRatchetSession::new_alice`. -/
def newAlice (identity : IdentityKeyPair Key) (bundle : SignalBundle Key) (rand : Rand) :
    Except SessionError (RatchetSession Key Sess) :=
  let remoteHash := hashOfIdentityKey S sha256 bundle.identityKey
  -- the bundle's device, not `DEVICE_ID`
  let remoteAddress : ProtocolAddress := ⟨hexName remoteHash, bundle.deviceId⟩
  let localHash := hashOfIdentityKey S sha256 identity.identityKey
  let localAddress := addressForHash localHash
  match S.processPreKeyBundle identity bundle remoteAddress localAddress rand .new with
  | (_, .error e) => .error (.establishment e)
  | (store, .ok ()) =>
    .ok ⟨identity, localAddress, localHash, store, some remoteAddress, none, none, none⟩

/-- `DoubleRatchetSession::encrypt`. -/
def RatchetSession.encrypt (s : RatchetSession Key Sess) (plaintext : Bytes) (rand : Rand) :
    RatchetSession Key Sess × Except SessionError Bytes :=
  match s.remoteAddress with
  | none => (s, .error .notSender)
  | some remote =>
    match S.messageEncrypt s.identity plaintext remote s.localAddress rand s.store with
    | (store, .error e) => ({ s with store }, .error (.encrypt (fromProtocol S e)))
    | (store, .ok ciphertext) =>
      -- the ratchet has moved on, whether or not the ciphertext is of a kind we send
      match serializedCiphertext ciphertext with
      | .error e => ({ s with store }, .error (.encrypt e))
      | .ok (messageType, bytes) =>
        ({ s with store }, .ok (s.localHash ++ [typeTag messageType] ++ bytes))

/-- The last step of `decrypt`, once the declared hash has been checked. -/
def RatchetSession.decryptChecked (s : RatchetSession Key Sess) (messageType : MessageType)
    (raw senderHash : Bytes) (rand : Rand) :
    RatchetSession Key Sess × Except SessionError Bytes :=
  let out := decryptMessage S s.identity messageType raw (addressForHash senderHash)
    s.localAddress rand s.store
  ({ s with store := out.1 }, out.2.mapError .decrypt)

/-- `DoubleRatchetSession::decrypt`. -/
def RatchetSession.decrypt (s : RatchetSession Key Sess) (envelope : Bytes) (rand : Rand) :
    RatchetSession Key Sess × Except SessionError Bytes :=
  if envelope.length < envelopePrefixLen then (s, .error .malformedEnvelope)
  else
    let senderHash := envelope.take 32
    let raw := envelope.drop envelopePrefixLen
    match messageTypeFromTag (envelope.getD 32 0) with
    | none => (s, .error .malformedEnvelope)
    -- a first message carries its sender's key
    | some .preKey =>
      match S.parsePreKey raw with
      | .error _ => (s, .error .malformedEnvelope)
      | .ok m =>
        if hashOfIdentityKey S sha256 m.identityKey ≠ senderHash then
          (s, .error .identityHashMismatch)
        else s.decryptChecked S .preKey raw senderHash rand
    -- a later one is checked against the key bound to the declared hash
    | some .ciphertext =>
      match s.store.identities (addressForHash senderHash) with
      | none => (s, .error .identityHashMismatch)
      | some key =>
        if hashOfIdentityKey S sha256 key = senderHash then
          s.decryptChecked S .ciphertext raw senderHash rand
        else (s, .error .identityHashMismatch)

/-! ## What libsignal binds -/

/-- libsignal binds at most the identity key that a PreKey message or a bundle carries, at exactly the
    address it is given, and nothing on messages of established sessions. -/
structure Signal.BindsCarried : Prop where
  decryptPreKey : ∀ identity raw m remote loc rand store a, S.parsePreKey raw = .ok m →
    (S.decryptPreKey identity raw m remote loc rand store).1.identities a = store.identities a ∨
      (a = remote ∧ (S.decryptPreKey identity raw m remote loc rand store).1.identities a =
        some m.identityKey)
  decryptSignal : ∀ identity raw remote loc rand store,
    (S.decryptSignal identity raw remote loc rand store).1.identities = store.identities
  establish : ∀ identity bundle remote loc rand store a,
    (S.processPreKeyBundle identity bundle remote loc rand store).1.identities a =
        store.identities a ∨
      (a = remote ∧ (S.processPreKeyBundle identity bundle remote loc rand store).1.identities a =
        some bundle.identityKey)
  encrypt : ∀ identity plaintext remote loc rand store,
    (S.messageEncrypt identity plaintext remote loc rand store).1.identities = store.identities

/-- Under the name of a hash only a key with that hash is bound. -/
def NamedByHash (store : SignalStore Key Sess) : Prop :=
  ∀ hash device key, store.identities ⟨hexName hash, device⟩ = some key →
    hashOfIdentityKey S sha256 key = hash

/-- A session as one of the two constructors returns it. -/
def Built (s : RatchetSession Key Sess) : Prop :=
  (∃ identity rand, newBob S sha256 identity rand = .ok s) ∨
  (∃ identity bundle rand, newAlice S sha256 identity bundle rand = .ok s)

/-- A call on a session. -/
inductive SessionCall (Rand : Type) where
  | encrypt (plaintext : Bytes) (rand : Rand)
  | decrypt (envelope : Bytes) (rand : Rand)

/-- What a call leaves of the session. -/
def RatchetSession.step (s : RatchetSession Key Sess) : SessionCall Rand → RatchetSession Key Sess
  | .encrypt plaintext rand => (s.encrypt S plaintext rand).1
  | .decrypt envelope rand => (s.decrypt S sha256 envelope rand).1

/-- The envelopes `decrypt` turns away, and the error it reports. -/
inductive Rejected (s : RatchetSession Key Sess) (envelope : Bytes) : SessionError → Prop where
  | tooShort (hlen : envelope.length < envelopePrefixLen) : Rejected s envelope .malformedEnvelope
  | unknownTag (hlen : ¬ envelope.length < envelopePrefixLen)
      (htag : messageTypeFromTag (envelope.getD 32 0) = none) :
      Rejected s envelope .malformedEnvelope
  | unparsable (hlen : ¬ envelope.length < envelopePrefixLen)
      (htag : messageTypeFromTag (envelope.getD 32 0) = some .preKey) {e : SignalProtocolError}
      (hparse : S.parsePreKey (envelope.drop envelopePrefixLen) = .error e) :
      Rejected s envelope .malformedEnvelope
  | foreignKey (hlen : ¬ envelope.length < envelopePrefixLen)
      (htag : messageTypeFromTag (envelope.getD 32 0) = some .preKey) {m : PreKeyMessage Key}
      (hparse : S.parsePreKey (envelope.drop envelopePrefixLen) = .ok m)
      (hhash : hashOfIdentityKey S sha256 m.identityKey ≠ envelope.take 32) :
      Rejected s envelope .identityHashMismatch
  | unbound (hlen : ¬ envelope.length < envelopePrefixLen)
      (htag : messageTypeFromTag (envelope.getD 32 0) = some .ciphertext)
      (hbound : ∀ key, s.store.identities (addressForHash (envelope.take 32)) = some key →
        hashOfIdentityKey S sha256 key ≠ envelope.take 32) :
      Rejected s envelope .identityHashMismatch
  | unreadable (hlen : ¬ envelope.length < envelopePrefixLen)
      (htag : messageTypeFromTag (envelope.getD 32 0) = some .ciphertext) {key : Key}
      (hbound : s.store.identities (addressForHash (envelope.take 32)) = some key)
      (hhash : hashOfIdentityKey S sha256 key = envelope.take 32) {e : SignalProtocolError}
      (hparse : S.parseSignal (envelope.drop envelopePrefixLen) = .error e) :
      Rejected s envelope (.decrypt (fromProtocol S e))

variable {S sha256}

/-- **A rejected envelope changes nothing.** -/
theorem decrypt_rejected {s : RatchetSession Key Sess} {envelope : Bytes} {e : SessionError}
    (h : Rejected S sha256 s envelope e) (rand : Rand) :
    s.decrypt S sha256 envelope rand = (s, .error e) := by
  rw [RatchetSession.decrypt]
  cases h with
  | tooShort hlen => rw [if_pos hlen]
  | unknownTag hlen htag => simp only [if_neg hlen, htag]
  | unparsable hlen htag hparse => simp only [if_neg hlen, htag, hparse]
  | foreignKey hlen htag hparse hhash => simp only [if_neg hlen, htag, hparse, if_pos hhash]
  | unbound hlen htag hbound =>
    simp only [if_neg hlen, htag]
    cases hid : s.store.identities (addressForHash (envelope.take 32)) with
    | none => rfl
    | some key =>
      dsimp only
      rw [if_neg (hbound key hid)]
  | unreadable hlen htag hbound hhash hparse =>
    simp only [if_neg hlen, htag, hbound, if_pos hhash, RatchetSession.decryptChecked,
      decryptMessage, hparse]
    rfl

/-- What `decrypt` does to the identities: nothing, or it binds the key that a PreKey message
    carries, under the name of its hash. -/
theorem decrypt_identities (hS : S.BindsCarried) (sha256 : Bytes → Bytes)
    (s : RatchetSession Key Sess) (envelope : Bytes) (rand : Rand) (a : ProtocolAddress) :
    (s.decrypt S sha256 envelope rand).1.store.identities a = s.store.identities a ∨
      ∃ key, a = addressForHash (hashOfIdentityKey S sha256 key) ∧
        (s.decrypt S sha256 envelope rand).1.store.identities a = some key := by
  rw [RatchetSession.decrypt]
  split
  · exact .inl rfl
  · dsimp only
    cases messageTypeFromTag (envelope.getD 32 0) with
    | none => exact .inl rfl
    | some messageType =>
      cases messageType with
      | preKey =>
        dsimp only
        cases hparse : S.parsePreKey (envelope.drop envelopePrefixLen) with
        | error e => exact .inl rfl
        | ok m =>
          dsimp only
          split
          · exact .inl rfl
          · rename_i hhash
            -- the address libsignal is given is named after the key it is about to bind
            have hhash' := not_not.mp hhash
            simp only [RatchetSession.decryptChecked, decryptMessage, hparse]
            rcases hS.decryptPreKey s.identity _ m (addressForHash (envelope.take 32))
              s.localAddress rand s.store a hparse with hsame | ⟨haddr, hkey⟩
            · exact .inl hsame
            · exact .inr ⟨m.identityKey, by rw [hhash', haddr], hkey⟩
      | ciphertext =>
        dsimp only
        cases s.store.identities (addressForHash (envelope.take 32)) with
        | none => exact .inl rfl
        | some key =>
          dsimp only
          split
          · left
            rw [RatchetSession.decryptChecked]
            dsimp only [decryptMessage]
            cases S.parseSignal (envelope.drop envelopePrefixLen) with
            | error e => rfl
            | ok u => exact congrFun (hS.decryptSignal ..) a
          · exact .inl rfl

/-- `encrypt` leaves the identities alone. -/
theorem encrypt_identities (hS : S.BindsCarried) (s : RatchetSession Key Sess) (plaintext : Bytes)
    (rand : Rand) : (s.encrypt S plaintext rand).1.store.identities = s.store.identities := by
  rw [RatchetSession.encrypt]
  cases s.remoteAddress with
  | none => rfl
  | some remote =>
    dsimp only
    have hsame := hS.encrypt s.identity plaintext remote s.localAddress rand s.store
    rcases hout : S.messageEncrypt s.identity plaintext remote s.localAddress rand s.store with
      ⟨store, e | ciphertext⟩
    · rw [hout] at hsame
      exact hsame
    · rw [hout] at hsame
      dsimp only
      cases serializedCiphertext ciphertext with
      | error e => exact hsame
      | ok out => exact hsame

/-! ## The binding invariant -/

/-- Every call keeps identities under the names of their hashes. -/
theorem NamedByHash.step (hS : S.BindsCarried) {s : RatchetSession Key Sess}
    (hs : NamedByHash S sha256 s.store) (call : SessionCall Rand) :
    NamedByHash S sha256 (s.step S sha256 call).store := by
  intro hash device key hkey
  cases call with
  | encrypt plaintext rand =>
    have hkey' : (s.encrypt S plaintext rand).1.store.identities ⟨hexName hash, device⟩ = some key :=
      hkey
    rw [encrypt_identities hS] at hkey'
    exact hs hash device key hkey'
  | decrypt envelope rand =>
    have hkey' : (s.decrypt S sha256 envelope rand).1.store.identities ⟨hexName hash, device⟩ =
        some key := hkey
    rcases decrypt_identities hS sha256 s envelope rand ⟨hexName hash, device⟩ with
      hsame | ⟨key', haddr, hbound⟩
    · rw [hsame] at hkey'
      exact hs hash device key hkey'
    · -- the name determines the hash
      obtain rfl : key' = key := Option.some.inj (hbound.symm.trans hkey')
      have hname : hexName hash = hexName (hashOfIdentityKey S sha256 key') :=
        (ProtocolAddress.mk.inj haddr).1
      exact (hexEncode_injective hname).symm

/-- Both constructors leave identities under the names of their hashes. -/
theorem NamedByHash.built (hS : S.BindsCarried) {s : RatchetSession Key Sess}
    (h : Built S sha256 s) : NamedByHash S sha256 s.store := by
  rcases h with ⟨identity, rand, hbob⟩ | ⟨identity, bundle, rand, halice⟩
  · rw [newBob] at hbob
    split at hbob
    · cases hbob
    · obtain rfl := Except.ok.inj hbob
      intro hash device key hkey
      cases hkey
  · rw [newAlice] at halice
    split at halice
    · cases halice
    · rename_i store hest
      obtain rfl := Except.ok.inj halice
      intro hash device key hkey
      have hbinds := hS.establish identity bundle
        ⟨hexName (hashOfIdentityKey S sha256 bundle.identityKey), bundle.deviceId⟩
        (addressForHash (hashOfIdentityKey S sha256 identity.identityKey)) rand .new
        ⟨hexName hash, device⟩
      rw [hest] at hbinds
      rcases hbinds with hsame | ⟨haddr, hbound⟩
      · rw [hsame] at hkey
        cases hkey
      · obtain rfl : bundle.identityKey = key := Option.some.inj (hbound.symm.trans hkey)
        exact (hexEncode_injective (ProtocolAddress.mk.inj haddr).1).symm

/-- **Identity binding.**  In every session built by one of the constructors, after any calls on any
    envelopes: an identity bound under the name of a hash is a key with that hash, so the owner of a
    key finds its address free or bound to a key with the same hash; and envelopes that are
    malformed, or whose declared hash is not that of the key they carry or of the key bound, are
    rejected with the whole session unchanged. -/
theorem identity_binding (hS : S.BindsCarried) (s₀ : RatchetSession Key Sess)
    (hbuilt : Built S sha256 s₀) (calls : List (SessionCall Rand)) :
    NamedByHash S sha256 (run (RatchetSession.step S sha256) s₀ calls).store ∧
    (∀ owner, (∀ key, hashOfIdentityKey S sha256 key = hashOfIdentityKey S sha256 owner →
        key = owner) →
      (run (RatchetSession.step S sha256) s₀ calls).store.identities
          (addressForHash (hashOfIdentityKey S sha256 owner)) = none ∨
      (run (RatchetSession.step S sha256) s₀ calls).store.identities
          (addressForHash (hashOfIdentityKey S sha256 owner)) = some owner) ∧
    (∀ envelope e, Rejected S sha256 (run (RatchetSession.step S sha256) s₀ calls) envelope e →
      ∀ rand, (run (RatchetSession.step S sha256) s₀ calls).decrypt S sha256 envelope rand =
        (run (RatchetSession.step S sha256) s₀ calls, .error e)) := by
  have hnamed := run_inv (I := fun s : RatchetSession Key Sess => NamedByHash S sha256 s.store)
    (fun _ call hs => hs.step hS call) (NamedByHash.built hS hbuilt) calls
  refine ⟨hnamed, ?_, fun envelope e hrej rand => decrypt_rejected hrej rand⟩
  intro owner hunique
  cases hid : (run (RatchetSession.step S sha256) s₀ calls).store.identities
      (addressForHash (hashOfIdentityKey S sha256 owner)) with
  | none => exact .inl rfl
  | some key => exact .inr (by rw [hunique key (hnamed _ _ key hid)])

end Facade

/-! ## A stand-in for libsignal -/

/-- The base keys of the handshakes behind a session, and the handshake still to be sent. -/
structure SampleSession where
  baseKeys : List Bytes
  unsent : Option (Option UInt32 × Bytes)
  deriving Repr, DecidableEq

/-- A PreKey message in the clear: key, flag and prekey id, base key, plaintext. -/
def samplePreKeyMessage (key : UInt8) (preKeyId : Option UInt32) (baseKey : UInt8)
    (plaintext : Bytes) : Bytes :=
  key :: (match preKeyId with
    | none => 0 :: toLeBytes 4 0
    | some id => 1 :: toLeBytes 4 id.toNat) ++ baseKey :: plaintext

/-- Handshakes and messages without secrecy: identity keys are bytes, base keys are drawn by the
    caller.  Prekeys, sessions and identities are kept as libsignal keeps them. -/
def sampleSignal : Signal UInt8 SampleSession UInt8 where
  serialize := fun key => [key]
  describe := fun _ => ""
  parsePreKey := fun raw =>
    match raw with
    | key :: flag :: i0 :: i1 :: i2 :: i3 :: baseKey :: _ =>
      .ok ⟨key, if flag = 0 then none else some (UInt32.ofNat (fromLeBytes [i0, i1, i2, i3])),
        [baseKey]⟩
    | _ => .error .invalidProtobufEncoding
  parseSignal := fun raw => if raw = [] then .error .ciphertextMessageTooShort else .ok ()
  generateSigned := fun _ id rand => ⟨id, [rand], [rand], [], 0⟩
  generateKyber := fun _ id rand => .ok ⟨id, [rand], [rand], [], 0⟩
  generateKeyPair := fun rand => ([rand], [rand])
  processPreKeyBundle := fun _ bundle remote _ rand store =>
    ({ store with
      sessions := Function.update store.sessions remote
        (some ⟨[], some (bundle.preKey.map Prod.fst, [rand])⟩)
      identities := Function.update store.identities remote (some bundle.identityKey) }, .ok ())
  messageEncrypt := fun identity plaintext remote _ _ store =>
    (store,
      match store.sessions remote with
      | some ⟨_, some (preKeyId, [baseKey])⟩ =>
        .ok (.preKeySignalMessage
          (samplePreKeyMessage identity.identityKey preKeyId baseKey plaintext))
      | some _ => .ok (.signalMessage plaintext)
      | none => .error .sessionNotFound)
  decryptPreKey := fun _ raw m remote _ _ store =>
    let accepted : SignalStore UInt8 SampleSession := { store with
      sessions := Function.update store.sessions remote
        (some ⟨m.baseKey :: ((store.sessions remote).map SampleSession.baseKeys).getD [], none⟩)
      identities := Function.update store.identities remote (some m.identityKey) }
    if ((store.sessions remote).any fun s => decide (m.baseKey ∈ s.baseKeys)) = true then
      (store, .ok (raw.drop 7))
    else if store.identities remote ≠ none ∧ store.identities remote ≠ some m.identityKey then
      (store, .error .untrustedIdentity)
    else
      match m.preKeyId with
      | none => (accepted, .ok (raw.drop 7))
      | some id =>
        match store.preKeys id with
        | none => (store, .error (.other "missing prekey"))
        | some _ => ({ accepted with preKeys := Function.update store.preKeys id none },
            .ok (raw.drop 7))
  decryptSignal := fun _ raw remote _ _ store =>
    (store, if (store.sessions remote).isSome then .ok raw else .error .sessionNotFound)
  knows := fun s baseKey => decide (baseKey ∈ s.baseKeys)

/-- Thirty-two bytes that tell one-byte strings apart. -/
def sampleHash (bs : Bytes) : Bytes := (bs ++ List.replicate 32 0).take 32

theorem sampleSignal_bindsCarried : sampleSignal.BindsCarried where
  decryptPreKey := by
    intro identity raw m remote loc rand store a _
    simp only [sampleSignal]
    split
    · exact .inl rfl
    · split
      · exact .inl rfl
      · by_cases ha : a = remote
        · subst ha
          cases m.preKeyId with
          | none => exact .inr ⟨rfl, Function.update_self ..⟩
          | some id =>
            dsimp only
            cases store.preKeys id with
            | none => exact .inl rfl
            | some r => exact .inr ⟨rfl, Function.update_self ..⟩
        · left
          cases m.preKeyId with
          | none => exact Function.update_of_ne ha ..
          | some id =>
            dsimp only
            cases store.preKeys id with
            | none => rfl
            | some r => exact Function.update_of_ne ha ..
  decryptSignal := fun _ _ _ _ _ _ => rfl
  establish := by
    intro identity bundle remote loc rand store a
    by_cases ha : a = remote
    · exact .inr ⟨ha, by rw [ha]; exact Function.update_self ..⟩
    · exact .inl (Function.update_of_ne ha ..)
  encrypt := fun _ _ _ _ _ _ => rfl

/-- Mallory (key 9) sends bob a handshake under the hash of key 5, then under her own: the first is
    turned away, the second binds her key under her own name. -/
theorem spoofed_hash_is_turned_away :
    ∃ bob, newBob sampleSignal sampleHash ⟨7, []⟩ 0 = .ok bob ∧
      (bob.decrypt sampleSignal sampleHash
        (sampleHash [5] ++ [1] ++ samplePreKeyMessage 9 (some 1) 3 [104, 105]) 0) =
          (bob, .error .identityHashMismatch) ∧
      NamedByHash sampleSignal sampleHash
        (run (RatchetSession.step sampleSignal sampleHash) bob
          [.decrypt (sampleHash [5] ++ [1] ++ samplePreKeyMessage 9 (some 1) 3 [104, 105]) 0,
            .decrypt (sampleHash [9] ++ [1] ++ samplePreKeyMessage 9 (some 1) 3 [104, 105]) 0]).store := by
  refine ⟨_, rfl, rfl, ?_⟩
  exact (identity_binding sampleSignal_bindsCarried _ (.inl ⟨_, _, rfl⟩) _).1

end E2EMessaging.Crypto
