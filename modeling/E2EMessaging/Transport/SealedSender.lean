/-
  TWO WAYS TO SEAL: `seal`/`open` of `core/transport/src/sealed_sender.rs` (ENVELOPES) and
  `PublicIdentityKey::seal`/`IdentityKeyPair::open_sealed` of `core/crypto/src/identity.rs` (IDENTITY
  BLOBS).

  Both agree on a secret with a fresh ephemeral key, derive an AEAD key from it, and write

      ephemeral public key (32) ++ nonce (12) ++ ciphertext and tag

  The steps are the same (`Layer.sealTo`, `Layer.openBlob`).  What keeps the layers apart is the salt of
  the derivation, the length below which a blob is refused, and that an envelope carries 33 bytes of
  sender before its payload.

  1. **Primitives** (`SealSuite`, `Lawful`): agreement is commutative and separates public keys, HKDF is
     injective, and a public key is recovered from its encoding.  An encoding that is NOT the canonical one
     may decode, too, even to the same key.
  2. **The AEAD is ideal** (`IdealAead`): what decrypts is what was encrypted, by one of the calls made so
     far, under that key, nonce and associated data.
  3. **The crux** (`Layer.openBlob_eq_ok_iff`): a blob opens exactly if a call made it, in this layer and
     for this key.  The ephemeral key goes into the derivation and the associated data AS IT STANDS IN THE
     BLOB, so an encoding with the same agreement does not help.
-/
import E2EMessaging.Group.NoPanic

namespace E2EMessaging.Transport

open E2EMessaging.Lib
open E2EMessaging.Group (SealError ephPubLen nonceLen minSealedLen)

/-! ## The primitives -/

/-- What both modules call: libsignal's keys, HKDF-SHA256 and ChaCha20-Poly1305.  `Priv` are private keys,
    `Pub` public keys, `Key` AEAD keys. -/
structure SealSuite (Priv Pub Key : Type) where
  /-- The public half of a key pair. -/
  publicOf : Priv → Pub
  /-- `PublicKey::public_key_bytes`. -/
  publicKeyBytes : Pub → Bytes
  /-- `PublicKey::from_djb_public_key_bytes`. -/
  fromDjbPublicKeyBytes : Bytes → Option Pub
  /-- `IdentityKey::serialize`. -/
  serialize : Pub → Bytes
  /-- `IdentityKey::decode`. -/
  decode : Bytes → Option Pub
  /-- `PrivateKey::calculate_agreement`. -/
  calculateAgreement : Priv → Pub → Option Bytes
  /-- `Hkdf::<Sha256>::new(Some(salt), secret).expand(info, &mut [0u8; 32])`. -/
  expand : Bytes → Bytes → Bytes → Option Key
  /-- `cipher.encrypt(nonce, Payload { msg, aad })`. -/
  encrypt : Key → Bytes → Bytes → Bytes → Option Bytes
  /-- `cipher.decrypt(nonce, Payload { msg, aad })`. -/
  decrypt : Key → Bytes → Bytes → Bytes → Option Bytes

/-- A nonce, `[u8; NONCE_LEN]`. -/
abbrev Nonce := {bs : Bytes // bs.length = nonceLen}

/-- `map_err(|_| e)`. -/
def mapErr {ε α : Type} (e : ε) : Option α → Except ε α
  | some a => .ok a
  | none => .error e

theorem mapErr_eq_ok {ε α : Type} {e : ε} {x : Option α} {a : α} : mapErr e x = .ok a ↔ x = some a := by
  cases x with
  | none => exact ⟨nofun, nofun⟩
  | some b => exact ⟨fun h => congrArg some (Except.ok.inj h), fun h => congrArg Except.ok (Option.some.inj h)⟩

theorem mapErr_bind_eq_ok {ε α β : Type} {e : ε} {x : Option α} {f : α → Except ε β} {b : β} :
    (mapErr e x >>= f) = .ok b ↔ ∃ a, x = some a ∧ f a = .ok b := by
  cases x with
  | none =>
    constructor
    · intro h
      cases h
    · rintro ⟨_, h, _⟩
      cases h
  | some a =>
    constructor
    · exact fun h => ⟨a, rfl, h⟩
    · rintro ⟨_, ha, h⟩
      cases ha
      exact h

variable {Priv Pub Key ε : Type}

/-! ## The steps the layers share -/

/-- What a layer has of its own: its salt, its minimum length and its errors. -/
structure Layer (ε : Type) where
  salt : Bytes
  minLen : Nat
  malformed : ε
  decryptionFailed : ε

/-- Sealing a message on an ephemeral key and a nonce: agreement, derivation, encryption with the
    ephemeral public key as associated data, assembly. -/
def Layer.sealTo (L : Layer ε) (S : SealSuite Priv Pub Key) (eph : Priv) (nonce : Nonce)
    (recipient : Pub) (message : Bytes) : Except ε Bytes := do
  let ephPub := S.publicKeyBytes (S.publicOf eph)
  let shared ← mapErr L.malformed (S.calculateAgreement eph recipient)
  let key ← mapErr L.decryptionFailed (S.expand L.salt shared ephPub)
  let ciphertext ← mapErr L.decryptionFailed (S.encrypt key nonce.val message ephPub)
  .ok (ephPub ++ nonce.val ++ ciphertext)

/-- Opening a blob.  The length check covers the three slices. -/
def Layer.openBlob (L : Layer ε) (S : SealSuite Priv Pub Key) (recipient : Priv) (blob : Bytes) :
    Except ε Bytes :=
  if blob.length < L.minLen then .error L.malformed
  else do
    let ephPub := blob.take ephPubLen
    let nonce := (blob.drop ephPubLen).take nonceLen
    let ciphertext := blob.drop (ephPubLen + nonceLen)
    let eph ← mapErr L.malformed (S.fromDjbPublicKeyBytes ephPub)
    let shared ← mapErr L.malformed (S.calculateAgreement recipient eph)
    let key ← mapErr L.decryptionFailed (S.expand L.salt shared ephPub)
    mapErr L.decryptionFailed (S.decrypt key nonce ciphertext ephPub)

/-! ## Identity blobs -/

/-- `SEAL_HKDF_SALT`, `MIN_SEALED_LEN`, `SealError`. -/
def identitySeal : Layer SealError where
  salt := "IdentitySeal-v1".toList.map fun c => c.toNat.toUInt8
  minLen := minSealedLen
  malformed := .malformed
  decryptionFailed := .decryptionFailed

/-- `PublicIdentityKey::seal`, with the key pair and the nonce that it draws. -/
def sealIdentity (S : SealSuite Priv Pub Key) (eph : Priv) (nonce : Nonce) (publicKey plaintext : Bytes) :
    Except SealError Bytes := do
  let recipient ← mapErr .malformed (S.decode publicKey)
  identitySeal.sealTo S eph nonce recipient plaintext

/-- `IdentityKeyPair::open_sealed`. -/
def openSealed (S : SealSuite Priv Pub Key) (recipient : Priv) (blob : Bytes) : Except SealError Bytes :=
  identitySeal.openBlob S recipient blob

/-! ## Envelopes -/

/-- `SealedSenderError`. -/
inductive SealedSenderError where
  | malformed
  | notForRecipient
  | decryptionFailed
  deriving Repr, DecidableEq

/-- `SENDER_ID_LEN`. -/
def senderIdLen : Nat := 33

/-- `MIN_ENVELOPE_LEN`: ephemeral key, nonce, tag and sender. -/
def minEnvelopeLen : Nat := ephPubLen + nonceLen + 16 + senderIdLen

/-- `HKDF_SALT`, `MIN_ENVELOPE_LEN`, and the two errors the shared steps report. -/
def sealedSender : Layer SealedSenderError where
  salt := "SealedSender-v1".toList.map fun c => c.toNat.toUInt8
  minLen := minEnvelopeLen
  malformed := .malformed
  decryptionFailed := .decryptionFailed

/-- `seal`, with the key pair and the nonce that it draws.  Of the sender it reads the public key. -/
def sealEnvelope (S : SealSuite Priv Pub Key) (eph : Priv) (nonce : Nonce) (sender : Priv)
    (recipient : Pub) (payload : Bytes) : Except SealedSenderError Bytes :=
  sealedSender.sealTo S eph nonce recipient (S.serialize (S.publicOf sender) ++ payload)

/-- `open`: the payload is what follows the sender. -/
def openEnvelope (S : SealSuite Priv Pub Key) (recipient : Priv) (envelope : Bytes) :
    Except SealedSenderError Bytes := do
  let plaintext ← sealedSender.openBlob S recipient envelope
  if plaintext.length < senderIdLen then .error .notForRecipient
  else .ok (plaintext.drop senderIdLen)

/-! ## Laws -/

/-- What the primitives promise.  `limit` is the longest message the cipher takes. -/
structure Lawful (S : SealSuite Priv Pub Key) (limit : Nat) : Prop where
  length_publicKeyBytes : ∀ p, (S.publicKeyBytes p).length = ephPubLen
  fromDjb_publicKeyBytes : ∀ p, S.fromDjbPublicKeyBytes (S.publicKeyBytes p) = some p
  length_serialize : ∀ p, (S.serialize p).length = senderIdLen
  decode_serialize : ∀ p, S.decode (S.serialize p) = some p
  agrees : ∀ a b, ∃ shared, S.calculateAgreement a (S.publicOf b) = some shared
  agree_comm : ∀ a b, S.calculateAgreement a (S.publicOf b) = S.calculateAgreement b (S.publicOf a)
  agree_separates : ∀ e a b, S.calculateAgreement e (S.publicOf a) = S.calculateAgreement e (S.publicOf b) →
    S.publicOf a = S.publicOf b
  expands : ∀ salt secret info, ∃ key, S.expand salt secret info = some key
  expand_injective : ∀ salt secret info salt' secret' info',
    S.expand salt secret info = S.expand salt' secret' info' →
    salt = salt' ∧ secret = secret' ∧ info = info'
  encrypts : ∀ key (nonce : Nonce) message aad,
    (∃ ciphertext, S.encrypt key nonce.val message aad = some ciphertext) ↔ message.length ≤ limit
  length_encrypt : ∀ key nonce message aad ciphertext, S.encrypt key nonce message aad = some ciphertext →
    ciphertext.length = message.length + 16

/-- A message sealed under a salt. -/
structure Sealing (Priv : Type) where
  salt : Bytes
  eph : Priv
  nonce : Nonce
  recipient : Priv
  message : Bytes

/-- The ephemeral public key, as written. -/
def Sealing.ephPub (S : SealSuite Priv Pub Key) (s : Sealing Priv) : Bytes :=
  S.publicKeyBytes (S.publicOf s.eph)

/-- The sealing derived `key` and encrypted its message to `ciphertext`. -/
def Sealing.Made (S : SealSuite Priv Pub Key) (s : Sealing Priv) (key : Key) (ciphertext : Bytes) : Prop :=
  ∃ shared, S.calculateAgreement s.eph (S.publicOf s.recipient) = some shared ∧
    S.expand s.salt shared (s.ephPub S) = some key ∧
    S.encrypt key s.nonce.val s.message (s.ephPub S) = some ciphertext

/-- The bytes the sealing wrote. -/
def Sealing.Wrote (S : SealSuite Priv Pub Key) (s : Sealing Priv) (blob : Bytes) : Prop :=
  ∃ key ciphertext, s.Made S key ciphertext ∧ blob = s.ephPub S ++ s.nonce.val ++ ciphertext

/-- **An ideal AEAD**: it decrypts what one of the sealings encrypted, and nothing else. -/
def IdealAead (S : SealSuite Priv Pub Key) (log : List (Sealing Priv)) : Prop :=
  ∀ key nonce ciphertext aad message, S.decrypt key nonce ciphertext aad = some message ↔
    ∃ s ∈ log, nonce = s.nonce.val ∧ aad = s.ephPub S ∧ message = s.message ∧ s.Made S key ciphertext

/-! ## What opens -/

section Shared

variable {S : SealSuite Priv Pub Key} {limit : Nat} {log : List (Sealing Priv)}

/-- A seal that succeeds wrote the blob of its ephemeral key, nonce and message, under the salt of its layer. -/
theorem Layer.sealTo_eq_ok {L : Layer ε} {eph recipient : Priv} {nonce : Nonce} {message blob : Bytes} :
    L.sealTo S eph nonce (S.publicOf recipient) message = .ok blob ↔
      Sealing.Wrote S ⟨L.salt, eph, nonce, recipient, message⟩ blob := by
  rw [Layer.sealTo]
  simp only [mapErr_bind_eq_ok]
  constructor
  · rintro ⟨shared, hshared, key, hkey, ciphertext, henc, hblob⟩
    exact ⟨key, ciphertext, ⟨shared, hshared, hkey, henc⟩, (Except.ok.inj hblob).symm⟩
  · rintro ⟨key, ciphertext, ⟨shared, hshared, hkey, henc⟩, hblob⟩
    exact ⟨shared, hshared, key, hkey, ciphertext, henc, congrArg Except.ok hblob.symm⟩

/-- What it takes to open a blob, in the order of the checks: a length, an ephemeral key, an agreement, a derived key,
    and the AEAD. -/
theorem Layer.openBlob_eq_ok {L : Layer ε} {recipient : Priv} {blob message : Bytes} :
    L.openBlob S recipient blob = .ok message ↔ L.minLen ≤ blob.length ∧
      ∃ eph shared key, S.fromDjbPublicKeyBytes (blob.take ephPubLen) = some eph ∧
        S.calculateAgreement recipient eph = some shared ∧
        S.expand L.salt shared (blob.take ephPubLen) = some key ∧
        S.decrypt key ((blob.drop ephPubLen).take nonceLen) (blob.drop (ephPubLen + nonceLen))
          (blob.take ephPubLen) = some message := by
  rw [Layer.openBlob]
  by_cases hlen : blob.length < L.minLen
  · rw [if_pos hlen]
    constructor
    · intro h
      cases h
    · rintro ⟨h, -⟩
      omega
  · rw [if_neg hlen]
    simp only [mapErr_bind_eq_ok, mapErr_eq_ok]
    constructor
    · rintro ⟨eph, heph, shared, hshared, key, hkey, hdec⟩
      exact ⟨by omega, eph, shared, key, heph, hshared, hkey, hdec⟩
    · rintro ⟨-, eph, shared, key, heph, hshared, hkey, hdec⟩
      exact ⟨eph, heph, shared, hshared, key, hkey, hdec⟩

/-- The three parts of what a sealing wrote, by position. -/
theorem Sealing.Wrote.parts (hS : Lawful S limit) {s : Sealing Priv} {blob : Bytes} (h : s.Wrote S blob) :
    blob.take ephPubLen = s.ephPub S ∧ (blob.drop ephPubLen).take nonceLen = s.nonce.val ∧
      blob.length = ephPubLen + nonceLen + 16 + s.message.length ∧
      ∃ key, s.Made S key (blob.drop (ephPubLen + nonceLen)) := by
  obtain ⟨key, ciphertext, hmade, rfl⟩ := h
  have heph : (s.ephPub S).length = ephPubLen := hS.length_publicKeyBytes _
  have hnonce : s.nonce.val.length = nonceLen := s.nonce.property
  have hdrop : (s.ephPub S ++ s.nonce.val ++ ciphertext).drop (ephPubLen + nonceLen) = ciphertext :=
    List.drop_left' (by rw [List.length_append, heph, hnonce])
  obtain ⟨shared, hshared, hkey, henc⟩ := hmade
  have hlen := hS.length_encrypt _ _ _ _ _ henc
  refine ⟨?_, ?_, ?_, key, ?_⟩
  · rw [List.append_assoc]
    exact List.take_left' heph
  · rw [List.append_assoc, List.drop_left' heph]
    exact List.take_left' hnonce
  · simp only [List.length_append, heph, hnonce, hlen]
    omega
  · rw [hdrop]
    exact ⟨shared, hshared, hkey, henc⟩

/-- **What opens in a layer**: the blobs long enough that a sealing under the layer's salt wrote for this
    public key. -/
theorem Layer.openBlob_eq_ok_iff (hS : Lawful S limit) (hideal : IdealAead S log) {L : Layer ε}
    {recipient : Priv} {blob message : Bytes} :
    L.openBlob S recipient blob = .ok message ↔ L.minLen ≤ blob.length ∧
      ∃ s ∈ log, s.salt = L.salt ∧ S.publicOf s.recipient = S.publicOf recipient ∧
        s.message = message ∧ s.Wrote S blob := by
  rw [Layer.openBlob_eq_ok]
  constructor
  · rintro ⟨hlen, eph, shared, key, heph, hshared, hkey, hdec⟩
    obtain ⟨s, hs, hnonce, haad, hmessage, hmade⟩ := (hideal _ _ _ _ _).mp hdec
    -- the associated data is an honest encoding, so the key decoded from it is the sealing's own
    rw [haad, Sealing.ephPub, hS.fromDjb_publicKeyBytes] at heph
    obtain rfl := Option.some.inj heph
    have hmade' := hmade
    obtain ⟨shared', hshared', hkey', -⟩ := hmade
    obtain ⟨hsalt, hsecret, -⟩ := hS.expand_injective _ _ _ _ _ _ (hkey'.trans hkey.symm)
    rw [hsecret, ← hshared, hS.agree_comm recipient s.eph] at hshared'
    refine ⟨hlen, s, hs, hsalt, hS.agree_separates _ _ _ hshared', hmessage.symm, key, _, hmade', ?_⟩
    rw [← haad, ← hnonce, List.append_assoc, ← List.drop_drop, List.take_append_drop,
      List.take_append_drop]
  · rintro ⟨hlen, s, hs, hsalt, hrecipient, rfl, hwrote⟩
    obtain ⟨htake, hnonce, -, key, hmade⟩ := hwrote.parts hS
    have hmade' := hmade
    obtain ⟨shared, hshared, hkey, -⟩ := hmade
    refine ⟨hlen, S.publicOf s.eph, shared, key, ?_, ?_, ?_, ?_⟩
    · rw [htake]
      exact hS.fromDjb_publicKeyBytes _
    · rw [hS.agree_comm, ← hrecipient]
      exact hshared
    · rw [htake, ← hsalt]
      exact hkey
    · exact (hideal _ _ _ _ _).mpr ⟨s, hs, hnonce, htake, rfl, hmade'⟩

end Shared

/-! ## The calls -/

/-- What a call seals: a payload in an envelope, or a plaintext in an identity blob. -/
inductive Content (Priv : Type) where
  | envelope (sender : Priv) (payload : Bytes)
  | identity (plaintext : Bytes)
  deriving Repr, DecidableEq

/-- A call of one of the two `seal`s to a recipient's public key, with its draws. -/
structure Call (Priv : Type) where
  eph : Priv
  nonce : Nonce
  recipient : Priv
  content : Content Priv
  deriving DecidableEq

/-- What the call returns, if it succeeds. -/
def Call.Returned (S : SealSuite Priv Pub Key) (c : Call Priv) (blob : Bytes) : Prop :=
  match c.content with
  | .envelope sender payload =>
    sealEnvelope S c.eph c.nonce sender (S.publicOf c.recipient) payload = .ok blob
  | .identity plaintext =>
    sealIdentity S c.eph c.nonce (S.serialize (S.publicOf c.recipient)) plaintext = .ok blob

/-- The sealing a call makes. -/
def Call.sealing (S : SealSuite Priv Pub Key) (c : Call Priv) : Sealing Priv :=
  match c.content with
  | .envelope sender payload =>
    ⟨sealedSender.salt, c.eph, c.nonce, c.recipient, S.serialize (S.publicOf sender) ++ payload⟩
  | .identity plaintext => ⟨identitySeal.salt, c.eph, c.nonce, c.recipient, plaintext⟩

section Calls

variable {S : SealSuite Priv Pub Key} {limit : Nat} {log : List (Call Priv)}

/-- The two layers derive their keys under different salts; this is all that separates them. -/
theorem salts_ne : sealedSender.salt ≠ identitySeal.salt := by decide

theorem sealing_recipient (c : Call Priv) : (c.sealing S).recipient = c.recipient := by
  rw [Call.sealing]
  split <;> rfl

theorem sealing_ephPub (c : Call Priv) :
    (c.sealing S).ephPub S = S.publicKeyBytes (S.publicOf c.eph) := by
  rw [Call.sealing]
  split <;> rfl

/-- A call returned a blob exactly if it wrote it. -/
theorem returned_iff (hS : Lawful S limit) {c : Call Priv} {blob : Bytes} :
    c.Returned S blob ↔ (c.sealing S).Wrote S blob := by
  obtain ⟨eph, nonce, recipient, content⟩ := c
  cases content with
  | envelope sender payload => exact Layer.sealTo_eq_ok
  | identity plaintext =>
    show sealIdentity S eph nonce _ plaintext = .ok blob ↔ _
    rw [sealIdentity, hS.decode_serialize]
    exact Layer.sealTo_eq_ok

/-- `open` is `openBlob` on an inner frame that holds a sender. -/
theorem openEnvelope_eq_ok {recipient : Priv} {blob payload : Bytes} :
    openEnvelope S recipient blob = .ok payload ↔ ∃ plaintext,
      sealedSender.openBlob S recipient blob = .ok plaintext ∧ senderIdLen ≤ plaintext.length ∧
        plaintext.drop senderIdLen = payload := by
  rw [openEnvelope]
  cases sealedSender.openBlob S recipient blob with
  | error e => exact ⟨nofun, nofun⟩
  | ok plaintext =>
    show (if plaintext.length < senderIdLen then _ else _) = _ ↔ _
    by_cases hlen : plaintext.length < senderIdLen
    · rw [if_pos hlen]
      constructor
      · intro h
        cases h
      · rintro ⟨_, h, hle, -⟩
        cases h
        omega
    · rw [if_neg hlen]
      constructor
      · intro h
        exact ⟨plaintext, rfl, by omega, Except.ok.inj h⟩
      · rintro ⟨_, h, -, hdrop⟩
        cases h
        exact congrArg Except.ok hdrop

/-- **What opens as an envelope**: the envelopes sealed to this public key, with their payload. -/
theorem openEnvelope_eq_ok_iff (hS : Lawful S limit) (hideal : IdealAead S (log.map (Call.sealing S)))
    {recipient : Priv} {blob payload : Bytes} :
    openEnvelope S recipient blob = .ok payload ↔ ∃ c ∈ log, ∃ sender,
      c.content = .envelope sender payload ∧ S.publicOf c.recipient = S.publicOf recipient ∧
        c.Returned S blob := by
  rw [openEnvelope_eq_ok]
  constructor
  · rintro ⟨plaintext, hblob, -, hdrop⟩
    obtain ⟨-, s, hs, hsalt, hrecipient, hmessage, hwrote⟩ :=
      (Layer.openBlob_eq_ok_iff hS hideal).mp hblob
    obtain ⟨c, hc, rfl⟩ := List.mem_map.mp hs
    rw [sealing_recipient] at hrecipient
    have hreturned := (returned_iff hS).mpr hwrote
    obtain ⟨eph, nonce, target, content⟩ := c
    cases content with
    | identity plaintext => exact absurd hsalt.symm salts_ne
    | envelope sender payload' =>
      refine ⟨_, hc, sender, ?_, hrecipient, hreturned⟩
      have hpayload : payload' = payload := by
        rw [← hdrop, ← hmessage]
        exact (List.drop_left' (hS.length_serialize _)).symm
      rw [hpayload]
  · rintro ⟨⟨eph, nonce, target, content⟩, hc, sender, hcontent, hrecipient, hreturned⟩
    obtain rfl : content = .envelope sender payload := hcontent
    have hwrote := (returned_iff hS).mp hreturned
    obtain ⟨-, -, hlen, -⟩ := hwrote.parts hS
    have hprefix := hS.length_serialize (S.publicOf sender)
    have hmessage : (S.serialize (S.publicOf sender) ++ payload).length =
        senderIdLen + payload.length := by
      rw [List.length_append, hprefix]
    refine ⟨S.serialize (S.publicOf sender) ++ payload, ?_, by omega, List.drop_left' hprefix⟩
    refine (Layer.openBlob_eq_ok_iff hS hideal).mpr ⟨?_, _, List.mem_map_of_mem hc, rfl, hrecipient, rfl, hwrote⟩
    show ephPubLen + nonceLen + 16 + senderIdLen ≤ blob.length
    rw [hlen]
    show _ ≤ ephPubLen + nonceLen + 16 + (S.serialize (S.publicOf sender) ++ payload).length
    omega

/-- **What opens as an identity blob**: the blobs sealed to this public key, with their plaintext. -/
theorem openSealed_eq_ok_iff (hS : Lawful S limit) (hideal : IdealAead S (log.map (Call.sealing S)))
    {recipient : Priv} {blob plaintext : Bytes} :
    openSealed S recipient blob = .ok plaintext ↔ ∃ c ∈ log,
      c.content = .identity plaintext ∧ S.publicOf c.recipient = S.publicOf recipient ∧
        c.Returned S blob := by
  rw [openSealed, Layer.openBlob_eq_ok_iff hS hideal]
  constructor
  · rintro ⟨-, s, hs, hsalt, hrecipient, hmessage, hwrote⟩
    obtain ⟨c, hc, rfl⟩ := List.mem_map.mp hs
    rw [sealing_recipient] at hrecipient
    have hreturned := (returned_iff hS).mpr hwrote
    obtain ⟨eph, nonce, target, content⟩ := c
    cases content with
    | envelope sender payload => exact absurd hsalt salts_ne
    | identity plaintext' => exact ⟨_, hc, congrArg Content.identity hmessage, hrecipient, hreturned⟩
  · rintro ⟨⟨eph, nonce, target, content⟩, hc, hcontent, hrecipient, hreturned⟩
    obtain rfl : content = .identity plaintext := hcontent
    have hwrote := (returned_iff hS).mp hreturned
    obtain ⟨-, -, hlen, -⟩ := hwrote.parts hS
    refine ⟨?_, _, List.mem_map_of_mem hc, rfl, hrecipient, rfl, hwrote⟩
    show ephPubLen + nonceLen + 16 ≤ blob.length
    omega

/-- Two calls with different ephemeral keys do not return the same bytes. -/
theorem ephPub_eq_of_returned (hS : Lawful S limit) {c c' : Call Priv} {blob : Bytes}
    (h : c.Returned S blob) (h' : c'.Returned S blob) :
    S.publicKeyBytes (S.publicOf c.eph) = S.publicKeyBytes (S.publicOf c'.eph) := by
  rw [← sealing_ephPub (S := S) c, ← sealing_ephPub (S := S) c',
    ← (((returned_iff hS).mp h).parts hS).1, ← (((returned_iff hS).mp h').parts hS).1]

/-- **What a call returned, opened as an envelope**, where no other call has its ephemeral key. -/
theorem openEnvelope_own_iff (hS : Lawful S limit) (hideal : IdealAead S (log.map (Call.sealing S)))
    (hfresh : ∀ c ∈ log, ∀ c' ∈ log,
      S.publicKeyBytes (S.publicOf c.eph) = S.publicKeyBytes (S.publicOf c'.eph) → c = c')
    {c : Call Priv} (hc : c ∈ log) {blob : Bytes} (hown : c.Returned S blob) {r : Priv} {payload : Bytes} :
    openEnvelope S r blob = .ok payload ↔
      (∃ sender, c.content = .envelope sender payload) ∧ S.publicOf c.recipient = S.publicOf r := by
  rw [openEnvelope_eq_ok_iff hS hideal]
  constructor
  · rintro ⟨c', hc', sender, hcontent, hrecipient, hreturned⟩
    obtain rfl := hfresh c' hc' c hc (ephPub_eq_of_returned hS hreturned hown)
    exact ⟨⟨sender, hcontent⟩, hrecipient⟩
  · rintro ⟨⟨sender, hcontent⟩, hrecipient⟩
    exact ⟨c, hc, sender, hcontent, hrecipient, hown⟩

/-- The same, opened as an identity blob. -/
theorem openSealed_own_iff (hS : Lawful S limit) (hideal : IdealAead S (log.map (Call.sealing S)))
    (hfresh : ∀ c ∈ log, ∀ c' ∈ log,
      S.publicKeyBytes (S.publicOf c.eph) = S.publicKeyBytes (S.publicOf c'.eph) → c = c')
    {c : Call Priv} (hc : c ∈ log) {blob : Bytes} (hown : c.Returned S blob) {r : Priv}
    {plaintext : Bytes} :
    openSealed S r blob = .ok plaintext ↔
      c.content = .identity plaintext ∧ S.publicOf c.recipient = S.publicOf r := by
  rw [openSealed_eq_ok_iff hS hideal]
  constructor
  · rintro ⟨c', hc', hcontent, hrecipient, hreturned⟩
    obtain rfl := hfresh c' hc' c hc (ephPub_eq_of_returned hS hreturned hown)
    exact ⟨hcontent, hrecipient⟩
  · rintro ⟨hcontent, hrecipient⟩
    exact ⟨c, hc, hcontent, hrecipient, hown⟩

/-- Sealing fails only for messages longer than the AEAD takes. -/
theorem exists_sealTo_iff (hS : Lawful S limit) (L : Layer ε) (eph : Priv) (nonce : Nonce)
    (recipient : Priv) (message : Bytes) :
    (∃ blob, L.sealTo S eph nonce (S.publicOf recipient) message = .ok blob) ↔
      message.length ≤ limit := by
  simp only [Layer.sealTo_eq_ok]
  constructor
  · rintro ⟨-, key, ciphertext, ⟨-, -, -, henc⟩, -⟩
    exact (hS.encrypts _ _ _ _).mp ⟨ciphertext, henc⟩
  · intro hle
    obtain ⟨shared, hshared⟩ := hS.agrees eph recipient
    obtain ⟨key, hkey⟩ := hS.expands L.salt shared (S.publicKeyBytes (S.publicOf eph))
    obtain ⟨ciphertext, henc⟩ :=
      (hS.encrypts key nonce message (S.publicKeyBytes (S.publicOf eph))).mpr hle
    exact ⟨_, key, ciphertext, ⟨shared, hshared, hkey, henc⟩, rfl⟩

end Calls

/-- Opening failed. -/
def Fails {α : Type} (x : Except ε α) : Prop := ∃ e, x = .error e

theorem fails_iff {α : Type} {x : Except ε α} : Fails x ↔ ∀ a, x ≠ .ok a := by
  cases x with
  | error e =>
    constructor
    · intro _ a h
      cases h
    · intro _
      exact ⟨e, rfl⟩
  | ok a =>
    constructor
    · rintro ⟨_, h⟩
      cases h
    · intro h
      exact absurd rfl (h a)

/-- **Sealing is correct and the layers are separate.**  In every log of calls with fresh ephemeral keys:
    what a call returned opens in its own layer, for the recipient's key and no other, and not in the
    other layer; bytes that no call returned open nowhere; and two envelopes on the same ephemeral key and
    nonce, from any two senders, differ in nothing but the ciphertext. -/
theorem sealing_correct_and_separate (S : SealSuite Priv Pub Key) (limit : Nat) (hS : Lawful S limit)
    (log : List (Call Priv)) (hideal : IdealAead S (log.map (Call.sealing S)))
    (hfresh : ∀ c ∈ log, ∀ c' ∈ log,
      S.publicKeyBytes (S.publicOf c.eph) = S.publicKeyBytes (S.publicOf c'.eph) → c = c') :
    (∀ eph nonce recipient sender payload, ⟨eph, nonce, recipient, .envelope sender payload⟩ ∈ log →
      ∀ envelope, sealEnvelope S eph nonce sender (S.publicOf recipient) payload = .ok envelope →
        (∀ r, S.publicOf r = S.publicOf recipient → openEnvelope S r envelope = .ok payload) ∧
        (∀ r, S.publicOf r ≠ S.publicOf recipient → Fails (openEnvelope S r envelope)) ∧
        ∀ r, Fails (openSealed S r envelope)) ∧
    (∀ eph nonce recipient plaintext, ⟨eph, nonce, recipient, .identity plaintext⟩ ∈ log →
      ∀ blob, sealIdentity S eph nonce (S.serialize (S.publicOf recipient)) plaintext = .ok blob →
        (∀ r, S.publicOf r = S.publicOf recipient → openSealed S r blob = .ok plaintext) ∧
        (∀ r, S.publicOf r ≠ S.publicOf recipient → Fails (openSealed S r blob)) ∧
        ∀ r, Fails (openEnvelope S r blob)) ∧
    (∀ bytes, (∀ c ∈ log, ¬ c.Returned S bytes) →
      ∀ r, Fails (openEnvelope S r bytes) ∧ Fails (openSealed S r bytes)) ∧
    (∀ eph nonce recipient recipient' sender sender' payload payload' envelope envelope',
      payload.length = payload'.length →
      sealEnvelope S eph nonce sender (S.publicOf recipient) payload = .ok envelope →
      sealEnvelope S eph nonce sender' (S.publicOf recipient') payload' = .ok envelope' →
        envelope.length = envelope'.length ∧
        envelope.take (ephPubLen + nonceLen) = envelope'.take (ephPubLen + nonceLen)) ∧
    ∀ eph nonce recipient,
      (∀ sender payload, (∃ envelope,
        sealEnvelope S eph nonce sender (S.publicOf recipient) payload = .ok envelope) ↔
          senderIdLen + payload.length ≤ limit) ∧
      ∀ plaintext, (∃ blob,
        sealIdentity S eph nonce (S.serialize (S.publicOf recipient)) plaintext = .ok blob) ↔
          plaintext.length ≤ limit := by
  refine ⟨?_, ?_, ?_, ?_, ?_⟩
  · intro eph nonce recipient sender payload hmem envelope hseal
    have hown : Call.Returned S ⟨eph, nonce, recipient, .envelope sender payload⟩ envelope := hseal
    refine ⟨?_, ?_, ?_⟩
    · intro r hr
      exact (openEnvelope_own_iff hS hideal hfresh hmem hown).mpr ⟨⟨sender, rfl⟩, hr.symm⟩
    · intro r hr
      refine fails_iff.mpr fun m hm => ?_
      obtain ⟨-, hrecipient⟩ := (openEnvelope_own_iff hS hideal hfresh hmem hown).mp hm
      exact hr hrecipient.symm
    · intro r
      refine fails_iff.mpr fun m hm => ?_
      obtain ⟨hcontent, -⟩ := (openSealed_own_iff hS hideal hfresh hmem hown).mp hm
      cases hcontent
  · intro eph nonce recipient plaintext hmem blob hseal
    have hown : Call.Returned S ⟨eph, nonce, recipient, .identity plaintext⟩ blob := hseal
    refine ⟨?_, ?_, ?_⟩
    · intro r hr
      exact (openSealed_own_iff hS hideal hfresh hmem hown).mpr ⟨rfl, hr.symm⟩
    · intro r hr
      refine fails_iff.mpr fun m hm => ?_
      obtain ⟨-, hrecipient⟩ := (openSealed_own_iff hS hideal hfresh hmem hown).mp hm
      exact hr hrecipient.symm
    · intro r
      refine fails_iff.mpr fun m hm => ?_
      obtain ⟨⟨sender, hcontent⟩, -⟩ := (openEnvelope_own_iff hS hideal hfresh hmem hown).mp hm
      cases hcontent
  · intro bytes hnone r
    constructor
    · refine fails_iff.mpr fun m hm => ?_
      obtain ⟨c, hc, -, -, -, hreturned⟩ := (openEnvelope_eq_ok_iff hS hideal).mp hm
      exact hnone c hc hreturned
    · refine fails_iff.mpr fun m hm => ?_
      obtain ⟨c, hc, -, -, hreturned⟩ := (openSealed_eq_ok_iff hS hideal).mp hm
      exact hnone c hc hreturned
  · intro eph nonce recipient recipient' sender sender' payload payload' envelope envelope' hlen h h'
    obtain ⟨htake, hnonce, hlength, -⟩ := (Layer.sealTo_eq_ok.mp h).parts hS
    obtain ⟨htake', hnonce', hlength', -⟩ := (Layer.sealTo_eq_ok.mp h').parts hS
    constructor
    · rw [hlength, hlength', List.length_append, List.length_append, hS.length_serialize,
        hS.length_serialize, hlen]
    · rw [List.take_add, List.take_add, htake, htake', hnonce, hnonce']
      rfl
  · intro eph nonce recipient
    constructor
    · intro sender payload
      rw [← hS.length_serialize (S.publicOf sender), ← List.length_append]
      exact exists_sealTo_iff hS sealedSender eph nonce recipient _
    · intro plaintext
      simp only [sealIdentity, hS.decode_serialize]
      exact exists_sealTo_iff hS identitySeal eph nonce recipient plaintext

/-! ## Keys that add up -/

/-- A suite over one-byte keys: agreement is the sum, an AEAD key is what it is derived from, a tag is
    sixteen zeros, and what decrypts is looked up in the log.  An encoding of a public key counts its first
    byte only, so that every key has many. -/
def sumSuite (log : List (Sealing UInt8)) : SealSuite UInt8 UInt8 (Bytes × Bytes × Bytes) where
  publicOf := id
  publicKeyBytes := fun p => p :: List.replicate 31 0
  fromDjbPublicKeyBytes := fun bs => if bs.length = 32 then bs.head? else none
  serialize := fun p => 5 :: p :: List.replicate 31 0
  decode := fun bs => if bs.length = 33 then bs.tail.head? else none
  calculateAgreement := fun a p => some [a + p]
  expand := fun salt secret info => some (salt, secret, info)
  encrypt := fun _ _ message _ => if message.length ≤ 1000 then some (message ++ List.replicate 16 0) else none
  decrypt := fun key nonce ciphertext aad =>
    (log.find? fun s => decide (nonce = s.nonce.val ∧ aad = s.eph :: List.replicate 31 0 ∧
      key = (s.salt, [s.eph + s.recipient], s.eph :: List.replicate 31 0) ∧ s.message.length ≤ 1000 ∧
      ciphertext = s.message ++ List.replicate 16 0)).map Sealing.message

/-- The stand-in keeps the laws: the agreement is a sum, which is symmetric. -/
theorem sumSuite_lawful (log : List (Sealing UInt8)) : Lawful (sumSuite log) 1000 where
  length_publicKeyBytes := fun _ => rfl
  fromDjb_publicKeyBytes := fun _ => rfl
  length_serialize := fun _ => rfl
  decode_serialize := fun _ => rfl
  agrees := fun _ _ => ⟨_, rfl⟩
  agree_comm := by
    intro a b
    show some [a + b] = some [b + a]
    rw [UInt8.add_comm]
  agree_separates := by
    intro e a b h
    have hsum : e + a = e + b := by simpa using (show some [e + a] = some [e + b] from h)
    exact UInt8.add_right_inj e |>.mp hsum
  expands := fun _ _ _ => ⟨_, rfl⟩
  expand_injective := by
    intro salt secret info salt' secret' info' h
    simpa using (show some (salt, secret, info) = some (salt', secret', info') from h)
  encrypts := by
    intro key nonce message aad
    show (∃ c, (if message.length ≤ 1000 then some (message ++ List.replicate 16 0) else none) = some c) ↔ _
    by_cases hle : message.length ≤ 1000
    · simp [hle]
    · simp [hle]
  length_encrypt := by
    intro key nonce message aad ciphertext h
    replace h : (if message.length ≤ 1000 then some (message ++ List.replicate 16 0) else none) =
      some ciphertext := h
    by_cases hle : message.length ≤ 1000
    · rw [if_pos hle] at h
      rw [← Option.some.inj h, List.length_append, List.length_replicate]
    · rw [if_neg hle] at h
      cases h

theorem sumSuite_made {log : List (Sealing UInt8)} {s : Sealing UInt8} {key : Bytes × Bytes × Bytes}
    {ciphertext : Bytes} : s.Made (sumSuite log) key ciphertext ↔
      key = (s.salt, [s.eph + s.recipient], s.eph :: List.replicate 31 0) ∧ s.message.length ≤ 1000 ∧
        ciphertext = s.message ++ List.replicate 16 0 := by
  show (∃ shared, some [s.eph + s.recipient] = some shared ∧
    some (s.salt, shared, s.eph :: List.replicate 31 0) = some key ∧
    (if s.message.length ≤ 1000 then some (s.message ++ List.replicate 16 0) else none) = some ciphertext) ↔ _
  by_cases hle : s.message.length ≤ 1000
  · simp [hle, eq_comm]
  · simp [hle]

theorem sumSuite_ideal (log : List (Sealing UInt8)) : IdealAead (sumSuite log) log := by
  intro key nonce ciphertext aad message
  simp only [sumSuite_made]
  show (List.find? _ log).map Sealing.message = some message ↔ _
  rw [Option.map_eq_some_iff]
  constructor
  · rintro ⟨s, hfind, hmessage⟩
    have hmatch := List.find?_some hfind
    simp only [decide_eq_true_eq] at hmatch
    obtain ⟨hnonce, haad, hmade⟩ := hmatch
    exact ⟨s, List.mem_of_find?_eq_some hfind, hnonce, haad, hmessage.symm, hmade⟩
  · rintro ⟨s, hs, hnonce, haad, hmessage, hmade⟩
    -- the first match may be another sealing, but the ciphertext has only one message in it
    have hsome : (log.find? fun s => decide (nonce = s.nonce.val ∧ aad = s.eph :: List.replicate 31 0 ∧
        key = (s.salt, [s.eph + s.recipient], s.eph :: List.replicate 31 0) ∧ s.message.length ≤ 1000 ∧
        ciphertext = s.message ++ List.replicate 16 0)).isSome :=
      List.find?_isSome.mpr ⟨s, hs, decide_eq_true ⟨hnonce, haad, hmade⟩⟩
    obtain ⟨s', hfind⟩ := Option.isSome_iff_exists.mp hsome
    have hmatch := List.find?_some hfind
    simp only [decide_eq_true_eq] at hmatch
    obtain ⟨-, -, -, -, hcipher⟩ := hmatch
    refine ⟨s', hfind, ?_⟩
    rw [hmessage]
    exact List.append_cancel_right (hcipher.symm.trans hmade.2.2)

/-- An envelope from 3 to 7, and an identity blob to 7. -/
def sampleLog : List (Call UInt8) :=
  [⟨20, ⟨List.replicate 12 1, rfl⟩, 7, .envelope 3 [104, 105]⟩,
   ⟨21, ⟨List.replicate 12 2, rfl⟩, 7, .identity [9]⟩]

/-- The suite in which these two calls were made. -/
def sampleSuite : SealSuite UInt8 UInt8 (Bytes × Bytes × Bytes) :=
  sumSuite (sampleLog.map (Call.sealing (sumSuite [])))

theorem sampleSuite_ideal : IdealAead sampleSuite (sampleLog.map (Call.sealing sampleSuite)) :=
  sumSuite_ideal _

/-- The envelope: ephemeral key, nonce, sender, payload, tag. -/
def sampleEnvelope : Bytes :=
  20 :: List.replicate 31 0 ++ List.replicate 12 1 ++
    (5 :: 3 :: List.replicate 31 0 ++ [104, 105] ++ List.replicate 16 0)

/-- The envelope opens for 7 and not for 8, not as an identity blob, and not with the ephemeral key encoded
    another way. -/
theorem sealing_correct_for_two_calls :
    sealEnvelope sampleSuite 20 ⟨List.replicate 12 1, rfl⟩ 3 7 [104, 105] = .ok sampleEnvelope ∧
      openEnvelope sampleSuite 7 sampleEnvelope = .ok [104, 105] ∧
      Fails (openEnvelope sampleSuite 8 sampleEnvelope) ∧ Fails (openSealed sampleSuite 7 sampleEnvelope) ∧
      sampleSuite.fromDjbPublicKeyBytes ((sampleEnvelope.set 31 1).take 32) = some 20 ∧
      Fails (openEnvelope sampleSuite 7 (sampleEnvelope.set 31 1)) := by
  have hseal : sealEnvelope sampleSuite 20 ⟨List.replicate 12 1, rfl⟩ 3 7 [104, 105] =
    .ok sampleEnvelope := rfl
  obtain ⟨henv, -, hother, -⟩ := sealing_correct_and_separate sampleSuite 1000 (sumSuite_lawful _)
    sampleLog sampleSuite_ideal (by decide)
  obtain ⟨hown, hwrong, hcross⟩ := henv 20 ⟨List.replicate 12 1, rfl⟩ 7 3 [104, 105]
    List.mem_cons_self sampleEnvelope hseal
  refine ⟨hseal, hown 7 rfl, hwrong 8 (by decide), hcross 7, by decide, (hother _ ?_ 7).1⟩
  intro c hc hreturned
  rcases List.mem_cons.mp hc with rfl | hc
  · exact absurd (Except.ok.inj (hseal.symm.trans hreturned)) (by decide)
  · rw [List.mem_singleton] at hc
    subst hc
    revert hreturned
    show ¬ (sealIdentity sampleSuite 21 _ _ _ = _)
    decide

/-! ## The unsealing of group wrappers -/

/-- What a group member's `open_sealed` calls, with its private key. -/
def primsOf (S : SealSuite Priv Pub Bytes) (recipient : Priv) : Group.SealPrims where
  agree := fun ephPub => do
    let eph ← mapErr .malformed (S.fromDjbPublicKeyBytes ephPub)
    mapErr .malformed (S.calculateAgreement recipient eph)
  expand := fun shared ephPub => mapErr .decryptionFailed (S.expand identitySeal.salt shared ephPub)
  decrypt := fun key nonce ephPub ciphertext =>
    mapErr .decryptionFailed (S.decrypt key nonce ciphertext ephPub)

/-- **The `open_sealed` of group decryption is this one**: its slices are in range and do not panic. -/
theorem group_openSealed_eq (S : SealSuite Priv Pub Bytes) (recipient : Priv) (blob : Bytes) :
    Group.openSealed (primsOf S recipient) blob = .ofExcept (openSealed S recipient blob) := by
  have h1 : ephPubLen = 32 := rfl
  have h2 : nonceLen = 12 := rfl
  have h3 : minSealedLen = 60 := rfl
  rw [Group.openSealed, openSealed, Layer.openBlob]
  by_cases hlen : blob.length < minSealedLen
  · rw [if_pos hlen, if_pos (show blob.length < identitySeal.minLen from hlen)]
    rfl
  · rw [if_neg hlen, if_neg (show ¬ blob.length < identitySeal.minLen from hlen)]
    rw [slice_in_range (by omega) (by omega), Outcome.ok_bind, slice_in_range (by omega) (by omega),
      Outcome.ok_bind, slice_in_range (by omega) (by omega), Outcome.ok_bind]
    have hnonce : ¬ ((blob.drop ephPubLen).take nonceLen).length ≠ nonceLen := by
      rw [List.length_take, List.length_drop]
      omega
    have hrest : (blob.drop (ephPubLen + nonceLen)).take (blob.length - (ephPubLen + nonceLen)) =
        blob.drop (ephPubLen + nonceLen) := by
      rw [List.take_of_length_le (by rw [List.length_drop])]
    simp only [hrest, Nat.add_sub_cancel_left]
    simp only [if_neg hnonce, List.drop_zero, Nat.sub_zero]
    show (Outcome.ofExcept ((mapErr SealError.malformed (S.fromDjbPublicKeyBytes (blob.take ephPubLen))) >>=
      fun eph => mapErr SealError.malformed (S.calculateAgreement recipient eph)) >>= _) = _
    cases S.fromDjbPublicKeyBytes (blob.take ephPubLen) with
    | none => rfl
    | some eph =>
      show (Outcome.ofExcept (mapErr _ (S.calculateAgreement recipient eph)) >>= _) =
        Outcome.ofExcept (mapErr _ (S.calculateAgreement recipient eph) >>= _)
      cases S.calculateAgreement recipient eph with
      | none => rfl
      | some shared =>
        show (Outcome.ofExcept (mapErr _ (S.expand identitySeal.salt shared (blob.take ephPubLen))) >>= _) =
          Outcome.ofExcept (mapErr _ (S.expand identitySeal.salt shared (blob.take ephPubLen)) >>= _)
        cases S.expand identitySeal.salt shared (blob.take ephPubLen) with
        | none => rfl
        | some key => rfl

end E2EMessaging.Transport
