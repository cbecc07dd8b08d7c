/-
  ONE-TIME PREKEYS AND REPUBLISHED BUNDLES.

  `new_bob` keeps its one-time prekey twice: in the libsignal store, from which the first successful
  handshake REMOVES it, and in the session itself, from which `publish_bundle` reads and nothing ever
  removes it.  So a session that has answered one sender goes on publishing the prekey it no longer
  has, and no further sender can be answered.

  `publish_fresh_iff`: in a run of publishes, senders established from the bundles, and decrypts of
  any envelopes, bundles name no consumed prekey and first messages decrypt EXACTLY as long as the
  store still has the prekey whenever a bundle is published or a first message arrives.
-/
import E2EMessaging.Crypto.RatchetSession

namespace E2EMessaging.Crypto

open E2EMessaging.Lib

section Republish

variable {Key Sess Rand : Type} (S : Signal Key Sess Rand) (sha256 : Bytes → Bytes)

/-! ## What libsignal does with prekeys -/

/-- No session with the sender was set up by this handshake. -/
def Signal.IsNew (store : SignalStore Key Sess) (remote : ProtocolAddress) (m : PreKeyMessage Key) :
    Prop :=
  ∀ sess, store.sessions remote = some sess → S.knows sess m.baseKey = false

/-- A new handshake that succeeds removes the prekey it names, and fails if the prekey is not there;
    nothing else touches the prekeys. -/
structure Signal.SpendsPreKeys : Prop where
  removes : ∀ identity raw m remote loc rand store id plaintext, S.parsePreKey raw = .ok m →
    m.preKeyId = some id → S.IsNew store remote m →
    (S.decryptPreKey identity raw m remote loc rand store).2 = .ok plaintext →
    (S.decryptPreKey identity raw m remote loc rand store).1.preKeys =
      Function.update store.preKeys id none
  absent : ∀ identity raw m remote loc rand store id, S.parsePreKey raw = .ok m →
    m.preKeyId = some id → S.IsNew store remote m → store.preKeys id = none →
    ∃ e, (S.decryptPreKey identity raw m remote loc rand store).2 = .error e
  keeps : ∀ identity raw m remote loc rand store, S.parsePreKey raw = .ok m →
    (m.preKeyId = none ∨ ¬ S.IsNew store remote m ∨
      ∃ e, (S.decryptPreKey identity raw m remote loc rand store).2 = .error e) →
    (S.decryptPreKey identity raw m remote loc rand store).1.preKeys = store.preKeys
  keepsRecords : ∀ identity raw m remote loc rand store,
    (S.decryptPreKey identity raw m remote loc rand store).1.signedPreKeys = store.signedPreKeys ∧
    (S.decryptPreKey identity raw m remote loc rand store).1.kyberPreKeys = store.kyberPreKeys
  signal : ∀ identity raw remote loc rand store,
    (S.decryptSignal identity raw remote loc rand store).1.preKeys = store.preKeys ∧
    (S.decryptSignal identity raw remote loc rand store).1.signedPreKeys = store.signedPreKeys ∧
    (S.decryptSignal identity raw remote loc rand store).1.kyberPreKeys = store.kyberPreKeys

/-- The envelope is the first message of a sender established from the bundle. -/
def FirstEnvelope (identity : IdentityKeyPair Key) (bundle : SignalBundle Key) (plaintext : Bytes)
    (envelope : Bytes) : Prop :=
  ∃ rand alice rand', newAlice S sha256 identity bundle rand = .ok alice ∧
    (alice.encrypt S plaintext rand').2 = .ok envelope

/-- The handshake works: a first message is a PreKey message that names the sender's identity key and
    the bundle's prekey, and the publisher of the bundle decrypts it as long as it has the prekeys it
    published and the sender's address is not bound to another key. -/
structure Signal.Handshake : Prop where
  message : ∀ identity bundle plaintext envelope,
    FirstEnvelope S sha256 identity bundle plaintext envelope →
    ∃ raw m, envelope = hashOfIdentityKey S sha256 identity.identityKey ++ [typeTag .preKey] ++ raw ∧
      S.parsePreKey raw = .ok m ∧ m.identityKey = identity.identityKey ∧
      m.preKeyId = bundle.preKey.map Prod.fst
  decrypts : ∀ bobIdentity rand₀ bob bundle, newBob S sha256 bobIdentity rand₀ = .ok bob →
    bob.publishBundle = .ok bundle → ∀ identity plaintext envelope,
    FirstEnvelope S sha256 identity bundle plaintext envelope →
    ∀ raw m, envelope = hashOfIdentityKey S sha256 identity.identityKey ++ [typeTag .preKey] ++ raw →
      S.parsePreKey raw = .ok m → ∀ rand store,
      store.signedPreKeys signedPreKeyId = bob.signedPreKey →
      store.kyberPreKeys kyberPreKeyId = bob.kyberPreKey →
      store.preKeys oneTimePreKeyId = bob.oneTimePreKey →
      S.IsNew store (addressForHash (hashOfIdentityKey S sha256 identity.identityKey)) m →
      (store.identities (addressForHash (hashOfIdentityKey S sha256 identity.identityKey)) = none ∨
        store.identities (addressForHash (hashOfIdentityKey S sha256 identity.identityKey)) =
          some identity.identityKey) →
      (S.decryptPreKey bobIdentity raw m
        (addressForHash (hashOfIdentityKey S sha256 identity.identityKey)) bob.localAddress rand
        store).2 = .ok plaintext

/-! ## Runs -/

/-- A receiver with the bundles it has published, the first messages of the senders established from
    them, with their plaintexts, and the prekeys its decrypts have consumed. -/
structure PublishRun (Key Sess : Type) where
  bob : RatchetSession Key Sess
  bundles : List (SignalBundle Key)
  firsts : List (Bytes × Bytes)
  consumed : List UInt32

/-- What can happen next. -/
inductive PublishAction (Key Rand : Type) where
  | publish
  /-- A sender is established from bundle number `k` and encrypts its first message. -/
  | enroll (identity : IdentityKeyPair Key) (k : Nat) (plaintext : Bytes) (rand rand' : Rand)
  | decrypt (envelope : Bytes) (rand : Rand)

/-- The prekey a decrypt has consumed: named by the message, there before and gone after. -/
def spentPreKey (before after : RatchetSession Key Sess) (envelope : Bytes) :
    Except SessionError Bytes → List UInt32
  | .error _ => []
  | .ok _ =>
    match S.parsePreKey (envelope.drop envelopePrefixLen) with
    | .error _ => []
    | .ok m =>
      m.preKeyId.toList.filter fun id =>
        (before.store.preKeys id).isSome && (after.store.preKeys id).isNone

/-- One step. -/
def PublishRun.step (s : PublishRun Key Sess) : PublishAction Key Rand → PublishRun Key Sess
  | .publish =>
    match s.bob.publishBundle with
    | .error _ => s
    | .ok bundle => { s with bundles := s.bundles ++ [bundle] }
  | .enroll identity k plaintext rand rand' =>
    match s.bundles[k]? with
    | none => s
    | some bundle =>
      match newAlice S sha256 identity bundle rand with
      | .error _ => s
      | .ok alice =>
        match (alice.encrypt S plaintext rand').2 with
        | .error _ => s
        | .ok envelope => { s with firsts := s.firsts ++ [(envelope, plaintext)] }
  | .decrypt envelope rand =>
    let out := s.bob.decrypt S sha256 envelope rand
    { s with
      bob := out.1
      consumed := s.consumed ++ spentPreKey S s.bob out.1 envelope out.2 }

/-- A receiver that has not published anything. -/
def PublishRun.start (bob : RatchetSession Key Sess) : PublishRun Key Sess := ⟨bob, [], [], []⟩

/-- The envelope is a first message that has not been decrypted before. -/
def PublishRun.Arrives (s : PublishRun Key Sess) (envelope plaintext : Bytes) : Prop :=
  (envelope, plaintext) ∈ s.firsts ∧
    ∀ m, S.parsePreKey (envelope.drop envelopePrefixLen) = .ok m →
      S.IsNew s.bob.store (addressForHash (envelope.take 32)) m

/-- What each step must do: a bundle names no consumed prekey, a first message decrypts. -/
def PublishesFresh (s : PublishRun Key Sess) : PublishAction Key Rand → Prop
  | .publish => ∀ bundle id pub, s.bob.publishBundle = .ok bundle → bundle.preKey = some (id, pub) →
    id ∉ s.consumed
  | .enroll _ _ _ _ _ => True
  | .decrypt envelope rand => ∀ plaintext, s.Arrives S envelope plaintext →
    (s.bob.decrypt S sha256 envelope rand).2 = .ok plaintext

/-- The store still has the one-time prekey whenever a bundle is published or a first message
    arrives. -/
def PreKeyUnspent (s : PublishRun Key Sess) : PublishAction Key Rand → Prop
  | .publish => s.bob.store.preKeys oneTimePreKeyId ≠ none
  | .enroll _ _ _ _ _ => True
  | .decrypt envelope _ => ∀ plaintext, s.Arrives S envelope plaintext →
    s.bob.store.preKeys oneTimePreKeyId ≠ none

/-! ## What a decrypt does to the prekeys -/

variable {S sha256}

variable (S) in
/-- What a decrypt leaves of a session: the fields of the session itself and the other prekeys are
    kept, and a one-time prekey is gone only if the decrypt succeeded, named it and found it. -/
structure Spends (s : RatchetSession Key Sess) (envelope : Bytes)
    (out : RatchetSession Key Sess × Except SessionError Bytes) : Prop where
  session : out.1 = { s with store := out.1.store }
  signed : out.1.store.signedPreKeys = s.store.signedPreKeys
  kyber : out.1.store.kyberPreKeys = s.store.kyberPreKeys
  preKeys : out.1.store.preKeys = s.store.preKeys ∨
    ∃ m id plaintext, S.parsePreKey (envelope.drop envelopePrefixLen) = .ok m ∧
      m.preKeyId = some id ∧ out.2 = .ok plaintext ∧ s.store.preKeys id ≠ none ∧
      out.1.store.preKeys = Function.update s.store.preKeys id none

theorem Spends.refl (s : RatchetSession Key Sess) (envelope : Bytes)
    (r : Except SessionError Bytes) : Spends S s envelope (s, r) :=
  ⟨rfl, rfl, rfl, .inl rfl⟩

/-- libsignal's part of a decrypt, on a PreKey message. -/
theorem spends_preKey (hS : S.SpendsPreKeys) (s : RatchetSession Key Sess) (envelope : Bytes)
    (senderHash : Bytes) (rand : Rand) {m : PreKeyMessage Key}
    (hparse : S.parsePreKey (envelope.drop envelopePrefixLen) = .ok m) :
    Spends S s envelope
      (s.decryptChecked S .preKey (envelope.drop envelopePrefixLen) senderHash rand) := by
  simp only [RatchetSession.decryptChecked, decryptMessage, hparse]
  generalize hraw : envelope.drop envelopePrefixLen = raw at hparse
  have hrecords := hS.keepsRecords s.identity raw m (addressForHash senderHash) s.localAddress rand
    s.store
  refine ⟨rfl, hrecords.1, hrecords.2, ?_⟩
  have hkeeps := hS.keeps s.identity raw m (addressForHash senderHash) s.localAddress rand s.store
    hparse
  cases hout : (S.decryptPreKey s.identity raw m (addressForHash senderHash) s.localAddress rand
      s.store).2 with
  | error e => exact .inl (hkeeps (.inr (.inr ⟨e, hout⟩)))
  | ok plaintext =>
    by_cases hnew : S.IsNew s.store (addressForHash senderHash) m
    · cases hid : m.preKeyId with
      | none => exact .inl (hkeeps (.inl hid))
      | some id =>
        right
        refine ⟨m, id, plaintext, by rw [hraw]; exact hparse, hid, rfl, ?_, ?_⟩
        · intro habsent
          obtain ⟨e, he⟩ := hS.absent s.identity raw m (addressForHash senderHash) s.localAddress
            rand s.store id hparse hid hnew habsent
          rw [hout] at he
          cases he
        · exact hS.removes s.identity raw m (addressForHash senderHash) s.localAddress rand s.store
            id plaintext hparse hid hnew hout
    · exact .inl (hkeeps (.inr (.inl hnew)))

/-- **What a decrypt does to the prekeys.** -/
theorem decrypt_spends (hS : S.SpendsPreKeys) (s : RatchetSession Key Sess) (envelope : Bytes)
    (rand : Rand) : Spends S s envelope (s.decrypt S sha256 envelope rand) := by
  rw [RatchetSession.decrypt]
  split
  · exact .refl ..
  · dsimp only
    cases messageTypeFromTag (envelope.getD 32 0) with
    | none => exact .refl ..
    | some messageType =>
      cases messageType with
      | preKey =>
        dsimp only
        cases hparse : S.parsePreKey (envelope.drop envelopePrefixLen) with
        | error e => exact .refl ..
        | ok m =>
          dsimp only
          split
          · exact .refl ..
          · exact spends_preKey hS s envelope _ rand hparse
      | ciphertext =>
        dsimp only
        cases s.store.identities (addressForHash (envelope.take 32)) with
        | none => exact .refl ..
        | some key =>
          dsimp only
          split
          · simp only [RatchetSession.decryptChecked, decryptMessage]
            cases S.parseSignal (envelope.drop envelopePrefixLen) with
            | error e => exact .refl ..
            | ok u =>
              have hsig := hS.signal s.identity (envelope.drop envelopePrefixLen)
                (addressForHash (envelope.take 32)) s.localAddress rand s.store
              exact ⟨rfl, hsig.2.1, hsig.2.2, .inl hsig.1⟩
          · exact .refl ..

/-- The parts of an envelope. -/
theorem envelope_parts {hash : Bytes} (hhash : hash.length = 32) (tag : UInt8) (raw : Bytes) :
    ¬ (hash ++ [tag] ++ raw).length < envelopePrefixLen ∧ (hash ++ [tag] ++ raw).take 32 = hash ∧
      (hash ++ [tag] ++ raw).getD 32 0 = tag ∧
      (hash ++ [tag] ++ raw).drop envelopePrefixLen = raw := by
  have hpre : (hash ++ [tag]).length = envelopePrefixLen := by
    rw [List.length_append, hhash]
    rfl
  refine ⟨?_, ?_, ?_, ?_⟩
  · rw [List.length_append, hpre]
    omega
  · rw [List.append_assoc, ← hhash, List.take_left]
  · rw [List.append_assoc, List.getD_eq_getElem?_getD, List.getElem?_append_right (by omega), hhash]
    rfl
  · rw [← hpre, List.drop_left]

/-- A first envelope as `decrypt` reads it. -/
theorem decrypt_first (hlen : ∀ bs, (sha256 bs).length = 32) (s : RatchetSession Key Sess)
    {key : Key} {raw : Bytes} {m : PreKeyMessage Key} (hparse : S.parsePreKey raw = .ok m)
    (hkey : m.identityKey = key) (rand : Rand) :
    s.decrypt S sha256 (hashOfIdentityKey S sha256 key ++ [typeTag .preKey] ++ raw) rand =
      s.decryptChecked S .preKey raw (hashOfIdentityKey S sha256 key) rand := by
  have hhash : (hashOfIdentityKey S sha256 key).length = 32 := hlen (S.serialize key)
  obtain ⟨hlong, htake, htag, hdrop⟩ := envelope_parts hhash (typeTag .preKey) raw
  have htype : messageTypeFromTag (typeTag .preKey) = some .preKey := rfl
  rw [RatchetSession.decrypt]
  simp only [if_neg hlong, htake, htag, hdrop, htype, hparse, hkey, ne_eq, not_true, if_false]

/-! ## What a run keeps -/

variable (S sha256) in
/-- The receiver is the one that was built, with its store; what it has published names its prekeys;
    its one-time prekey is in the store until it is consumed. -/
structure PublishRun.Inv (bob₀ : RatchetSession Key Sess) (s : PublishRun Key Sess) : Prop where
  session : s.bob = { bob₀ with store := s.bob.store }
  signed : s.bob.store.signedPreKeys signedPreKeyId = bob₀.signedPreKey
  kyber : s.bob.store.kyberPreKeys kyberPreKeyId = bob₀.kyberPreKey
  oneTime : s.bob.store.preKeys oneTimePreKeyId = bob₀.oneTimePreKey ∨
    s.bob.store.preKeys oneTimePreKeyId = none
  consumed : oneTimePreKeyId ∈ s.consumed ↔ s.bob.store.preKeys oneTimePreKeyId = none
  named : NamedByHash S sha256 s.bob.store
  bundles : ∀ bundle ∈ s.bundles, bob₀.publishBundle = .ok bundle
  firsts : ∀ envelope plaintext, (envelope, plaintext) ∈ s.firsts →
    ∃ identity bundle, bob₀.publishBundle = .ok bundle ∧
      FirstEnvelope S sha256 identity bundle plaintext envelope

/-- A receiver as `new_bob` returns it. -/
theorem newBob_ok {identity : IdentityKeyPair Key} {rand : Rand} {bob : RatchetSession Key Sess}
    (h : newBob S sha256 identity rand = .ok bob) :
    bob.identity = identity ∧ bob.store.signedPreKeys signedPreKeyId = bob.signedPreKey ∧
      bob.store.kyberPreKeys kyberPreKeyId = bob.kyberPreKey ∧
      bob.store.preKeys oneTimePreKeyId = bob.oneTimePreKey ∧
      (∃ r, bob.oneTimePreKey = some r ∧ r.id = oneTimePreKeyId) ∧
      (bob.signedPreKey.isSome = true ∧ bob.kyberPreKey.isSome = true) := by
  rw [newBob] at h
  split at h
  · cases h
  · obtain rfl := Except.ok.inj h
    exact ⟨rfl, by simp, by simp, by simp, ⟨_, rfl, rfl⟩, rfl, rfl⟩

theorem publishRun_start {identity : IdentityKeyPair Key} {rand : Rand}
    {bob : RatchetSession Key Sess} (hbinds : S.BindsCarried)
    (h : newBob S sha256 identity rand = .ok bob) :
    PublishRun.Inv S sha256 bob (PublishRun.start bob) := by
  obtain ⟨-, hsigned, hkyber, honeTime, ⟨r, hr, -⟩, -⟩ := newBob_ok h
  refine ⟨rfl, hsigned, hkyber, .inl honeTime, ?_, NamedByHash.built hbinds (.inl ⟨_, _, h⟩), ?_, ?_⟩
  · constructor
    · intro hmem
      exact absurd hmem List.not_mem_nil
    · intro hnone
      have hnone' : bob.store.preKeys oneTimePreKeyId = none := hnone
      rw [honeTime, hr] at hnone'
      cases hnone'
  · intro bundle hb
    exact absurd hb List.not_mem_nil
  · intro envelope plaintext hf
    exact absurd hf List.not_mem_nil

/-- The receiver publishes what it was built with, whatever has happened to its store. -/
theorem publishBundle_of_inv {bob₀ : RatchetSession Key Sess} {s : PublishRun Key Sess}
    (hs : s.Inv S sha256 bob₀) : s.bob.publishBundle = bob₀.publishBundle := by
  rw [hs.session]
  rfl

/-- What a decrypt adds to the consumed prekeys: the prekey that has left the store. -/
theorem mem_spentPreKey {s : RatchetSession Key Sess} {envelope : Bytes}
    {out : RatchetSession Key Sess × Except SessionError Bytes} (h : Spends S s envelope out)
    {id : UInt32} : id ∈ spentPreKey S s out.1 envelope out.2 ↔
      s.store.preKeys id ≠ none ∧ out.1.store.preKeys id = none := by
  constructor
  · intro hmem
    unfold spentPreKey at hmem
    split at hmem
    · exact absurd hmem List.not_mem_nil
    · split at hmem
      · exact absurd hmem List.not_mem_nil
      · have hfilter := (List.mem_filter.mp hmem).2
        simpa [Option.isSome_iff_ne_none] using hfilter
  · rintro ⟨hbefore, hafter⟩
    rcases h.preKeys with hsame | ⟨m, id', plaintext, hparse, hid, hok, -, hupdate⟩
    · rw [hsame] at hafter
      exact absurd hafter hbefore
    · have heq : id = id' := by
        by_contra hne
        rw [hupdate, Function.update_of_ne hne] at hafter
        exact hbefore hafter
      subst heq
      simp [spentPreKey, hok, hparse, hid, hafter, Option.isSome_iff_ne_none, hbefore]

/-- Every step keeps the invariant. -/
theorem PublishRun.Inv.step {bob₀ : RatchetSession Key Sess} {s : PublishRun Key Sess}
    (hbinds : S.BindsCarried) (hspends : S.SpendsPreKeys) (hs : s.Inv S sha256 bob₀)
    (a : PublishAction Key Rand) : (s.step S sha256 a).Inv S sha256 bob₀ := by
  cases a with
  | publish =>
    rw [PublishRun.step]
    split
    · exact hs
    · rename_i bundle hpub
      refine ⟨hs.session, hs.signed, hs.kyber, hs.oneTime, hs.consumed, hs.named, ?_, hs.firsts⟩
      intro b hb
      rcases List.mem_append.mp hb with hold | hnew
      · exact hs.bundles b hold
      · rw [List.mem_singleton.mp hnew, ← publishBundle_of_inv hs]
        exact hpub
  | enroll identity k plaintext rand rand' =>
    rw [PublishRun.step]
    split
    · exact hs
    · rename_i bundle hbundle
      split
      · exact hs
      · rename_i alice halice
        split
        · exact hs
        · rename_i envelope henv
          refine ⟨hs.session, hs.signed, hs.kyber, hs.oneTime, hs.consumed, hs.named, hs.bundles, ?_⟩
          intro env pt hmem
          rcases List.mem_append.mp hmem with hold | hnew
          · exact hs.firsts env pt hold
          · obtain ⟨rfl, rfl⟩ := Prod.mk.inj (List.mem_singleton.mp hnew)
            exact ⟨identity, bundle, hs.bundles bundle (List.mem_of_getElem? hbundle), rand, alice,
              rand', halice, henv⟩
  | decrypt envelope rand =>
    have hsp : Spends S s.bob envelope (s.bob.decrypt S sha256 envelope rand) :=
      decrypt_spends hspends s.bob envelope rand
    have hmem : ∀ id, id ∈ spentPreKey S s.bob (s.bob.decrypt S sha256 envelope rand).1 envelope
        (s.bob.decrypt S sha256 envelope rand).2 ↔ _ := fun id => mem_spentPreKey hsp
    refine ⟨?_, ?_, ?_, ?_, ?_, ?_, hs.bundles, hs.firsts⟩
    · show (s.bob.decrypt S sha256 envelope rand).1 =
        { bob₀ with store := (s.bob.decrypt S sha256 envelope rand).1.store }
      have hkept := congrArg (fun b : RatchetSession Key Sess =>
        { b with store := (s.bob.decrypt S sha256 envelope rand).1.store }) hs.session
      exact hsp.session.trans hkept
    · show (s.bob.decrypt S sha256 envelope rand).1.store.signedPreKeys _ = _
      rw [hsp.signed]
      exact hs.signed
    · show (s.bob.decrypt S sha256 envelope rand).1.store.kyberPreKeys _ = _
      rw [hsp.kyber]
      exact hs.kyber
    · show (s.bob.decrypt S sha256 envelope rand).1.store.preKeys _ = _ ∨
        (s.bob.decrypt S sha256 envelope rand).1.store.preKeys _ = _
      rcases hsp.preKeys with hsame | ⟨m, id, plaintext, -, -, -, -, hupdate⟩
      · rw [hsame]
        exact hs.oneTime
      · by_cases heq : oneTimePreKeyId = id
        · right
          rw [hupdate, ← heq, Function.update_self]
        · rw [hupdate, Function.update_of_ne heq]
          exact hs.oneTime
    · show oneTimePreKeyId ∈ s.consumed ++ _ ↔
        (s.bob.decrypt S sha256 envelope rand).1.store.preKeys oneTimePreKeyId = none
      rw [List.mem_append, hs.consumed, hmem]
      have hgone : s.bob.store.preKeys oneTimePreKeyId = none →
          (s.bob.decrypt S sha256 envelope rand).1.store.preKeys oneTimePreKeyId = none := by
        intro hnone
        rcases hsp.preKeys with hsame | ⟨m, id, plaintext, -, -, -, -, hupdate⟩
        · rw [hsame]
          exact hnone
        · by_cases heq : oneTimePreKeyId = id
          · rw [hupdate, ← heq, Function.update_self]
          · rw [hupdate, Function.update_of_ne heq]
            exact hnone
      constructor
      · rintro (hnone | ⟨-, hafter⟩)
        · exact hgone hnone
        · exact hafter
      · intro hafter
        by_cases hbefore : s.bob.store.preKeys oneTimePreKeyId = none
        · exact .inl hbefore
        · exact .inr ⟨hbefore, hafter⟩
    · exact hs.named.step hbinds (.decrypt envelope rand)

/-! ## Exactly when bundles are fresh -/

/-- A receiver publishes its one-time prekey, under its id. -/
theorem publishBundle_newBob {identity : IdentityKeyPair Key} {rand : Rand}
    {bob : RatchetSession Key Sess} (h : newBob S sha256 identity rand = .ok bob) :
    ∃ bundle pub, bob.publishBundle = .ok bundle ∧ bundle.preKey = some (oneTimePreKeyId, pub) := by
  obtain ⟨-, -, -, -, ⟨r, hr, hid⟩, hsigned, hkyber⟩ := newBob_ok h
  obtain ⟨signed, hsigned⟩ := Option.isSome_iff_exists.mp hsigned
  obtain ⟨kyber, hkyber⟩ := Option.isSome_iff_exists.mp hkyber
  refine ⟨buildPreKeyBundle registrationId deviceId bob.identity signed kyber bob.oneTimePreKey,
    r.publicKey, ?_, ?_⟩
  · rw [RatchetSession.publishBundle, hsigned, hkyber]
  · rw [buildPreKeyBundle, hr, ← hid]
    rfl

/-- A first message that arrives decrypts exactly if the store still has the prekey. -/
theorem decrypt_first_iff {identity : IdentityKeyPair Key} {rand₀ : Rand}
    {bob₀ : RatchetSession Key Sess} {s : PublishRun Key Sess}
    (hlen : ∀ bs, (sha256 bs).length = 32)
    (hcoll : ∀ k k', hashOfIdentityKey S sha256 k = hashOfIdentityKey S sha256 k' → k = k')
    (hspends : S.SpendsPreKeys) (hshake : S.Handshake sha256)
    (hbob : newBob S sha256 identity rand₀ = .ok bob₀) (hs : s.Inv S sha256 bob₀)
    {envelope plaintext : Bytes} (harr : s.Arrives S envelope plaintext) (rand : Rand) :
    (s.bob.decrypt S sha256 envelope rand).2 = .ok plaintext ↔
      s.bob.store.preKeys oneTimePreKeyId ≠ none := by
  obtain ⟨hmem, hnew⟩ := harr
  obtain ⟨sender, bundle, hpub, hfirst⟩ := hs.firsts envelope plaintext hmem
  obtain ⟨raw, m, henv, hparse, hkey, hid⟩ := hshake.message sender bundle plaintext envelope hfirst
  obtain ⟨bundle', pub, hpub', hpre⟩ := publishBundle_newBob hbob
  obtain rfl : bundle' = bundle := Except.ok.inj (hpub'.symm.trans hpub)
  rw [hpre] at hid
  have hhash : (hashOfIdentityKey S sha256 sender.identityKey).length = 32 := hlen _
  obtain ⟨-, htake, -, hdrop⟩ := envelope_parts hhash (typeTag .preKey) raw
  rw [← henv] at htake hdrop
  have hisNew : S.IsNew s.bob.store
      (addressForHash (hashOfIdentityKey S sha256 sender.identityKey)) m := by
    rw [← htake]
    exact hnew m (by rw [hdrop]; exact hparse)
  have hidentity : s.bob.identity = identity := by
    rw [hs.session]
    exact (newBob_ok hbob).1
  have hlocal : s.bob.localAddress = bob₀.localAddress := by
    rw [hs.session]
  have hdec : (s.bob.decrypt S sha256 envelope rand).2 =
      ((S.decryptPreKey identity raw m
        (addressForHash (hashOfIdentityKey S sha256 sender.identityKey)) bob₀.localAddress rand
        s.bob.store).2.mapError (fromProtocol S)).mapError .decrypt := by
    rw [henv, decrypt_first hlen s.bob hparse hkey rand]
    simp only [RatchetSession.decryptChecked, decryptMessage, hparse, hidentity, hlocal]
  rw [hdec]
  constructor
  · intro hok habsent
    obtain ⟨e, he⟩ := hspends.absent identity raw m _ bob₀.localAddress rand s.bob.store
      oneTimePreKeyId hparse hid hisNew habsent
    rw [he] at hok
    cases hok
  · intro hpresent
    have honeTime := hs.oneTime.resolve_right hpresent
    -- the sender's address is free, or bound to the sender's own key
    have hbound : s.bob.store.identities
          (addressForHash (hashOfIdentityKey S sha256 sender.identityKey)) = none ∨
        s.bob.store.identities
          (addressForHash (hashOfIdentityKey S sha256 sender.identityKey)) =
            some sender.identityKey := by
      cases hid' : s.bob.store.identities
          (addressForHash (hashOfIdentityKey S sha256 sender.identityKey)) with
      | none => exact .inl rfl
      | some key => exact .inr (by rw [hcoll key _ (hs.named _ _ key hid')])
    rw [hshake.decrypts identity rand₀ bob₀ bundle' hbob hpub sender plaintext envelope hfirst raw m
      henv hparse rand s.bob.store hs.signed hs.kyber honeTime hisNew hbound]
    rfl

/-- One step: it is fresh exactly if the prekey is unspent. -/
theorem publishesFresh_iff {identity : IdentityKeyPair Key} {rand₀ : Rand}
    {bob₀ : RatchetSession Key Sess} {s : PublishRun Key Sess}
    (hlen : ∀ bs, (sha256 bs).length = 32)
    (hcoll : ∀ k k', hashOfIdentityKey S sha256 k = hashOfIdentityKey S sha256 k' → k = k')
    (hspends : S.SpendsPreKeys) (hshake : S.Handshake sha256)
    (hbob : newBob S sha256 identity rand₀ = .ok bob₀) (hs : s.Inv S sha256 bob₀)
    (a : PublishAction Key Rand) : PublishesFresh S sha256 s a ↔ PreKeyUnspent S s a := by
  cases a with
  | publish =>
    obtain ⟨bundle, pub, hpub, hpre⟩ := publishBundle_newBob hbob
    show (∀ b id p, s.bob.publishBundle = .ok b → b.preKey = some (id, p) → id ∉ s.consumed) ↔
      s.bob.store.preKeys oneTimePreKeyId ≠ none
    rw [publishBundle_of_inv hs, ne_eq, ← hs.consumed]
    constructor
    · intro hfresh
      exact hfresh bundle oneTimePreKeyId pub hpub hpre
    · intro hunspent b id p hb hp
      obtain rfl : bundle = b := Except.ok.inj (hpub.symm.trans hb)
      have hpair := Option.some.inj (hpre.symm.trans hp)
      rw [← (Prod.mk.inj hpair).1]
      exact hunspent
  | enroll sender k plaintext rand rand' => exact Iff.rfl
  | decrypt envelope rand =>
    constructor
    · intro hfresh plaintext harr
      exact (decrypt_first_iff hlen hcoll hspends hshake hbob hs harr rand).mp
        (hfresh plaintext harr)
    · intro hunspent plaintext harr
      exact (decrypt_first_iff hlen hcoll hspends hshake hbob hs harr rand).mpr
        (hunspent plaintext harr)

/-- **Bundles are fresh exactly while the prekey is unspent.**  In every run of a receiver built by
    `new_bob` (publishes, senders established from the published bundles, decrypts of any bytes), no
    published bundle names a consumed prekey and every first message that arrives decrypts, if and
    only if the store still has the one-time prekey at each publish and at each arrival of a first
    message. -/
theorem publish_fresh_iff (hlen : ∀ bs, (sha256 bs).length = 32)
    (hcoll : ∀ k k', hashOfIdentityKey S sha256 k = hashOfIdentityKey S sha256 k' → k = k')
    (hbinds : S.BindsCarried) (hspends : S.SpendsPreKeys) (hshake : S.Handshake sha256)
    (identity : IdentityKeyPair Key) (rand₀ : Rand) (bob : RatchetSession Key Sess)
    (hbob : newBob S sha256 identity rand₀ = .ok bob) (acts : List (PublishAction Key Rand)) :
    Meets (PublishRun.step S sha256) (PublishesFresh S sha256) (.start bob) acts ↔
      Meets (PublishRun.step S sha256) (PreKeyUnspent S) (.start bob) acts := by
  refine meets_iff (I := PublishRun.Inv S sha256 bob) ?_ ?_ (publishRun_start hbinds hbob) acts
  · intro s a hs
    exact publishesFresh_iff hlen hcoll hspends hshake hbob hs a
  · intro s a hs _
    exact hs.step hbinds hspends a

end Republish

/-! ## A receiver over the stand-in -/

theorem sampleHash_length (bs : Bytes) : (sampleHash bs).length = 32 := by
  rw [sampleHash, List.length_take, List.length_append, List.length_replicate]
  omega

theorem sampleHash_collisionFree (k k' : UInt8)
    (h : hashOfIdentityKey sampleSignal sampleHash k = hashOfIdentityKey sampleSignal sampleHash k') :
    k = k' := by
  have hhead : (hashOfIdentityKey sampleSignal sampleHash k).head? =
      (hashOfIdentityKey sampleSignal sampleHash k').head? := by rw [h]
  exact Option.some.inj hhead

/-- What the stand-in does with a PreKey message: a handshake it knows changes nothing; a new one is
    turned away with nothing changed (untrusted sender, or absent prekey), or accepted, and then its
    prekey is gone. -/
theorem sampleSignal_decryptPreKey (identity : IdentityKeyPair UInt8) (raw : Bytes)
    (m : PreKeyMessage UInt8) (remote loc : ProtocolAddress) (rand : UInt8)
    (store : SignalStore UInt8 SampleSession) :
    (¬ sampleSignal.IsNew store remote m ∧
      sampleSignal.decryptPreKey identity raw m remote loc rand store = (store, .ok (raw.drop 7))) ∨
    (sampleSignal.IsNew store remote m ∧
      ((store.identities remote ≠ none ∧ store.identities remote ≠ some m.identityKey) ∨
        ∃ id, m.preKeyId = some id ∧ store.preKeys id = none) ∧
      ∃ e, sampleSignal.decryptPreKey identity raw m remote loc rand store = (store, .error e)) ∨
    (sampleSignal.IsNew store remote m ∧ (∀ id, m.preKeyId = some id → store.preKeys id ≠ none) ∧
      ∃ sessions identities,
        sampleSignal.decryptPreKey identity raw m remote loc rand store =
          ({ store with
              sessions
              identities
              preKeys := m.preKeyId.elim store.preKeys
                fun id => Function.update store.preKeys id none },
            .ok (raw.drop 7))) := by
  have hnew : sampleSignal.IsNew store remote m ↔
      ¬ ((store.sessions remote).any fun s => decide (m.baseKey ∈ s.baseKeys)) = true := by
    cases hsess : store.sessions remote with
    | none => simp [Signal.IsNew, hsess]
    | some sess => simp [Signal.IsNew, hsess, sampleSignal]
  let sessions := Function.update store.sessions remote
    (some ⟨m.baseKey :: ((store.sessions remote).map SampleSession.baseKeys).getD [], none⟩)
  let identities := Function.update store.identities remote (some m.identityKey)
  by_cases hknown : ((store.sessions remote).any fun s => decide (m.baseKey ∈ s.baseKeys)) = true
  · exact .inl ⟨fun h => hnew.mp h hknown, if_pos hknown⟩
  · right
    by_cases huntrusted : store.identities remote ≠ none ∧
        store.identities remote ≠ some m.identityKey
    · refine .inl ⟨hnew.mpr hknown, .inl huntrusted, .untrustedIdentity, ?_⟩
      exact (if_neg hknown).trans (if_pos huntrusted)
    · cases hid : m.preKeyId with
      | none =>
        refine .inr ⟨hnew.mpr hknown, (fun id h => by cases h), ?_⟩
        refine ⟨sessions, identities, (if_neg hknown).trans ((if_neg huntrusted).trans ?_)⟩
        rw [hid]
        rfl
      | some id =>
        cases hstore : store.preKeys id with
        | none =>
          refine .inl ⟨hnew.mpr hknown, .inr ⟨id, rfl, hstore⟩, .other "missing prekey", ?_⟩
          refine (if_neg hknown).trans ((if_neg huntrusted).trans ?_)
          simp only [hid, hstore]
        | some r =>
          refine .inr ⟨hnew.mpr hknown, ?_, ?_⟩
          · intro id' h
            obtain rfl := Option.some.inj h
            rw [hstore]
            exact Option.some_ne_none r
          · refine ⟨sessions, identities, (if_neg hknown).trans ((if_neg huntrusted).trans ?_)⟩
            simp only [hid, hstore]
            rfl

theorem sampleSignal_spendsPreKeys : sampleSignal.SpendsPreKeys where
  removes := by
    intro identity raw m remote loc rand store id plaintext _ hid hnew hok
    rcases sampleSignal_decryptPreKey identity raw m remote loc rand store with
      ⟨hknown, -⟩ | ⟨-, -, e, hout⟩ | ⟨-, -, sessions, identities, hout⟩
    · exact absurd hnew hknown
    · rw [hout] at hok
      cases hok
    · rw [hout, hid]
      rfl
  absent := by
    intro identity raw m remote loc rand store id _ hid hnew habsent
    rcases sampleSignal_decryptPreKey identity raw m remote loc rand store with
      ⟨hknown, -⟩ | ⟨-, -, e, hout⟩ | ⟨-, hpresent, -⟩
    · exact absurd hnew hknown
    · exact ⟨e, by rw [hout]⟩
    · exact absurd habsent (hpresent id hid)
  keeps := by
    intro identity raw m remote loc rand store _ h
    rcases sampleSignal_decryptPreKey identity raw m remote loc rand store with
      ⟨-, hout⟩ | ⟨-, -, e, hout⟩ | ⟨hnew, -, sessions, identities, hout⟩
    · rw [hout]
    · rw [hout]
    · rcases h with hnone | hknown | ⟨e, he⟩
      · rw [hout, hnone]
        rfl
      · exact absurd hnew hknown
      · rw [hout] at he
        cases he
  keepsRecords := by
    intro identity raw m remote loc rand store
    rcases sampleSignal_decryptPreKey identity raw m remote loc rand store with
      ⟨-, hout⟩ | ⟨-, -, e, hout⟩ | ⟨-, -, sessions, identities, hout⟩
    all_goals
      rw [hout]
      exact ⟨rfl, rfl⟩
  signal := fun _ _ _ _ _ _ => ⟨rfl, rfl, rfl⟩

/-- The stand-in reads back the message it writes. -/
theorem sampleSignal_parsePreKey (key : UInt8) (preKeyId : Option UInt32) (baseKey : UInt8)
    (plaintext : Bytes) :
    sampleSignal.parsePreKey (samplePreKeyMessage key preKeyId baseKey plaintext) =
        .ok ⟨key, preKeyId, [baseKey]⟩ ∧
      (samplePreKeyMessage key preKeyId baseKey plaintext).drop 7 = plaintext := by
  cases preKeyId with
  | none => exact ⟨rfl, rfl⟩
  | some id =>
    refine ⟨?_, rfl⟩
    have hround : fromLeBytes (toLeBytes 4 id.toNat) = id.toNat :=
      fromLeBytes_toLeBytes_of_lt id.toNat_lt
    show Except.ok (PreKeyMessage.mk key
      (some (UInt32.ofNat (fromLeBytes (toLeBytes 4 id.toNat)))) [baseKey]) = _
    rw [hround, UInt32.ofNat_toNat]

/-- A first envelope of the stand-in. -/
theorem sampleSignal_first {identity : IdentityKeyPair UInt8} {bundle : SignalBundle UInt8}
    {plaintext envelope : Bytes}
    (h : FirstEnvelope sampleSignal sampleHash identity bundle plaintext envelope) :
    ∃ baseKey, envelope = hashOfIdentityKey sampleSignal sampleHash identity.identityKey ++
      [typeTag .preKey] ++ samplePreKeyMessage identity.identityKey (bundle.preKey.map Prod.fst)
        baseKey plaintext := by
  obtain ⟨rand, alice, rand', halice, henv⟩ := h
  obtain rfl := Except.ok.inj halice
  refine ⟨rand, ?_⟩
  simp only [RatchetSession.encrypt, sampleSignal, Function.update_self, serializedCiphertext]
    at henv
  exact (Except.ok.inj henv).symm

theorem sampleSignal_handshake : sampleSignal.Handshake sampleHash where
  message := by
    intro identity bundle plaintext envelope h
    obtain ⟨baseKey, henv⟩ := sampleSignal_first h
    exact ⟨_, _, henv, (sampleSignal_parsePreKey ..).1, rfl, rfl⟩
  decrypts := by
    intro bobIdentity rand₀ bob bundle hbob hpub identity plaintext envelope h raw m henv hparse
      rand store _ _ honeTime hnew hbound
    obtain ⟨baseKey, henv'⟩ := sampleSignal_first h
    obtain rfl := List.append_cancel_left (henv.symm.trans henv')
    obtain ⟨hread, hdrop⟩ := sampleSignal_parsePreKey identity.identityKey
      (bundle.preKey.map Prod.fst) baseKey plaintext
    obtain rfl := Except.ok.inj (hread.symm.trans hparse)
    obtain ⟨bundle', pub, hpub', hpre⟩ := publishBundle_newBob hbob
    obtain rfl : bundle' = bundle := Except.ok.inj (hpub'.symm.trans hpub)
    obtain ⟨-, -, -, -, ⟨r, hr, -⟩, -⟩ := newBob_ok hbob
    rcases sampleSignal_decryptPreKey bobIdentity _ ⟨identity.identityKey,
        bundle'.preKey.map Prod.fst, [baseKey]⟩ _ bob.localAddress rand store with
      ⟨hknown, -⟩ | ⟨-, huntrusted | ⟨id, hid, habsent⟩, -⟩ | ⟨-, -, sessions, identities, hout⟩
    · exact absurd hnew hknown
    · rcases hbound with hfree | hown
      · exact absurd hfree huntrusted.1
      · exact absurd hown huntrusted.2
    · -- the prekey the bundle names is in the store
      rw [hpre] at hid
      obtain rfl : oneTimePreKeyId = id := Option.some.inj hid
      rw [honeTime, hr] at habsent
      cases habsent
    · rw [hout, hdrop]

/-- The first message of the sender with this key, established with this base key. -/
def sampleFirst (key baseKey : UInt8) (plaintext : Bytes) : Bytes :=
  sampleHash [key] ++ [1] ++ samplePreKeyMessage key (some 1) baseKey plaintext

/-- Bob publishes twice and answers one sender. -/
theorem one_sender_is_answered :
    ∃ bob, newBob sampleSignal sampleHash ⟨7, []⟩ 0 = .ok bob ∧
      Meets (PublishRun.step sampleSignal sampleHash) (PublishesFresh sampleSignal sampleHash)
        (.start bob) [.publish, .publish, .enroll ⟨5, []⟩ 1 [104, 105] 3 0,
          .decrypt (sampleFirst 5 3 [104, 105]) 0] := by
  refine ⟨_, rfl, ?_⟩
  refine (publish_fresh_iff sampleHash_length sampleHash_collisionFree sampleSignal_bindsCarried
    sampleSignal_spendsPreKeys sampleSignal_handshake ⟨7, []⟩ 0 _ rfl _).mpr ?_
  exact ⟨Option.some_ne_none _, Option.some_ne_none _, trivial,
    fun _ _ => Option.some_ne_none _, trivial⟩

/-- Bob publishes, answers a first sender and publishes again: the second bundle names the prekey he
    has just consumed, and the first message of the sender that uses it does not decrypt. -/
theorem second_bundle_is_stale :
    ∃ bob, newBob sampleSignal sampleHash ⟨7, []⟩ 0 = .ok bob ∧
      ¬ Meets (PublishRun.step sampleSignal sampleHash) (PublishesFresh sampleSignal sampleHash)
        (.start bob) [.publish, .enroll ⟨5, []⟩ 0 [104, 105] 3 0,
          .decrypt (sampleFirst 5 3 [104, 105]) 0, .publish] ∧
      (run (PublishRun.step sampleSignal sampleHash) (.start bob)
        [.publish, .enroll ⟨5, []⟩ 0 [104, 105] 3 0, .decrypt (sampleFirst 5 3 [104, 105]) 0,
          .publish, .enroll ⟨6, []⟩ 1 [121, 111] 4 0]).firsts =
        [(sampleFirst 5 3 [104, 105], [104, 105]), (sampleFirst 6 4 [121, 111], [121, 111])] ∧
      ((run (PublishRun.step sampleSignal sampleHash) (.start bob)
        [.publish, .enroll ⟨5, []⟩ 0 [104, 105] 3 0, .decrypt (sampleFirst 5 3 [104, 105]) 0,
          .publish, .enroll ⟨6, []⟩ 1 [121, 111] 4 0]).bob.decrypt sampleSignal sampleHash
            (sampleFirst 6 4 [121, 111]) 0).2 =
        .error (.decrypt (.protocolError "")) := by
  refine ⟨_, rfl, ?_, by decide +kernel, by decide +kernel⟩
  rintro ⟨-, -, -, hpublish, -⟩
  have hconsumed : (1 : UInt32) ∉ [1] := hpublish _ 1 [0] rfl rfl
  exact hconsumed (List.mem_singleton.mpr rfl)

end E2EMessaging.Crypto
