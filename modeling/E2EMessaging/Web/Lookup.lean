/-
  PEERS LOOKED UP AT THE RELAY (`send` of `clients/web/src/Conversation.tsx`, `addPeer` of
  `clients/web/src/GroupConversation.tsx`).

  A recipient ID IS the recipient's identity key, in base64 (`recipientIdFromPublicBytes`).  A client
  asks the relay for the prekey bundle of a recipient ID and uses the identity key in whatever bundle
  comes back: for the session it caches under the ID, for the member it adds under the ID.  Neither
  path COMPARES the two, as `decode_and_verify_bundle` does on the DHT.

  `bindings_right_iff`: in a run with a relay that answers lookups with any bytes, the sessions and
  members of the client belong to the recipients they are filed under exactly as long as every answer
  that is accepted carries the key its recipient ID names.
-/
import E2EMessaging.Crypto.BundleBytes
import E2EMessaging.Relay.Base64
import E2EMessaging.Web.GroupConversation

namespace E2EMessaging.Web

open E2EMessaging.Lib E2EMessaging.Crypto E2EMessaging.Group

/-! ## Recipient IDs -/

/-- `bytesToBase64`: `btoa` is standard base64, as the relay's encoder is. -/
def bytesToBase64 (bytes : Bytes) : String := Relay.b64Encode bytes

/-- `recipientIdFromPublicBytes`. -/
def recipientIdFromPublicBytes (publicBytes : Bytes) : String := bytesToBase64 publicBytes

/-! ## The wasm session bindings -/

/-- `WasmError`. -/
structure WasmError where
  kind : String
  message : String
  deriving Repr, DecidableEq

section Bindings

variable {Key Sess Rand : Type} (S : Signal Key Sess Rand) (sha256 : Bytes → Bytes)
  (C : KeyCodecs Key) (a : Arch)

/-- `DoubleRatchetError`'s text. -/
def describeRatchet : DoubleRatchetError → String
  | .malformedCiphertext => "malformed or unrecognized ciphertext"
  | .unsupportedCiphertextType => "ciphertext type is not supported for 1:1 ratchet"
  | .noSession => "no session for remote address"
  | .untrustedIdentity => "untrusted identity for remote address"
  | .authenticationFailed => "ciphertext failed authentication (bad MAC or replay)"
  | .protocolError message => "double ratchet protocol error: " ++ message

/-- `SessionError`'s text. -/
def describeSession : SessionError → String
  | .preKey e => "session prekey error: " ++ S.describe e
  | .establishment e => "session establishment failed: " ++ S.describe e
  | .encrypt e => "session encrypt failed: " ++ describeRatchet e
  | .decrypt e => "session decrypt failed: " ++ describeRatchet e
  | .store e => "session store error: " ++ S.describe e
  | .malformedEnvelope => "malformed session envelope"
  | .identityHashMismatch => "envelope sender hash does not match the bound identity key"
  | .noOneTimePreKey => "no one-time prekey generated"
  | .notPublisher => "session is not a prekey publisher"
  | .notSender => "session has no remote address to encrypt to"

/-- `SessionError::is_prekey_signature_invalid`. -/
def isPrekeySignatureInvalid (e : SessionError) : Bool :=
  decide (e = .establishment .signatureValidationFailed)

/-- `WasmError::from(SessionError)`. -/
def WasmError.ofSessionError (e : SessionError) : WasmError :=
  ⟨if (match e with | .preKey _ => true | _ => false) || isPrekeySignatureInvalid e then "PreKey"
    else "Session", describeSession S e⟩

/-- A bundle read from bytes, or `MalformedBundle`. -/
def readBundle (bundleBytes : Bytes) : Outcome WasmError (SignalBundle Key) :=
  match bundleFromBytes C a bundleBytes with
  | .ok bundle => .ok bundle
  | .err _ => .err ⟨"MalformedBundle", "malformed or truncated prekey bundle bytes"⟩
  | .panic => .panic

/-- `bundle_identity_key_bytes`. -/
def bundleIdentityKeyBytes (bundleBytes : Bytes) : Outcome WasmError Bytes := do
  let bundle ← readBundle C a bundleBytes
  .ok (S.serialize bundle.identityKey)

/-- `establish_session_from_bundle`. -/
def establishSessionFromBundle (identity : IdentityKeyPair Key) (bundleBytes : Bytes)
    (rand : Rand) : Outcome WasmError (RatchetSession Key Sess) := do
  let bundle ← readBundle C a bundleBytes
  match newAlice S sha256 identity bundle rand with
  | .error e => .err (.ofSessionError S e)
  | .ok session => .ok session

end Bindings

/-- `describeError` on what a binding throws; a panic is a trap. -/
def describeThrown {α : Type} : Outcome WasmError α → Except String α
  | .ok v => .ok v
  | .err e => .error e.message
  | .panic => .error "unreachable"

/-! ## `Conversation` -/

/-- `PeerSession`. -/
structure PeerSession (Key Sess : Type) where
  session : RatchetSession Key Sess
  remoteIdentityKey : Bytes

/-- A `send` that waits for its lookup: what it captured. -/
structure PendingSend (Key : Type) where
  identity : IdentityKeyPair Key
  trimmedPeerId : String
  trimmedInput : String

/-- The part of the component that `send` works on: `sessionsRef`, the suspended calls, the status
    line, and the envelopes handed to the transport. -/
structure Conversation (Key Sess : Type) where
  sessions : String → Option (PeerSession Key Sess)
  pending : List (PendingSend Key)
  status : String
  outbox : List (String × Bytes)

/-- A mounted component. -/
def Conversation.mount {Key Sess : Type} : Conversation Key Sess := ⟨fun _ => none, [], "", []⟩

section Send

variable {Key Sess Rand : Type} (S : Signal Key Sess Rand) (sha256 : Bytes → Bytes)
  (C : KeyCodecs Key) (a : Arch)

/-- The end of `send`: encrypt on the session and hand the envelope over. -/
def Conversation.deliver (c : Conversation Key Sess) (peerId : String)
    (peerSession : PeerSession Key Sess) (input : String) (rand : Rand) : Conversation Key Sess :=
  let out := peerSession.session.encrypt S (Relay.utf8 input) rand
  let c := { c with
    sessions := Function.update c.sessions peerId (some { peerSession with session := out.1 }) }
  match out.2 with
  | .error e =>
    { c with status := "Encrypt failed: " ++ (WasmError.ofSessionError S e).message }
  | .ok envelope => { c with outbox := c.outbox ++ [(peerId, envelope)] }

/-- `send`, up to its end or its lookup. -/
def Conversation.send (c : Conversation Key Sess) (identity : Option (IdentityKeyPair Key))
    (peerId input : String) (sending : Bool) (rand : Rand) : Conversation Key Sess :=
  let trimmedPeerId := jsTrim peerId
  let trimmedInput := jsTrim input
  match identity with
  | none => c
  | some identity =>
    if trimmedPeerId = "" ∨ trimmedInput = "" ∨ sending = true then c
    else
      match c.sessions trimmedPeerId with
      | some peerSession =>
        { c with status := "" }.deliver S trimmedPeerId peerSession trimmedInput rand
      | none =>
        { c with
          status := "Looking up peer…"
          pending := c.pending ++ [⟨identity, trimmedPeerId, trimmedInput⟩] }

/-- `send` after its lookup: the relay's answer, or nothing if the lookup failed. -/
def Conversation.answered (c : Conversation Key Sess) (i : Nat) (answer : Option Bytes)
    (rand rand' : Rand) : Conversation Key Sess :=
  match c.pending[i]? with
  | none => c
  | some p =>
    let c := { c with pending := c.pending.eraseIdx i }
    match answer with
    | none => { c with status := "Peer not found" }
    | some bundleBytes =>
      match describeThrown (bundleIdentityKeyBytes S C a bundleBytes) with
      | .error e => { c with status := "Invalid prekey bundle: " ++ e }
      | .ok remoteIdentityKey =>
        match describeThrown
            (establishSessionFromBundle S sha256 C a p.identity bundleBytes rand) with
        | .error e => { c with status := "Could not establish session: " ++ e }
        | .ok session =>
          c.deliver S p.trimmedPeerId ⟨session, remoteIdentityKey⟩ p.trimmedInput rand'

end Send

/-! ## The client -/

/-- The byte strings of public keys, as terms of the group. -/
structure KeyTerms where
  term : Bytes → Term
  bytes : Term → Bytes
  bytes_term : ∀ bs, bytes (term bs) = bs

/-- Both components of a client. -/
structure Client (Key Sess : Type) where
  conversation : Conversation Key Sess
  group : Component

/-- What can happen.  The relay answers lookups; everything else on the group is as before. -/
inductive ClientAction (Key Rand : Type) where
  | send (identity : Option (IdentityKeyPair Key)) (peerId input : String) (sending : Bool)
      (rand : Rand)
  | sendAnswered (i : Nat) (answer : Option Bytes) (rand rand' : Rand)
  | group (a : UiAction)
  | addPeerAnswered (i : Nat) (answer : Option Bytes)

section Client

variable {Key Sess Rand : Type} (S : Signal Key Sess Rand) (sha256 : Bytes → Bytes)
  (C : KeyCodecs Key) (a : Arch) (T : KeyTerms) (demoKey : String → Term)

/-- The identity key of an answer, if the answer is a bundle. -/
def answeredKey (answer : Option Bytes) : Option Bytes := do
  let bundleBytes ← answer
  (describeThrown (bundleIdentityKeyBytes S C a bundleBytes)).toOption

/-- One action. -/
def Client.step (s : Client Key Sess) : ClientAction Key Rand → Client Key Sess
  | .send identity peerId input sending rand =>
    { s with conversation := s.conversation.send S identity peerId input sending rand }
  | .sendAnswered i answer rand rand' =>
    { s with conversation := s.conversation.answered S sha256 C a i answer rand rand' }
  | .group act =>
    match act with
    | .resume _ _ => s
    | act => { s with group := s.group.step demoKey act }
  | .addPeerAnswered i answer =>
    { s with group := s.group.step demoKey (.resume i ((answeredKey S C a answer).map T.term)) }

/-- The member's key is the one its recipient ID names. -/
def KeyTerms.Names (m : RealMember) : Prop :=
  recipientIdFromPublicBytes (T.bytes m.publicBytes) = m.recipientId

/-- The key of the session cached under a peer ID. -/
def Conversation.keyAt (c : Conversation Key Sess) (peerId : String) : Option Bytes :=
  (c.sessions peerId).map PeerSession.remoteIdentityKey

/-- Every cached session is a session with the holder of the key it is cached with. -/
def Conversation.Addressed (c : Conversation Key Sess) : Prop :=
  ∀ peerId peerSession, c.sessions peerId = some peerSession → ∃ device,
    peerSession.session.remoteAddress =
      some ⟨hexName (sha256 peerSession.remoteIdentityKey), device⟩

/-- Every cached session and every member belongs to the recipient it is filed under. -/
structure Client.BindingsRight (s : Client Key Sess) : Prop where
  sessions : ∀ peerId key, s.conversation.keyAt peerId = some key →
    recipientIdFromPublicBytes key = peerId
  addressed : s.conversation.Addressed sha256
  members : ∀ m ∈ s.group.current.realMembers, T.Names m

/-- The answer is accepted for this suspended `send`, with this key: it is a bundle, and a session
    can be established from it. -/
def Conversation.Accepts (c : Conversation Key Sess) (i : Nat) (answer : Option Bytes) (rand : Rand)
    (p : PendingSend Key) (key : Bytes) : Prop :=
  c.pending[i]? = some p ∧ ∃ bundleBytes session, answer = some bundleBytes ∧
    bundleIdentityKeyBytes S C a bundleBytes = .ok key ∧
    establishSessionFromBundle S sha256 C a p.identity bundleBytes rand = .ok session

/-- An answer that is accepted carries the key that the recipient ID asked for names. -/
def AnswerRight (s : Client Key Sess) : ClientAction Key Rand → Prop
  | .sendAnswered i answer rand _ => ∀ p key,
    s.conversation.Accepts S sha256 C a i answer rand p key →
    recipientIdFromPublicBytes key = p.trimmedPeerId
  | .addPeerAnswered i answer => ∀ p key, s.group.pending[i]? = some p →
    answeredKey S C a answer = some key → recipientIdFromPublicBytes key = p.trimmedId
  | _ => True

/-! ## The members a group component knows -/

/-- All members in the lists a handler may read. -/
def known (s : Component) : List RealMember :=
  s.current.realMembers ++ s.current.removedRealMembers ++ s.rendered.realMembers ++
    s.rendered.removedRealMembers ++ s.pending.flatMap Pending.realMembers

/-- Where a member can be known from: the lists of the state, those of the last render, and what a
    suspended `addPeer` has captured. -/
theorem mem_known {s : Component} {m : RealMember} : m ∈ known s ↔
    m ∈ s.current.realMembers ∨ m ∈ s.current.removedRealMembers ∨ m ∈ s.rendered.realMembers ∨
      m ∈ s.rendered.removedRealMembers ∨ ∃ p ∈ s.pending, m ∈ p.realMembers := by
  simp only [known, List.mem_append, List.mem_flatMap, or_assoc]

theorem known_of_rendered {s : Component} {m : RealMember} (h : m ∈ s.rendered.realMembers) :
    m ∈ known s := mem_known.mpr (.inr (.inr (.inl h)))

theorem known_of_pending {s : Component} {p : Pending} {m : RealMember} (hp : p ∈ s.pending)
    (h : m ∈ p.realMembers) : m ∈ known s := mem_known.mpr (.inr (.inr (.inr (.inr ⟨p, hp, h⟩))))

/-- With other suspended calls, only the members they captured are new. -/
theorem known_withPending {s : Component} {pending : List Pending} {m : RealMember}
    (h : m ∈ known { s with pending := pending }) :
    m ∈ known s ∨ ∃ p ∈ pending, m ∈ p.realMembers := by
  rcases mem_known.mp h with hcur | hrem | hren | hrenrem | hpend
  · exact .inl (mem_known.mpr (.inl hcur))
  · exact .inl (mem_known.mpr (.inr (.inl hrem)))
  · exact .inl (known_of_rendered hren)
  · exact .inl (mem_known.mpr (.inr (.inr (.inr (.inl hrenrem)))))
  · exact .inr hpend

/-- Enrolling a member makes that one known, and no other, as long as the list it is added to was
    known. -/
theorem known_enroll {s : Component} {group : GroupHandle} {members : List RealMember}
    {member m : RealMember} (hmembers : ∀ m ∈ members, m ∈ known s)
    (h : m ∈ known (s.enroll group members member)) : m ∈ known s ∨ m = member := by
  rcases mem_known.mp h with hcur | hrest
  · rcases List.mem_append.mp hcur with hold | hnew
    · exact .inl (hmembers m hold)
    · exact .inr (List.mem_singleton.mp hnew)
  · exact .inl (mem_known.mpr (.inr hrest))

/-- Taking somebody off the list of the removed ones makes nobody known. -/
theorem known_unremove {s : Component} {r : String} {m : RealMember}
    (h : m ∈ known (s.unremove r)) : m ∈ known s := by
  rcases mem_known.mp h with hcur | hrem | hrest
  · exact mem_known.mpr (.inl hcur)
  · exact mem_known.mpr (.inr (.inl (List.mem_of_mem_filter hrem)))
  · exact mem_known.mpr (.inr (.inr hrest))

/-- A member found in the rendered list of removed members joins again. -/
theorem known_reEnroll {s : Component} {group : GroupHandle} {r r' : String}
    {member m : RealMember}
    (hfind : s.rendered.removedRealMembers.find? (fun m => decide (m.recipientId = r)) =
      some member)
    (h : m ∈ known (((s.starting r').enroll group s.rendered.realMembers member).unremove r')) :
    m ∈ known s := by
  have hmembers : ∀ m ∈ s.rendered.realMembers, m ∈ known (s.starting r') := by
    intro m hm
    exact known_of_rendered hm
  rcases known_enroll hmembers (known_unremove h) with hold | rfl
  · exact hold
  · exact mem_known.mpr (.inr (.inr (.inr (.inl (List.mem_of_find?_eq_some hfind)))))

/-- `addPeer` up to its await works with what is known: a removed peer comes back as he was. -/
theorem known_addPeer {s : Component} {m : RealMember} (h : m ∈ known s.addPeer) :
    m ∈ known s := by
  rw [Component.addPeer] at h
  split at h
  · exact h
  · split at h
    · exact h
    · split at h
      · exact h
      · split at h
        · rename_i member hfind
          exact known_reEnroll hfind h
        · rcases known_withPending h with hold | ⟨p, hp, hm⟩
          · exact hold
          · rcases List.mem_append.mp hp with hold | hnew
            · exact known_of_pending hold hm
            · -- the new suspended call captured the rendered members
              rw [List.mem_singleton.mp hnew] at hm
              exact known_of_rendered hm

/-- After the await there may be one member who was not known: the holder of the key in the
    answer, under the ID that was asked for. -/
theorem known_resume {s : Component} {i : Nat} {identityKey : Option Term} {m : RealMember}
    (h : m ∈ known (s.resume i identityKey)) : m ∈ known s ∨
      ∃ p key, identityKey = some key ∧ s.pending[i]? = some p ∧ m = ⟨p.trimmedId, key⟩ := by
  rw [Component.resume] at h
  split at h
  · exact .inl h
  · rename_i p hp
    have herase : ∀ m, m ∈ known { s with pending := s.pending.eraseIdx i } → m ∈ known s := by
      intro m hm
      rcases known_withPending hm with hold | ⟨q, hq, hm⟩
      · exact hold
      · exact known_of_pending (List.mem_of_mem_eraseIdx hq) hm
    split at h
    · exact .inl (herase m h)
    · rename_i key
      have hjoin : m ∈ known (Component.enroll { s with pending := s.pending.eraseIdx i } p.group
          p.realMembers ⟨p.trimmedId, key⟩) := h
      rcases mem_known.mp hjoin with hcur | hrest
      · rcases List.mem_append.mp hcur with hold | hnew
        · exact .inl (known_of_pending (List.mem_of_getElem? hp) hold)
        · exact .inr ⟨p, key, rfl, hp, List.mem_singleton.mp hnew⟩
      · exact .inl (herase m (mem_known.mpr (.inr hrest)))

theorem known_reAddPeer {s : Component} {r : String} {m : RealMember}
    (h : m ∈ known (s.reAddPeer r)) : m ∈ known s := by
  rw [Component.reAddPeer] at h
  split at h
  · exact h
  · split at h
    · exact h
    · rename_i member hfind
      exact known_reEnroll hfind h

theorem known_removePeer {s : Component} {r : String} {m : RealMember}
    (h : m ∈ known (s.removePeer r)) : m ∈ known s := by
  rw [Component.removePeer] at h
  split at h
  · exact h
  · split at h
    · exact h
    · rename_i member hfind
      rcases mem_known.mp h with hcur | hrem | hrest
      · exact known_of_rendered (List.mem_of_mem_filter hcur)
      · dsimp only at hrem
        split at hrem
        · exact mem_known.mpr (.inr (.inl hrem))
        · rcases List.mem_append.mp hrem with hold | hnew
          · exact mem_known.mpr (.inr (.inl hold))
          · rw [List.mem_singleton.mp hnew]
            exact known_of_rendered (List.mem_of_find?_eq_some hfind)
      · exact mem_known.mpr (.inr (.inr hrest))

/-- Handlers only move known members around, except for the one a lookup has brought. -/
theorem known_step (s : Component) (act : UiAction) {m : RealMember}
    (h : m ∈ known (s.step demoKey act)) : m ∈ known s ∨
      ∃ i p key, act = .resume i (some key) ∧ s.pending[i]? = some p ∧ m = ⟨p.trimmedId, key⟩ := by
  have hact : m ∈ known (s.act demoKey act) := h
  cases act with
  | render =>
    rcases mem_known.mp hact with hcur | hrem | hcur | hrem | hpend
    · exact .inl (mem_known.mpr (.inl hcur))
    · exact .inl (mem_known.mpr (.inr (.inl hrem)))
    · exact .inl (mem_known.mpr (.inl hcur))
    · exact .inl (mem_known.mpr (.inr (.inl hrem)))
    · exact .inl (mem_known.mpr (.inr (.inr (.inr (.inr hpend)))))
  | setPeerIdInput text => exact .inl hact
  | addMember name =>
    left
    simp only [Component.act, Component.addMember] at hact
    split at hact
    · exact hact
    · split at hact <;> exact hact
  | removeMember name =>
    left
    simp only [Component.act, Component.removeMember] at hact
    split at hact
    · exact hact
    · split at hact <;> exact hact
  | addPeer => exact .inl (known_addPeer hact)
  | resume i key =>
    rcases known_resume hact with hold | ⟨p, k, rfl, hp, hm⟩
    · exact .inl hold
    · exact .inr ⟨i, p, k, rfl, hp, hm⟩
  | removePeer r => exact .inl (known_removePeer hact)
  | reAddPeer r => exact .inl (known_reAddPeer hact)
  | send p =>
    left
    simp only [Component.act, Component.send] at hact
    split at hact <;> exact hact

/-! ## The sessions a conversation caches -/

variable {S sha256 C a}

/-- What a binding returned is handed on as it is; only what it throws is described. -/
theorem describeThrown_eq_ok {α : Type} {x : Outcome WasmError α} {v : α} :
    describeThrown x = .ok v ↔ x = .ok v := by
  cases x with
  | ok w => simp [describeThrown]
  | err e => simp [describeThrown]
  | panic => simp [describeThrown]

/-- Handing over a message changes the session it was encrypted with, and no other. -/
theorem deliver_sessions (c : Conversation Key Sess) (peerId : String) (ps : PeerSession Key Sess)
    (input : String) (rand : Rand) : (c.deliver S peerId ps input rand).sessions =
      Function.update c.sessions peerId
        (some { ps with session := (ps.session.encrypt S (Relay.utf8 input) rand).1 }) := by
  rw [Conversation.deliver]
  dsimp only
  split <;> rfl

/-- Encrypting changes the session, not its key. -/
theorem deliver_keyAt (c : Conversation Key Sess) (peerId : String) (ps : PeerSession Key Sess)
    (input : String) (rand : Rand) (q : String) :
    (c.deliver S peerId ps input rand).keyAt q =
      if q = peerId then some ps.remoteIdentityKey else c.keyAt q := by
  rw [Conversation.keyAt, deliver_sessions]
  split
  · rename_i heq
    rw [heq, Function.update_self]
    rfl
  · rename_i hne
    rw [Function.update_of_ne hne]
    rfl

theorem encrypt_remoteAddress (session : RatchetSession Key Sess) (plaintext : Bytes)
    (rand : Rand) :
    (session.encrypt S plaintext rand).1.remoteAddress = session.remoteAddress := by
  rw [RatchetSession.encrypt]
  split
  · rfl
  · split
    · rfl
    · split <;> rfl

/-- Encrypting does not change whom the session addresses. -/
theorem Conversation.Addressed.deliver {c : Conversation Key Sess} (hc : c.Addressed sha256)
    {ps : PeerSession Key Sess} {device : UInt8}
    (hps : ps.session.remoteAddress = some ⟨hexName (sha256 ps.remoteIdentityKey), device⟩)
    (peerId input : String) (rand : Rand) :
    (c.deliver S peerId ps input rand).Addressed sha256 := by
  intro q ps' hget
  rw [deliver_sessions] at hget
  by_cases heq : q = peerId
  · rw [heq, Function.update_self] at hget
    obtain rfl := Option.some.inj hget
    exact ⟨device, (encrypt_remoteAddress ..).trans hps⟩
  · rw [Function.update_of_ne heq] at hget
    exact hc q ps' hget

/-- A `send` up to its end or its lookup caches no session, so each is still with the holder of
    the key it is cached for. -/
theorem Conversation.Addressed.send {c : Conversation Key Sess} (hc : c.Addressed sha256)
    (identity : Option (IdentityKeyPair Key)) (peerId input : String) (sending : Bool)
    (rand : Rand) : (c.send S identity peerId input sending rand).Addressed sha256 := by
  cases identity with
  | none => exact hc
  | some identity =>
    simp only [Conversation.send]
    split
    · exact hc
    · split
      · rename_i ps hps
        obtain ⟨device, hdevice⟩ := hc _ ps hps
        exact Addressed.deliver (c := { c with status := "" }) hc hdevice _ _ rand
      · exact hc

/-- The session and the key come from the same bundle. -/
theorem establish_addressed {identity : IdentityKeyPair Key} {bundleBytes key : Bytes} {rand : Rand}
    {session : RatchetSession Key Sess} (hkey : bundleIdentityKeyBytes S C a bundleBytes = .ok key)
    (hest : establishSessionFromBundle S sha256 C a identity bundleBytes rand = .ok session) :
    ∃ device, session.remoteAddress = some ⟨hexName (sha256 key), device⟩ := by
  rw [bundleIdentityKeyBytes] at hkey
  rw [establishSessionFromBundle] at hest
  cases hread : readBundle C a bundleBytes with
  | err e =>
    rw [hread] at hkey
    cases hkey
  | panic =>
    rw [hread] at hkey
    cases hkey
  | ok bundle =>
    rw [hread] at hkey hest
    obtain rfl : S.serialize bundle.identityKey = key := Outcome.ok.inj hkey
    cases halice : newAlice S sha256 identity bundle rand with
    | error e =>
      simp only [Outcome.ok_bind, halice] at hest
      cases hest
    | ok alice =>
      simp only [Outcome.ok_bind, halice] at hest
      obtain rfl := Outcome.ok.inj hest
      rw [newAlice] at halice
      split at halice
      · cases halice
      · obtain rfl := Except.ok.inj halice
        exact ⟨_, rfl⟩

/-- A lookup that is answered caches a session with the holder of the key in the answer, under
    exactly that key. -/
theorem Conversation.Addressed.answered {c : Conversation Key Sess} (hc : c.Addressed sha256)
    (i : Nat) (answer : Option Bytes) (rand rand' : Rand) :
    (c.answered S sha256 C a i answer rand rand').Addressed sha256 := by
  rw [Conversation.answered]
  split
  · exact hc
  · split
    · exact hc
    · split
      · exact hc
      · rename_i key hkey
        split
        · exact hc
        · rename_i session hest
          obtain ⟨device, hdevice⟩ := establish_addressed (describeThrown_eq_ok.mp hkey)
            (describeThrown_eq_ok.mp hest)
          exact Addressed.deliver (c := { c with pending := c.pending.eraseIdx i }) hc hdevice _ _
            rand'

/-- A `send` that finds a session uses it under its own ID; one that does not looks it up. -/
theorem send_keyAt (c : Conversation Key Sess) (identity : Option (IdentityKeyPair Key))
    (peerId input : String) (sending : Bool) (rand : Rand) (q : String) :
    (c.send S identity peerId input sending rand).keyAt q = c.keyAt q := by
  cases identity with
  | none => rfl
  | some identity =>
    simp only [Conversation.send]
    split
    · rfl
    · split
      · rename_i ps hps
        rw [deliver_keyAt]
        split
        · rename_i heq
          rw [heq, Conversation.keyAt, hps]
          rfl
        · rfl
      · rfl

variable (S sha256 C a) in
/-- An answer files its key under the ID asked for if it is accepted, and nothing otherwise. -/
theorem answered_keyAt (c : Conversation Key Sess) (i : Nat) (answer : Option Bytes)
    (rand rand' : Rand) :
    (∃ p key, c.Accepts S sha256 C a i answer rand p key ∧ ∀ q,
      (c.answered S sha256 C a i answer rand rand').keyAt q =
        if q = p.trimmedPeerId then some key else c.keyAt q) ∨
    ((∀ p key, ¬ c.Accepts S sha256 C a i answer rand p key) ∧ ∀ q,
      (c.answered S sha256 C a i answer rand rand').keyAt q = c.keyAt q) := by
  rw [Conversation.answered]
  cases hp : c.pending[i]? with
  | none =>
    refine .inr ⟨?_, fun q => rfl⟩
    rintro p key ⟨hp', -⟩
    rw [hp] at hp'
    cases hp'
  | some p =>
    dsimp only
    cases answer with
    | none =>
      refine .inr ⟨?_, fun q => rfl⟩
      rintro p' key ⟨-, bundleBytes, session, hanswer, -⟩
      cases hanswer
    | some bundleBytes =>
      dsimp only
      cases hkey : describeThrown (bundleIdentityKeyBytes S C a bundleBytes) with
      | error e =>
        refine .inr ⟨?_, fun q => rfl⟩
        rintro p' key ⟨-, bytes, session, hanswer, hkey', -⟩
        obtain rfl := Option.some.inj hanswer
        rw [describeThrown_eq_ok.mpr hkey'] at hkey
        cases hkey
      | ok key =>
        dsimp only
        cases hest : describeThrown
            (establishSessionFromBundle S sha256 C a p.identity bundleBytes rand) with
        | error e =>
          refine .inr ⟨?_, fun q => rfl⟩
          rintro p' key' ⟨hp', bytes, session, hanswer, -, hest'⟩
          obtain rfl := Option.some.inj hanswer
          obtain rfl := Option.some.inj (hp.symm.trans hp')
          rw [describeThrown_eq_ok.mpr hest'] at hest
          cases hest
        | ok session =>
          refine .inl ⟨p, key, ⟨hp, bundleBytes, session, rfl, describeThrown_eq_ok.mp hkey,
            describeThrown_eq_ok.mp hest⟩, ?_⟩
          intro q
          exact deliver_keyAt ..

/-! ## Exactly when the bindings are right -/

variable (sha256) in
/-- What a run keeps: no wrong key under a peer ID, no wrong member anywhere in the group. -/
structure Client.Inv (s : Client Key Sess) : Prop where
  sessions : ∀ peerId key, s.conversation.keyAt peerId = some key →
    recipientIdFromPublicBytes key = peerId
  addressed : s.conversation.Addressed sha256
  members : ∀ m ∈ known s.group, T.Names m

/-- The invariant gives what is asked: members that are listed are known. -/
theorem Client.Inv.bindingsRight {T : KeyTerms} {s : Client Key Sess} (hs : s.Inv sha256 T) :
    s.BindingsRight sha256 T :=
  ⟨hs.sessions, hs.addressed, fun m hm => hs.members m (mem_known.mpr (.inl hm))⟩

/-- A right answer keeps the invariant. -/
theorem Client.Inv.step {T : KeyTerms} {s : Client Key Sess} (hs : s.Inv sha256 T)
    (act : ClientAction Key Rand) (hok : AnswerRight S sha256 C a s act) :
    (s.step S sha256 C a T demoKey act).Inv sha256 T := by
  cases act with
  | send identity peerId input sending rand =>
    refine ⟨?_, hs.addressed.send identity peerId input sending rand, hs.members⟩
    intro q key hkey
    have hkey' : (s.conversation.send S identity peerId input sending rand).keyAt q = some key :=
      hkey
    rw [send_keyAt] at hkey'
    exact hs.sessions q key hkey'
  | sendAnswered i answer rand rand' =>
    refine ⟨?_, hs.addressed.answered i answer rand rand', hs.members⟩
    intro q key hkey
    have hkey' : (s.conversation.answered S sha256 C a i answer rand rand').keyAt q = some key :=
      hkey
    rcases answered_keyAt S sha256 C a s.conversation i answer rand rand' with
      ⟨p, key', haccepts, hat⟩ | ⟨-, hat⟩
    · rw [hat q] at hkey'
      split at hkey'
      · rename_i heq
        obtain rfl := Option.some.inj hkey'
        rw [heq]
        exact hok p key' haccepts
      · exact hs.sessions q key hkey'
    · rw [hat q] at hkey'
      exact hs.sessions q key hkey'
  | group uiAct =>
    have hmoved : (∀ i key, uiAct ≠ .resume i key) →
        Client.Inv sha256 T { s with group := s.group.step demoKey uiAct } := by
      intro hne
      refine ⟨hs.sessions, hs.addressed, ?_⟩
      intro m hm
      rcases known_step demoKey s.group uiAct hm with hold | ⟨i, p, key, hact, -⟩
      · exact hs.members m hold
      · exact absurd hact (hne i (some key))
    cases uiAct with
    | resume i key => exact hs
    | _ => exact hmoved nofun
  | addPeerAnswered i answer =>
    refine ⟨hs.sessions, hs.addressed, ?_⟩
    intro m hm
    rcases known_step demoKey s.group _ hm with hold | ⟨j, p, term, hact, hp, rfl⟩
    · exact hs.members m hold
    · obtain ⟨rfl, hterm⟩ := UiAction.resume.inj hact
      obtain ⟨key, hkey, rfl⟩ := Option.map_eq_some_iff.mp hterm
      show recipientIdFromPublicBytes (T.bytes (T.term key)) = p.trimmedId
      rw [T.bytes_term]
      exact hok p key hp hkey

/-- After an answer the bindings are right exactly if the answer was. -/
theorem bindingsRight_step_iff {T : KeyTerms} {s : Client Key Sess} (hs : s.Inv sha256 T)
    (act : ClientAction Key Rand) :
    (s.step S sha256 C a T demoKey act).BindingsRight sha256 T ↔ AnswerRight S sha256 C a s act := by
  refine ⟨?_, fun hok => (hs.step demoKey act hok).bindingsRight⟩
  intro hright
  cases act with
  | send identity peerId input sending rand => exact trivial
  | sendAnswered i answer rand rand' =>
    intro p key haccepts
    rcases answered_keyAt S sha256 C a s.conversation i answer rand rand' with
      ⟨p', key', haccepts', hat⟩ | ⟨hnone, -⟩
    · obtain ⟨hp, bytes, session, hanswer, hkey, -⟩ := haccepts
      obtain ⟨hp', bytes', session', hanswer', hkey', -⟩ := haccepts'
      obtain rfl := Option.some.inj (hp.symm.trans hp')
      obtain rfl := Option.some.inj (hanswer.symm.trans hanswer')
      obtain rfl : key = key' := Outcome.ok.inj (hkey.symm.trans hkey')
      refine hright.sessions p.trimmedPeerId key ?_
      show (s.conversation.answered S sha256 C a i answer rand rand').keyAt _ = _
      rw [hat, if_pos rfl]
    · exact absurd haccepts (hnone p key)
  | group uiAct => exact trivial
  | addPeerAnswered i answer =>
    intro p key hp hkey
    have hmem : (⟨p.trimmedId, T.term key⟩ : RealMember) ∈
        (s.step S sha256 C a T demoKey
          (.addPeerAnswered i answer : ClientAction Key Rand)).group.current.realMembers := by
      have hresume : (s.group.resume i (some (T.term key))).current.realMembers =
          p.realMembers ++ [⟨p.trimmedId, T.term key⟩] := by
        rw [Component.resume, hp]
        rfl
      show _ ∈ (s.group.resume i ((answeredKey S C a answer).map T.term)).current.realMembers
      rw [hkey, Option.map_some, hresume]
      exact List.mem_append_right _ List.mem_cons_self
    have hnames := hright.members _ hmem
    rw [KeyTerms.Names, T.bytes_term] at hnames
    exact hnames

/-- A client that has just loaded: no session, and the members persisted. -/
def Client.start (self : Term) (persisted : List RealMember) : Client Key Sess :=
  ⟨.mount, Component.mount self persisted⟩

theorem restoreLoop_members (w : World) (h : GroupHandle) (ms : List RealMember) :
    (restoreLoop w h ms).2.2 = ms := by
  induction ms generalizing w h with
  | nil => rfl
  | cons m ms ih => rw [restoreLoop, ih]

/-- After a mount the persisted members are known, and nobody else. -/
theorem known_mount {self : Term} {persisted : List RealMember} {m : RealMember}
    (h : m ∈ known (Component.mount self persisted)) : m ∈ persisted := by
  have hmembers : ∀ m, m ∈ (restore World.empty self persisted).realMembers → m ∈ persisted := by
    intro m hm
    rw [restore] at hm
    split at hm
    · exact absurd hm List.not_mem_nil
    · have hm' : m ∈ (restoreLoop (groupCreate World.empty self).1 (groupCreate World.empty self).2
          persisted).2.2 := hm
      rwa [restoreLoop_members] at hm'
  rcases mem_known.mp h with hcur | hrem | hren | hrenrem | ⟨p, hp, -⟩
  · exact hmembers m hcur
  · exact absurd hrem List.not_mem_nil
  · exact hmembers m hren
  · exact absurd hrenrem List.not_mem_nil
  · exact absurd hp List.not_mem_nil

/-- **Exactly when recipients are who they are filed as.**  For every relay, in every run of a client
    that starts with the right members: the cached sessions and the members are right after each
    action if and only if each answer that is accepted carries the key its recipient ID names. -/
theorem bindings_right_iff (T : KeyTerms) (demoKey : String → Term) (self : Term)
    (persisted : List RealMember) (hpersisted : ∀ m ∈ persisted, T.Names m)
    (acts : List (ClientAction Key Rand)) :
    Meets (Client.step S sha256 C a T demoKey)
        (fun s act => (s.step S sha256 C a T demoKey act).BindingsRight sha256 T)
        (Client.start self persisted) acts ↔
      Meets (Client.step S sha256 C a T demoKey) (AnswerRight S sha256 C a)
        (Client.start self persisted) acts := by
  refine meets_iff (I := Client.Inv sha256 T) ?_ ?_ ?_ acts
  · intro s act hs
    exact bindingsRight_step_iff demoKey hs act
  · intro s act hs hok
    exact hs.step demoKey act hok
  · refine ⟨?_, ?_, fun m hm => hpersisted m (known_mount hm)⟩
    · intro peerId key hkey
      cases hkey
    · intro peerId peerSession hget
      cases hget

end Client

/-! ## An honest relay and a lying one -/

/-- One-byte identity keys; other public keys are read as they are. -/
def sampleCodecs : KeyCodecs UInt8 where
  identityKey := fun bs =>
    match bs with
    | [key] => some key
    | _ => none
  publicKey := some
  kyberPublicKey := some

/-- Keys as data. -/
def dataTerms : KeyTerms where
  term := .data
  bytes := fun t =>
    match t with
    | .data bs => bs
    | _ => []
  bytes_term := fun _ => rfl

/-- The bundle of the holder of a key. -/
def sampleBundleBytes (key : UInt8) : Bytes :=
  bundleToBytes sampleSignal.serialize ⟨1, 1, some (1, [0]), 1, [0], [], 1, [0], [], key⟩

/-- The steps of a client over the stand-in, on `wasm32`. -/
def sampleClientStep (s : Client UInt8 SampleSession) (act : ClientAction UInt8 UInt8) :
    Client UInt8 SampleSession :=
  s.step sampleSignal sampleHash sampleCodecs ⟨32, false⟩ dataTerms (fun _ => .pub 0) act

/-- A message to the holder of key 7, answered with the bundle of the holder of a key. -/
def sampleSend (key : UInt8) : List (ClientAction UInt8 UInt8) :=
  [.send (some ⟨5, []⟩) " Bw== " "hi" false 0,
    .sendAnswered 0 (some (sampleBundleBytes key)) 3 0]

/-- The holder of key 7 added to the group, answered with the bundle of the holder of a key. -/
def sampleAdd (key : UInt8) : List (ClientAction UInt8 UInt8) :=
  [.group (.setPeerIdInput "Bw=="), .group .render, .group .addPeer,
    .addPeerAnswered 0 (some (sampleBundleBytes key))]

/-- An honest relay. -/
theorem honest_relay_binds :
    Meets sampleClientStep (fun s act => (sampleClientStep s act).BindingsRight sampleHash dataTerms)
      (Client.start (.pub 0) []) (sampleSend 7) := by
  refine (bindings_right_iff dataTerms (fun _ => .pub 0) (.pub 0) []
    (fun m hm => absurd hm List.not_mem_nil) (sampleSend 7)).mpr ?_
  refine ⟨trivial, ?_, trivial⟩
  rintro p key ⟨hp, bundleBytes, session, hanswer, hkey, -⟩
  obtain rfl := Option.some.inj hanswer
  have hkey' : bundleIdentityKeyBytes sampleSignal sampleCodecs ⟨32, false⟩ (sampleBundleBytes 7) =
      .ok [7] := by decide +kernel
  obtain rfl : [7] = key := Outcome.ok.inj (hkey'.symm.trans hkey)
  have hpeer : p.trimmedPeerId = "Bw==" := by
    obtain rfl := Option.some.inj hp
    decide +kernel
  rw [hpeer]
  decide

/-- A relay that answers with the bundle of the holder of key 9 is taken at its word, for sessions and
    for members. -/
theorem lying_relay_is_believed :
    ¬ Meets sampleClientStep
        (fun s act => (sampleClientStep s act).BindingsRight sampleHash dataTerms)
        (Client.start (.pub 0) []) (sampleSend 9) ∧
      ¬ Meets sampleClientStep
        (fun s act => (sampleClientStep s act).BindingsRight sampleHash dataTerms)
        (Client.start (.pub 0) []) (sampleAdd 9) := by
  have hlie : ¬ recipientIdFromPublicBytes [9] = "Bw==" := by decide
  constructor
  · rintro ⟨-, hright, -⟩
    exact hlie (hright.sessions "Bw==" [9] (by decide +kernel))
  · rintro ⟨-, -, -, hright, -⟩
    exact hlie (hright.members ⟨"Bw==", .data [9]⟩ (by decide +kernel))

end E2EMessaging.Web
