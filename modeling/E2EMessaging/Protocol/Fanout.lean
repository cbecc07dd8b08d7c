/-
  PER-DEVICE FAN-OUT (`core/protocol/src/fanout.rs`).

  A recipient has several devices, each with its own identity and its own ratchet session.  A fan-out
  keeps them in THREE maps: the sender sides and the receiver sides by device id, and the device of
  each identity hash.  `encrypt_to_all` and `decrypt_as` index one map with what they found in
  another and `expect` it to be there.

  What keeps the maps in step is `FanoutRun.Inv`, an invariant over every history of calls; it needs
  nothing of the ratchet.  On top of it, `fanout_device_table` says what each call returns in every
  reachable state:

      establish       fails iff the list is empty or repeats a device id or an identity
      encrypt_to_all  one ciphertext per linked device, in ascending order
      decrypt_as      the plaintext / DeviceMismatch / UnknownIdentity
      remove_device   leaves every other device as it is

  Only two of these need a ratchet that works, and they ask it of the pair at hand: a pass is complete
  where the senders can encrypt (`Pair.Encrypts`), and a device opens its ciphertexts where its own
  pair does (`Pair.Decrypts`).  libsignal gives no such promise for a receiver that was handed the
  handshake of a stranger, and nothing is assumed of one.
-/
import Mathlib.Data.List.Nodup
import E2EMessaging.Crypto.RatchetSession
import E2EMessaging.Crypto.Republish

namespace E2EMessaging.Protocol

open E2EMessaging.Lib E2EMessaging.Crypto

/-! ## The fan-out -/

/-- `DeviceId`. -/
abbrev DeviceId := UInt32

/-- `Ciphertext`. -/
structure Ciphertext where
  device : DeviceId
  envelope : Bytes
  deriving Repr, DecidableEq

/-- `FanoutError`. -/
inductive FanoutError where
  | duplicateDevice (device : DeviceId)
  | duplicateIdentity (existing : DeviceId)
  | noDevices
  | establishment (device : DeviceId) (e : SessionError)
  | encrypt (device : DeviceId) (e : SessionError)
  | decrypt (device : DeviceId) (e : SessionError)
  | unknownIdentity
  | deviceMismatch (claimed actual : DeviceId)
  deriving Repr, DecidableEq

/-- `FanoutSession`. -/
structure FanoutSession (Key Sess : Type) where
  senderSessions : Std.TreeMap DeviceId (RatchetSession Key Sess)
  identityToDevice : Std.TreeMap Bytes DeviceId
  receiverSessions : Std.TreeMap DeviceId (RatchetSession Key Sess)

section Fanout

variable {Key Sess Rand : Type} (S : Signal Key Sess Rand) (sha256 : Bytes → Bytes)

/-- `identity_hash`. -/
def identityHash (identity : IdentityKeyPair Key) : Bytes :=
  hashOfIdentityKey S sha256 identity.identityKey

/-- The loop of `establish`, with the maps built so far.  Each device has its own draws. -/
def establishLoop (sender : IdentityKeyPair Key) (bobRand aliceRand : DeviceId → Rand) :
    List (DeviceId × IdentityKeyPair Key) → FanoutSession Key Sess →
    Except FanoutError (FanoutSession Key Sess)
  | [], f => .ok f
  | (deviceId, recipientIdentity) :: devices, f =>
    if deviceId ∈ f.senderSessions then .error (.duplicateDevice deviceId)
    else
      match newBob S sha256 recipientIdentity (bobRand deviceId) with
      | .error e => .error (.establishment deviceId e)
      | .ok receiver =>
        match receiver.publishBundle with
        | .error e => .error (.establishment deviceId e)
        | .ok bundle =>
          match newAlice S sha256 sender bundle (aliceRand deviceId) with
          | .error e => .error (.establishment deviceId e)
          | .ok outbound =>
            match f.identityToDevice[identityHash S sha256 recipientIdentity]? with
            | some existing => .error (.duplicateIdentity existing)
            | none =>
              establishLoop sender bobRand aliceRand devices
                { senderSessions := f.senderSessions.insert deviceId outbound
                  identityToDevice :=
                    f.identityToDevice.insert (identityHash S sha256 recipientIdentity) deviceId
                  receiverSessions := f.receiverSessions.insert deviceId receiver }

/-- `FanoutSession::establish`. -/
def establish (sender : IdentityKeyPair Key) (bobRand aliceRand : DeviceId → Rand)
    (devices : List (DeviceId × IdentityKeyPair Key)) :
    Except FanoutError (FanoutSession Key Sess) :=
  if devices = [] then .error .noDevices
  else establishLoop S sha256 sender bobRand aliceRand devices ⟨∅, ∅, ∅⟩

/-- The loop of `encrypt_to_all`, over the device ids left, with the ciphertexts so far. -/
def encryptLoop (plaintext : Bytes) (rand : DeviceId → Rand) :
    List DeviceId → Std.TreeMap DeviceId (RatchetSession Key Sess) → List Ciphertext →
    Std.TreeMap DeviceId (RatchetSession Key Sess) × Outcome FanoutError (List Ciphertext)
  | [], sessions, out => (sessions, .ok out)
  | deviceId :: deviceIds, sessions, out =>
    match sessions[deviceId]? with
    | none => (sessions, .panic)
    | some session =>
      let sealed := session.encrypt S plaintext (rand deviceId)
      match sealed.2 with
      | .error e => (sessions.insert deviceId sealed.1, .err (.encrypt deviceId e))
      | .ok envelope =>
        encryptLoop plaintext rand deviceIds (sessions.insert deviceId sealed.1)
          (out ++ [⟨deviceId, envelope⟩])

/-- `FanoutSession::encrypt_to_all`. -/
def FanoutSession.encryptToAll (f : FanoutSession Key Sess) (plaintext : Bytes)
    (rand : DeviceId → Rand) : FanoutSession Key Sess × Outcome FanoutError (List Ciphertext) :=
  let out := encryptLoop S plaintext rand f.senderSessions.keys f.senderSessions []
  ({ f with senderSessions := out.1 }, out.2)

/-- `FanoutSession::decrypt_as`. -/
def FanoutSession.decryptAs (f : FanoutSession Key Sess) (deviceIdentity : IdentityKeyPair Key)
    (ciphertext : Ciphertext) (rand : Rand) : FanoutSession Key Sess × Outcome FanoutError Bytes :=
  match f.identityToDevice[identityHash S sha256 deviceIdentity]? with
  | none => (f, .err .unknownIdentity)
  | some deviceId =>
    if ciphertext.device ≠ deviceId then (f, .err (.deviceMismatch ciphertext.device deviceId))
    else
      match f.receiverSessions[deviceId]? with
      | none => (f, .panic)
      | some session =>
        let opened := session.decrypt S sha256 ciphertext.envelope rand
        ({ f with receiverSessions := f.receiverSessions.insert deviceId opened.1 },
          match opened.2 with
          | .error e => .err (.decrypt deviceId e)
          | .ok plaintext => .ok plaintext)

/-- `FanoutSession::remove_device`, which never errors. -/
def FanoutSession.removeDevice (f : FanoutSession Key Sess) (deviceId : DeviceId) :
    FanoutSession Key Sess where
  senderSessions := f.senderSessions.erase deviceId
  receiverSessions := f.receiverSessions.erase deviceId
  identityToDevice := f.identityToDevice.filter fun _ d => decide (d ≠ deviceId)

/-! ## A paired sender and receiver -/

/-- The two ends of one device's ratchet, with the envelopes the sender has made, each with its
    plaintext, and the envelopes the receiver has been given. -/
structure Pair (Key Sess : Type) where
  sender : RatchetSession Key Sess
  receiver : RatchetSession Key Sess
  sent : List (Bytes × Bytes)
  given : List Bytes

/-- What can happen to a pair. -/
inductive PairEvent (Rand : Type) where
  | encrypt (plaintext : Bytes) (rand : Rand)
  | decrypt (envelope : Bytes) (rand : Rand)

/-- One step of a pair. -/
def Pair.step (p : Pair Key Sess) : PairEvent Rand → Pair Key Sess
  | .encrypt plaintext rand =>
    let sealed := p.sender.encrypt S plaintext rand
    { p with
      sender := sealed.1
      sent := p.sent ++ (match sealed.2 with
        | .error _ => []
        | .ok envelope => [(envelope, plaintext)]) }
  | .decrypt envelope rand =>
    { p with
      receiver := (p.receiver.decrypt S sha256 envelope rand).1
      given := p.given ++ [envelope] }

/-- The pair `establish` makes for a device. -/
def Pairs (alice bob : RatchetSession Key Sess) : Prop :=
  ∃ identity rand bundle sender rand', newBob S sha256 identity rand = .ok bob ∧
    bob.publishBundle = .ok bundle ∧ newAlice S sha256 sender bundle rand' = .ok alice

/-- A pair made by `establish`, after some events. -/
def Pair.Reachable (p : Pair Key Sess) : Prop :=
  ∃ alice bob, Pairs S sha256 alice bob ∧
    ∃ events : List (PairEvent Rand), p = run (Pair.step S sha256) ⟨alice, bob, [], []⟩ events

/-- Establishment succeeds. -/
structure Establishes : Prop where
  newBob : ∀ identity rand, ∃ bob, newBob S sha256 identity rand = .ok bob
  newAlice : ∀ identity rand bob bundle, Crypto.newBob S sha256 identity rand = .ok bob →
    bob.publishBundle = .ok bundle → ∀ sender rand', ∃ alice,
    Crypto.newAlice S sha256 sender bundle rand' = .ok alice

variable {S sha256}

variable (S) in
/-- The sender of the pair can encrypt. -/
def Pair.Encrypts (p : Pair Key Sess) : Prop :=
  ∀ plaintext rand, ∃ envelope, (p.sender.encrypt S plaintext rand).2 = .ok envelope

variable (S sha256) in
/-- The receiver of the pair decrypts each envelope of its sender once. -/
def Pair.Decrypts (p : Pair Key Sess) : Prop :=
  ∀ envelope plaintext, (envelope, plaintext) ∈ p.sent → envelope ∉ p.given → ∀ rand,
    (p.receiver.decrypt S sha256 envelope rand).2 = .ok plaintext

variable (S sha256)

/-! ## Histories -/

/-- A fan-out with what has happened: the devices removed, the ciphertexts `encrypt_to_all` has
    returned, each with its plaintext, and what `decrypt_as` has been asked, identity key first. -/
structure FanoutRun (Key Sess : Type) where
  session : FanoutSession Key Sess
  removed : List DeviceId
  returned : List (Ciphertext × Bytes)
  asked : List (Key × Ciphertext)

/-- The calls. -/
inductive FanoutCall (Key Rand : Type) where
  | encryptToAll (plaintext : Bytes) (rand : DeviceId → Rand)
  | decryptAs (deviceIdentity : IdentityKeyPair Key) (ciphertext : Ciphertext) (rand : Rand)
  | removeDevice (deviceId : DeviceId)

/-- One call. -/
def FanoutRun.step (s : FanoutRun Key Sess) : FanoutCall Key Rand → FanoutRun Key Sess
  | .encryptToAll plaintext rand =>
    let out := s.session.encryptToAll S plaintext rand
    { s with
      session := out.1
      returned := s.returned ++ (match out.2 with
        | .ok ciphertexts => ciphertexts.map fun c => (c, plaintext)
        | _ => []) }
  | .decryptAs deviceIdentity ciphertext rand =>
    { s with
      session := (s.session.decryptAs S sha256 deviceIdentity ciphertext rand).1
      asked := s.asked ++ [(deviceIdentity.identityKey, ciphertext)] }
  | .removeDevice deviceId =>
    { s with
      session := s.session.removeDevice deviceId
      removed := s.removed ++ [deviceId] }

/-- A fan-out just established. -/
def FanoutRun.start (f : FanoutSession Key Sess) : FanoutRun Key Sess := ⟨f, [], [], []⟩

/-- The device was linked with this identity key and has not been removed. -/
def FanoutRun.Linked (devices : List (DeviceId × IdentityKeyPair Key)) (s : FanoutRun Key Sess)
    (deviceId : DeviceId) (key : Key) : Prop :=
  (∃ identity, (deviceId, identity) ∈ devices ∧ identity.identityKey = key) ∧ deviceId ∉ s.removed

/-! ## What each call does to the maps -/

variable {S sha256}

theorem getElem?_insert_ne {α β : Type} [Ord α] [Std.TransOrd α] [Std.LawfulEqOrd α]
    {t : Std.TreeMap α β} {k a : α} {v : β} (h : a ≠ k) : (t.insert k v)[a]? = t[a]? := by
  rw [Std.TreeMap.getElem?_insert, if_neg]
  intro heq
  exact h (Std.compare_eq_iff_eq.mp heq).symm

theorem getElem?_erase_ne {α β : Type} [Ord α] [Std.TransOrd α] [Std.LawfulEqOrd α]
    {t : Std.TreeMap α β} {k a : α} (h : a ≠ k) : (t.erase k)[a]? = t[a]? := by
  rw [Std.TreeMap.getElem?_erase, if_neg]
  intro heq
  exact h (Std.compare_eq_iff_eq.mp heq).symm

variable (S) in
/-- The sessions after a pass over some devices: each is as it was or has encrypted once. -/
def Advanced (plaintext : Bytes) (rand : DeviceId → Rand) (deviceIds : List DeviceId)
    (before after : Std.TreeMap DeviceId (RatchetSession Key Sess)) : Prop :=
  ∀ d, after[d]? = before[d]? ∨ d ∈ deviceIds ∧
    ∃ session : RatchetSession Key Sess, before[d]? = some session ∧
      after[d]? = some (session.encrypt S plaintext (rand d)).1

variable (S) in
/-- What a complete pass returns: one ciphertext per device, in the order of the pass, each made by
    the session of its device, which has then encrypted. -/
structure AllSealed (plaintext : Bytes) (rand : DeviceId → Rand) (deviceIds : List DeviceId)
    (before after : Std.TreeMap DeviceId (RatchetSession Key Sess))
    (ciphertexts : List Ciphertext) : Prop where
  devices : ciphertexts.map Ciphertext.device = deviceIds
  made : ∀ c ∈ ciphertexts, ∃ session : RatchetSession Key Sess,
    before[c.device]? = some session ∧
    after[c.device]? = some (session.encrypt S plaintext (rand c.device)).1 ∧
    (session.encrypt S plaintext (rand c.device)).2 = .ok c.envelope

/-- The loop of `encrypt_to_all`: it does not panic, and stops early only where a ratchet fails. -/
theorem encryptLoop_spec (plaintext : Bytes) (rand : DeviceId → Rand) {deviceIds : List DeviceId}
    {sessions : Std.TreeMap DeviceId (RatchetSession Key Sess)} (out : List Ciphertext)
    (hnodup : deviceIds.Nodup) (hmem : ∀ d ∈ deviceIds, d ∈ sessions) :
    Advanced S plaintext rand deviceIds sessions
      (encryptLoop S plaintext rand deviceIds sessions out).1 ∧
    ((∃ ciphertexts,
        (encryptLoop S plaintext rand deviceIds sessions out).2 = .ok (out ++ ciphertexts) ∧
        AllSealed S plaintext rand deviceIds sessions
          (encryptLoop S plaintext rand deviceIds sessions out).1 ciphertexts) ∨
      ∃ d ∈ deviceIds, ∃ e session,
        (encryptLoop S plaintext rand deviceIds sessions out).2 = .err (.encrypt d e) ∧
        sessions[d]? = some session ∧
        (session.encrypt S plaintext (rand d)).2 = .error e) := by
  induction deviceIds generalizing sessions out with
  | nil =>
    refine ⟨fun d => .inl rfl, .inl ⟨[], ?_, rfl, ?_⟩⟩
    · rw [List.append_nil]
      rfl
    · intro c hc
      exact absurd hc List.not_mem_nil
  | cons d deviceIds ih =>
    obtain ⟨hd, hnodup⟩ := List.nodup_cons.mp hnodup
    obtain ⟨session, hsession⟩ := Option.isSome_iff_exists.mp
      (Std.TreeMap.mem_iff_isSome_getElem?.mp (hmem d List.mem_cons_self))
    rw [encryptLoop, hsession]
    dsimp only
    cases hsealed : (session.encrypt S plaintext (rand d)).2 with
    | error e =>
      refine ⟨?_, .inr ⟨d, List.mem_cons_self, e, session, rfl, hsession, hsealed⟩⟩
      intro d'
      by_cases heq : d' = d
      · subst heq
        exact .inr ⟨List.mem_cons_self, session, hsession, Std.TreeMap.getElem?_insert_self⟩
      · exact .inl (getElem?_insert_ne heq)
    | ok envelope =>
      dsimp only
      have hmem' : ∀ d' ∈ deviceIds,
          d' ∈ sessions.insert d (session.encrypt S plaintext (rand d)).1 := by
        intro d' hd'
        exact Std.TreeMap.mem_insert.mpr (.inr (hmem d' (List.mem_cons_of_mem d hd')))
      obtain ⟨hadv, hres⟩ := ih (out ++ [⟨d, envelope⟩]) hnodup hmem'
      generalize hloop : encryptLoop S plaintext rand deviceIds
        (sessions.insert d (session.encrypt S plaintext (rand d)).1)
        (out ++ [⟨d, envelope⟩]) = result at hadv hres
      -- the rest of the pass leaves this device alone, and found the others untouched
      have hself : result.1[d]? = some (session.encrypt S plaintext (rand d)).1 := by
        rcases hadv d with hsame | ⟨hin, -⟩
        · rw [hsame, Std.TreeMap.getElem?_insert_self]
        · exact absurd hin hd
      have hother : ∀ d' ∈ deviceIds, ∀ session',
          (sessions.insert d (session.encrypt S plaintext (rand d)).1)[d']? = some session' →
          sessions[d']? = some session' := by
        intro d' hd' session' hget
        rwa [getElem?_insert_ne (ne_of_mem_of_not_mem hd' hd)] at hget
      refine ⟨?_, ?_⟩
      · intro d'
        by_cases heq : d' = d
        · subst heq
          exact .inr ⟨List.mem_cons_self, session, hsession, hself⟩
        · rcases hadv d' with hsame | ⟨hin, session', hget, hafter⟩
          · exact .inl (hsame.trans (getElem?_insert_ne heq))
          · exact .inr ⟨List.mem_cons_of_mem d hin, session', hother d' hin session' hget, hafter⟩
      · rcases hres with ⟨ciphertexts, hok, hall⟩ |
          ⟨d', hin, e, session', herr, hget, hfail⟩
        · left
          refine ⟨⟨d, envelope⟩ :: ciphertexts, ?_, ?_, ?_⟩
          · rw [hok, List.append_assoc]
            rfl
          · rw [List.map_cons, hall.devices]
          · intro c hc
            rcases List.mem_cons.mp hc with rfl | hc
            · exact ⟨session, hsession, hself, hsealed⟩
            · obtain ⟨session', hget, hafter, hmade⟩ := hall.made c hc
              have hin : c.device ∈ deviceIds := by
                rw [← hall.devices]
                exact List.mem_map_of_mem hc
              exact ⟨session', hother c.device hin session' hget, hafter, hmade⟩
        · exact .inr ⟨d', List.mem_cons_of_mem d hin, e, session', herr,
            hother d' hin session' hget, hfail⟩

/-- `encrypt_to_all` passes over all sender sessions. -/
theorem encryptToAll_spec (f : FanoutSession Key Sess) (plaintext : Bytes)
    (rand : DeviceId → Rand) :
    Advanced S plaintext rand f.senderSessions.keys f.senderSessions
      (f.encryptToAll S plaintext rand).1.senderSessions ∧
    ((∃ ciphertexts, (f.encryptToAll S plaintext rand).2 = .ok ciphertexts ∧
        AllSealed S plaintext rand f.senderSessions.keys f.senderSessions
          (f.encryptToAll S plaintext rand).1.senderSessions ciphertexts) ∨
      ∃ d ∈ f.senderSessions.keys, ∃ e session,
        (f.encryptToAll S plaintext rand).2 = .err (.encrypt d e) ∧
        f.senderSessions[d]? = some session ∧
        (session.encrypt S plaintext (rand d)).2 = .error e) :=
  encryptLoop_spec plaintext rand [] Std.TreeMap.nodup_keys fun _ => Std.TreeMap.mem_keys.mp

variable (S sha256) in
/-- The outcomes of `decrypt_as`. -/
theorem decryptAs_cases (f : FanoutSession Key Sess) (identity : IdentityKeyPair Key)
    (c : Ciphertext) (rand : Rand) :
    (f.identityToDevice[identityHash S sha256 identity]? = none ∧
      f.decryptAs S sha256 identity c rand = (f, .err .unknownIdentity)) ∨
    (∃ d, f.identityToDevice[identityHash S sha256 identity]? = some d ∧ c.device ≠ d ∧
      f.decryptAs S sha256 identity c rand = (f, .err (.deviceMismatch c.device d))) ∨
    (f.identityToDevice[identityHash S sha256 identity]? = some c.device ∧
      ((f.receiverSessions[c.device]? = none ∧
          f.decryptAs S sha256 identity c rand = (f, .panic)) ∨
        ∃ session, f.receiverSessions[c.device]? = some session ∧
          f.decryptAs S sha256 identity c rand =
            ({ f with receiverSessions :=
                f.receiverSessions.insert c.device (session.decrypt S sha256 c.envelope rand).1 },
              match (session.decrypt S sha256 c.envelope rand).2 with
              | .error e => .err (.decrypt c.device e)
              | .ok plaintext => .ok plaintext))) := by
  rw [FanoutSession.decryptAs]
  cases hid : f.identityToDevice[identityHash S sha256 identity]? with
  | none => exact .inl ⟨rfl, rfl⟩
  | some d =>
    right
    by_cases hdev : c.device = d
    · right
      subst hdev
      refine ⟨rfl, ?_⟩
      dsimp only
      rw [if_neg (not_not_intro rfl)]
      cases hrec : f.receiverSessions[c.device]? with
      | none => exact .inl ⟨rfl, rfl⟩
      | some session => exact .inr ⟨session, rfl, rfl⟩
    · exact .inl ⟨d, rfl, hdev, if_pos hdev⟩

/-! ## The invariant -/

/-- A pair keeps being one. -/
theorem Pair.Reachable.step {p : Pair Key Sess} (h : p.Reachable S sha256) (e : PairEvent Rand) :
    (p.step S sha256 e).Reachable S sha256 := by
  obtain ⟨alice, bob, hpairs, events, rfl⟩ := h
  exact ⟨alice, bob, hpairs, events ++ [e], (run_concat ..).symm⟩

variable (S sha256) in
/-- The two sessions of a linked device are the ends of a pair whose sender has made what was
    returned for the device, and whose receiver has been given only what was asked for it. -/
structure FanoutRun.Backed (s : FanoutRun Key Sess) (d : DeviceId) (key : Key)
    (p : Pair Key Sess) : Prop where
  reachable : p.Reachable S sha256
  sender : s.session.senderSessions[d]? = some p.sender
  receiver : s.session.receiverSessions[d]? = some p.receiver
  sent : ∀ c plaintext, (c, plaintext) ∈ s.returned → c.device = d →
    (c.envelope, plaintext) ∈ p.sent
  given : ∀ envelope ∈ p.given, ∃ key', (key', ⟨d, envelope⟩) ∈ s.asked ∧
    hashOfIdentityKey S sha256 key' = hashOfIdentityKey S sha256 key

variable (S sha256) in
/-- The three maps hold exactly the linked devices. -/
structure FanoutRun.Inv (devices : List (DeviceId × IdentityKeyPair Key))
    (s : FanoutRun Key Sess) : Prop where
  sender : ∀ d ∈ s.session.senderSessions, ∃ key, s.Linked devices d key
  receiver : ∀ d ∈ s.session.receiverSessions, ∃ key, s.Linked devices d key
  identity : ∀ hash d, s.session.identityToDevice[hash]? = some d ↔
    ∃ key, s.Linked devices d key ∧ hashOfIdentityKey S sha256 key = hash
  backed : ∀ d key, s.Linked devices d key → ∃ p, s.Backed S sha256 d key p

/-- A linked device has a sender session: the `expect` of `encrypt_to_all` is met. -/
theorem FanoutRun.Inv.mem_sender {devices : List (DeviceId × IdentityKeyPair Key)}
    {s : FanoutRun Key Sess} (hs : s.Inv S sha256 devices) {d : DeviceId} {key : Key}
    (h : s.Linked devices d key) : d ∈ s.session.senderSessions := by
  obtain ⟨p, hp⟩ := hs.backed d key h
  rw [Std.TreeMap.mem_iff_isSome_getElem?, hp.sender]
  rfl

/-- It has a receiver session: so is that of `decrypt_as`. -/
theorem FanoutRun.Inv.mem_receiver {devices : List (DeviceId × IdentityKeyPair Key)}
    {s : FanoutRun Key Sess} (hs : s.Inv S sha256 devices) {d : DeviceId} {key : Key}
    (h : s.Linked devices d key) : d ∈ s.session.receiverSessions := by
  obtain ⟨p, hp⟩ := hs.backed d key h
  rw [Std.TreeMap.mem_iff_isSome_getElem?, hp.receiver]
  rfl

/-- A pass that reached the device has moved its pair. -/
theorem FanoutRun.Backed.encrypt {s s' : FanoutRun Key Sess} {d : DeviceId} {key : Key}
    {p : Pair Key Sess} (hp : s.Backed S sha256 d key p) {plaintext : Bytes} {rand : Rand}
    (hsender : s'.session.senderSessions[d]? = some (p.sender.encrypt S plaintext rand).1)
    (hreceiver : s'.session.receiverSessions = s.session.receiverSessions)
    (hasked : s'.asked = s.asked)
    (hreturned : ∀ c plaintext', (c, plaintext') ∈ s'.returned → c.device = d →
      (c, plaintext') ∈ s.returned ∨
        plaintext' = plaintext ∧ (p.sender.encrypt S plaintext rand).2 = .ok c.envelope) :
    s'.Backed S sha256 d key (p.step S sha256 (.encrypt plaintext rand)) where
  reachable := hp.reachable.step _
  sender := hsender
  receiver := by
    rw [hreceiver]
    exact hp.receiver
  sent := by
    intro c plaintext' hmem hdev
    show (c.envelope, plaintext') ∈ p.sent ++ _
    rcases hreturned c plaintext' hmem hdev with hold | ⟨rfl, hmade⟩
    · exact List.mem_append_left _ (hp.sent c plaintext' hold hdev)
    · rw [hmade]
      exact List.mem_append_right _ List.mem_cons_self
  given := by
    rw [hasked]
    exact hp.given

/-- `encrypt_to_all` keeps the invariant, whether or not it gets through. -/
theorem FanoutRun.Inv.encryptToAll {devices : List (DeviceId × IdentityKeyPair Key)}
    {s : FanoutRun Key Sess} (hs : s.Inv S sha256 devices) (plaintext : Bytes)
    (rand : DeviceId → Rand) :
    (s.step S sha256 (.encryptToAll plaintext rand)).Inv S sha256 devices := by
  obtain ⟨hadv, hres⟩ := encryptToAll_spec (S := S) s.session plaintext rand
  refine ⟨?_, hs.receiver, hs.identity, ?_⟩
  · intro d hd
    refine hs.sender d ?_
    have hd' : d ∈ (s.session.encryptToAll S plaintext rand).1.senderSessions := hd
    rw [Std.TreeMap.mem_iff_isSome_getElem?] at hd' ⊢
    rcases hadv d with hsame | ⟨-, session, hget, -⟩
    · rwa [hsame] at hd'
    · rw [hget]
      rfl
  · intro d key hlinked
    obtain ⟨p, hp⟩ := hs.backed d key hlinked
    rcases hres with ⟨ciphertexts, hok, hall⟩ | ⟨d', -, e, session, herr, -, -⟩
    · -- the pass was complete, so it reached this device
      have hmade : ∀ c ∈ ciphertexts, c.device = d →
          (s.session.encryptToAll S plaintext rand).1.senderSessions[d]? =
              some (p.sender.encrypt S plaintext (rand d)).1 ∧
            (p.sender.encrypt S plaintext (rand d)).2 = .ok c.envelope := by
        rintro c hc rfl
        obtain ⟨session, hget, hafter, hok⟩ := hall.made c hc
        obtain rfl : session = p.sender := Option.some.inj (hget.symm.trans hp.sender)
        exact ⟨hafter, hok⟩
      have hkeys : d ∈ ciphertexts.map Ciphertext.device := by
        rw [hall.devices, Std.TreeMap.mem_keys]
        exact hs.mem_sender hlinked
      obtain ⟨c, hc, hdev⟩ := List.mem_map.mp hkeys
      refine ⟨_, hp.encrypt (hmade c hc hdev).1 rfl rfl ?_⟩
      intro c' plaintext' hmem hdev'
      have hmem' : (c', plaintext') ∈ s.returned ++ ciphertexts.map fun c => (c, plaintext) := by
        have hret : (s.step S sha256 (.encryptToAll plaintext rand)).returned =
            s.returned ++ ciphertexts.map fun c => (c, plaintext) := by
          show s.returned ++ _ = _
          rw [hok]
        rwa [hret] at hmem
      rcases List.mem_append.mp hmem' with hold | hnew
      · exact .inl hold
      · obtain ⟨c'', hc'', heq⟩ := List.mem_map.mp hnew
        obtain ⟨rfl, rfl⟩ := Prod.mk.inj heq
        exact .inr ⟨rfl, (hmade c'' hc'' hdev').2⟩
    · -- nothing was returned; the pass may or may not have reached this device
      have hret : (s.step S sha256 (.encryptToAll plaintext rand)).returned = s.returned := by
        show s.returned ++ _ = _
        rw [herr, List.append_nil]
      rcases hadv d with hsame | ⟨-, session', hget, hafter⟩
      · exact ⟨p, hp.reachable, hsame.trans hp.sender, hp.receiver, by rw [hret]; exact hp.sent,
          hp.given⟩
      · obtain rfl : session' = p.sender := Option.some.inj (hget.symm.trans hp.sender)
        exact ⟨_, hp.encrypt hafter rfl rfl fun c pt hmem _ => .inl (by rwa [hret] at hmem)⟩

/-- A device has one key. -/
theorem FanoutRun.Linked.key_unique {devices : List (DeviceId × IdentityKeyPair Key)}
    {s : FanoutRun Key Sess} (hids : (devices.map Prod.fst).Nodup) {d : DeviceId} {key key' : Key}
    (h : s.Linked devices d key) (h' : s.Linked devices d key') : key = key' := by
  obtain ⟨⟨identity, hmem, rfl⟩, -⟩ := h
  obtain ⟨⟨identity', hmem', rfl⟩, -⟩ := h'
  have heq := List.inj_on_of_nodup_map hids hmem hmem' rfl
  rw [(Prod.mk.inj heq).2]

/-- `decrypt_as` keeps the invariant. -/
theorem FanoutRun.Inv.decryptAs {devices : List (DeviceId × IdentityKeyPair Key)}
    {s : FanoutRun Key Sess} (hids : (devices.map Prod.fst).Nodup) (hs : s.Inv S sha256 devices)
    (identity : IdentityKeyPair Key) (c : Ciphertext) (rand : Rand) :
    (s.step S sha256 (.decryptAs identity c rand)).Inv S sha256 devices := by
  have hsession : (s.step S sha256 (.decryptAs identity c rand)).session =
      (s.session.decryptAs S sha256 identity c rand).1 := rfl
  have hasked : ∀ q, q ∈ s.asked → q ∈ (s.step S sha256 (.decryptAs identity c rand)).asked :=
    fun q hq => List.mem_append_left _ hq
  -- a device whose sessions have not moved
  have hkept : ∀ {d key p}, s.Backed S sha256 d key p →
      (s.step S sha256 (.decryptAs identity c rand)).session.senderSessions[d]? =
        s.session.senderSessions[d]? →
      (s.step S sha256 (.decryptAs identity c rand)).session.receiverSessions[d]? =
        s.session.receiverSessions[d]? →
      (s.step S sha256 (.decryptAs identity c rand)).Backed S sha256 d key p := by
    intro d key p hp hsend hrec
    refine ⟨hp.reachable, hsend.trans hp.sender, hrec.trans hp.receiver, hp.sent, ?_⟩
    intro envelope hgiven
    obtain ⟨key', hmem, hhash⟩ := hp.given envelope hgiven
    exact ⟨key', hasked _ hmem, hhash⟩
  have hrejected : (s.session.decryptAs S sha256 identity c rand).1 = s.session →
      (s.step S sha256 (.decryptAs identity c rand)).Inv S sha256 devices := by
    intro hsame
    rw [hsame] at hsession
    refine ⟨by rw [hsession]; exact hs.sender, by rw [hsession]; exact hs.receiver,
      by rw [hsession]; exact hs.identity, ?_⟩
    intro d key hlinked
    obtain ⟨p, hp⟩ := hs.backed d key hlinked
    exact ⟨p, hkept hp (by rw [hsession]) (by rw [hsession])⟩
  rcases decryptAs_cases S sha256 s.session identity c rand with
    ⟨-, hout⟩ | ⟨d, -, -, hout⟩ | ⟨hid, ⟨-, hout⟩ | ⟨session, hget, hout⟩⟩
  · exact hrejected (by rw [hout])
  · exact hrejected (by rw [hout])
  · exact hrejected (by rw [hout])
  · rw [hout] at hsession
    obtain ⟨key₀, hlinked₀, hhash₀⟩ := (hs.identity _ _).mp hid
    refine ⟨by rw [hsession]; exact hs.sender, ?_, by rw [hsession]; exact hs.identity, ?_⟩
    · intro d hd
      rw [hsession] at hd
      rcases Std.TreeMap.mem_insert.mp hd with heq | hd
      · rw [← Std.compare_eq_iff_eq.mp heq]
        exact ⟨key₀, hlinked₀⟩
      · exact hs.receiver d hd
    · intro d key hlinked
      obtain ⟨p, hp⟩ := hs.backed d key hlinked
      by_cases heq : d = c.device
      · subst heq
        obtain rfl : session = p.receiver := Option.some.inj (hget.symm.trans hp.receiver)
        refine ⟨p.step S sha256 (.decrypt c.envelope rand), hp.reachable.step _, ?_, ?_, hp.sent, ?_⟩
        · rw [hsession]
          exact hp.sender
        · rw [hsession]
          exact Std.TreeMap.getElem?_insert_self
        · intro envelope hgiven
          rcases List.mem_append.mp hgiven with hold | hnew
          · obtain ⟨key', hmem, hhash⟩ := hp.given envelope hold
            exact ⟨key', hasked _ hmem, hhash⟩
          · rw [List.mem_singleton.mp hnew]
            refine ⟨identity.identityKey, List.mem_append_right _ List.mem_cons_self, ?_⟩
            rw [hlinked.key_unique hids hlinked₀]
            exact hhash₀.symm
      · exact ⟨p, hkept hp (by rw [hsession]) (by rw [hsession]; exact getElem?_insert_ne heq)⟩

/-- `remove_device` keeps the invariant. -/
theorem FanoutRun.Inv.removeDevice {devices : List (DeviceId × IdentityKeyPair Key)}
    {s : FanoutRun Key Sess} (hs : s.Inv S sha256 devices) (d₀ : DeviceId) :
    (s.step S sha256 (.removeDevice d₀)).Inv S sha256 devices := by
  have hlinked_iff : ∀ d key, (s.step S sha256 (.removeDevice d₀)).Linked devices d key ↔
      s.Linked devices d key ∧ d ≠ d₀ := by
    intro d key
    show (_ ∧ d ∉ s.removed ++ [d₀]) ↔ (_ ∧ d ∉ s.removed) ∧ d ≠ d₀
    rw [List.mem_append, List.mem_singleton, not_or, and_assoc]
  refine ⟨?_, ?_, ?_, ?_⟩
  · intro d hd
    obtain ⟨hne, hd⟩ := Std.TreeMap.mem_erase.mp hd
    obtain ⟨key, hlinked⟩ := hs.sender d hd
    refine ⟨key, (hlinked_iff d key).mpr ⟨hlinked, ?_⟩⟩
    rintro rfl
    exact hne Std.ReflOrd.compare_self
  · intro d hd
    obtain ⟨hne, hd⟩ := Std.TreeMap.mem_erase.mp hd
    obtain ⟨key, hlinked⟩ := hs.receiver d hd
    refine ⟨key, (hlinked_iff d key).mpr ⟨hlinked, ?_⟩⟩
    rintro rfl
    exact hne Std.ReflOrd.compare_self
  · intro hash d
    show (s.session.identityToDevice.filter _)[hash]? = some d ↔ _
    rw [Std.TreeMap.getElem?_filter', Option.filter_eq_some_iff, hs.identity]
    constructor
    · rintro ⟨⟨key, hlinked, hhash⟩, hne⟩
      exact ⟨key, (hlinked_iff d key).mpr ⟨hlinked, of_decide_eq_true hne⟩, hhash⟩
    · rintro ⟨key, hlinked, hhash⟩
      obtain ⟨hlinked, hne⟩ := (hlinked_iff d key).mp hlinked
      exact ⟨⟨key, hlinked, hhash⟩, decide_eq_true hne⟩
  · intro d key hlinked
    obtain ⟨hlinked, hne⟩ := (hlinked_iff d key).mp hlinked
    obtain ⟨p, hp⟩ := hs.backed d key hlinked
    exact ⟨p, hp.reachable, (getElem?_erase_ne hne).trans hp.sender,
      (getElem?_erase_ne hne).trans hp.receiver, hp.sent, hp.given⟩

/-- Every call keeps the invariant. -/
theorem FanoutRun.Inv.step {devices : List (DeviceId × IdentityKeyPair Key)}
    {s : FanoutRun Key Sess} (hids : (devices.map Prod.fst).Nodup) (hs : s.Inv S sha256 devices)
    (call : FanoutCall Key Rand) : (s.step S sha256 call).Inv S sha256 devices := by
  cases call with
  | encryptToAll plaintext rand => exact hs.encryptToAll plaintext rand
  | decryptAs identity c rand => exact hs.decryptAs hids identity c rand
  | removeDevice d => exact hs.removeDevice d

/-! ## `establish` -/

/-- A device list without duplicates, for a fan-out that has its devices: its keys differ too. -/
theorem FanoutRun.Inv.keys_nodup {devices : List (DeviceId × IdentityKeyPair Key)}
    {f : FanoutSession Key Sess} (hids : (devices.map Prod.fst).Nodup)
    (hf : (FanoutRun.start f).Inv S sha256 devices) :
    (devices.map fun x => x.2.identityKey).Nodup := by
  have hlinked : ∀ x ∈ devices, f.identityToDevice[identityHash S sha256 x.2]? = some x.1 := by
    intro x hx
    exact (hf.identity _ _).mpr ⟨x.2.identityKey, ⟨⟨x.2, hx, rfl⟩, List.not_mem_nil⟩, rfl⟩
  refine List.pairwise_map.mpr ((List.pairwise_map.mp hids).imp_of_mem ?_)
  intro x y hx hy hne hkey
  have hhash : identityHash S sha256 x.2 = identityHash S sha256 y.2 :=
    congrArg (hashOfIdentityKey S sha256) hkey
  have hx' := hlinked x hx
  rw [hhash, hlinked y hy] at hx'
  exact hne (Option.some.inj hx').symm

/-- Of two fan-outs just established, the second with one device more, the second has that device linked as well. -/
theorem FanoutRun.linked_concat (f f' : FanoutSession Key Sess) (linked : List (DeviceId × IdentityKeyPair Key))
    (d : DeviceId) (identity : IdentityKeyPair Key) (d' : DeviceId) (key : Key) :
    (FanoutRun.start f').Linked (linked ++ [(d, identity)]) d' key ↔
      (FanoutRun.start f).Linked linked d' key ∨ (d' = d ∧ key = identity.identityKey) := by
  constructor
  · rintro ⟨⟨identity', hmem, rfl⟩, hrem⟩
    rcases List.mem_append.mp hmem with hold | hnew
    · exact .inl ⟨⟨identity', hold, rfl⟩, hrem⟩
    · obtain ⟨rfl, rfl⟩ := Prod.mk.inj (List.mem_singleton.mp hnew)
      exact .inr ⟨rfl, rfl⟩
  · rintro (⟨⟨identity', hold, rfl⟩, hrem⟩ | ⟨rfl, rfl⟩)
    · exact ⟨⟨identity', List.mem_append_left _ hold, rfl⟩, hrem⟩
    · exact ⟨⟨identity, List.mem_append_right _ List.mem_cons_self, rfl⟩, List.not_mem_nil⟩

/-- A device added to a fan-out that does not know its id or the hash of its key. -/
theorem FanoutRun.Inv.link {linked : List (DeviceId × IdentityKeyPair Key)}
    {f : FanoutSession Key Sess} (hf : (FanoutRun.start f).Inv S sha256 linked) {d : DeviceId}
    {identity : IdentityKeyPair Key} {alice bob : RatchetSession Key Sess}
    (hpairs : Pairs S sha256 alice bob) (hd : d ∉ f.senderSessions)
    (hid : f.identityToDevice[identityHash S sha256 identity]? = none) :
    (FanoutRun.start
      { senderSessions := f.senderSessions.insert d alice
        identityToDevice := f.identityToDevice.insert (identityHash S sha256 identity) d
        receiverSessions := f.receiverSessions.insert d bob }).Inv S sha256
      (linked ++ [(d, identity)]) := by
  have hlinked_iff := FanoutRun.linked_concat f
    ⟨f.senderSessions.insert d alice, f.identityToDevice.insert (identityHash S sha256 identity) d,
      f.receiverSessions.insert d bob⟩ linked d identity
  have hfresh : ∀ d' key, (FanoutRun.start f).Linked linked d' key → d' ≠ d := by
    rintro d' key hlinked rfl
    exact hd (hf.mem_sender hlinked)
  refine ⟨?_, ?_, ?_, ?_⟩
  · intro d' hd'
    rcases Std.TreeMap.mem_insert.mp hd' with heq | hold
    · rw [← Std.compare_eq_iff_eq.mp heq]
      exact ⟨_, (hlinked_iff d _).mpr (.inr ⟨rfl, rfl⟩)⟩
    · obtain ⟨key, hlinked⟩ := hf.sender d' hold
      exact ⟨key, (hlinked_iff d' key).mpr (.inl hlinked)⟩
  · intro d' hd'
    rcases Std.TreeMap.mem_insert.mp hd' with heq | hold
    · rw [← Std.compare_eq_iff_eq.mp heq]
      exact ⟨_, (hlinked_iff d _).mpr (.inr ⟨rfl, rfl⟩)⟩
    · obtain ⟨key, hlinked⟩ := hf.receiver d' hold
      exact ⟨key, (hlinked_iff d' key).mpr (.inl hlinked)⟩
  · intro hash d'
    show (f.identityToDevice.insert (identityHash S sha256 identity) d)[hash]? = some d' ↔ _
    by_cases hhash : hash = identityHash S sha256 identity
    · subst hhash
      rw [Std.TreeMap.getElem?_insert_self]
      constructor
      · intro heq
        exact ⟨_, (hlinked_iff d' _).mpr (.inr ⟨(Option.some.inj heq).symm, rfl⟩), rfl⟩
      · rintro ⟨key, hlinked, hkey⟩
        rcases (hlinked_iff d' key).mp hlinked with hold | ⟨rfl, -⟩
        · -- the hash was unknown
          have hknown := (hf.identity _ d').mpr ⟨key, hold, hkey⟩
          rw [show (FanoutRun.start f).session = f from rfl, hid] at hknown
          cases hknown
        · rfl
    · rw [getElem?_insert_ne hhash]
      refine (hf.identity hash d').trans ?_
      constructor
      · rintro ⟨key, hlinked, hkey⟩
        exact ⟨key, (hlinked_iff d' key).mpr (.inl hlinked), hkey⟩
      · rintro ⟨key, hlinked, hkey⟩
        rcases (hlinked_iff d' key).mp hlinked with hold | ⟨-, rfl⟩
        · exact ⟨key, hold, hkey⟩
        · exact absurd hkey.symm hhash
  · intro d' key hlinked
    rcases (hlinked_iff d' key).mp hlinked with hold | ⟨rfl, rfl⟩
    · obtain ⟨p, hp⟩ := hf.backed d' key hold
      have hne := hfresh d' key hold
      exact ⟨p, hp.reachable, (getElem?_insert_ne hne).trans hp.sender,
        (getElem?_insert_ne hne).trans hp.receiver, hp.sent, hp.given⟩
    · refine ⟨⟨alice, bob, [], []⟩, ⟨alice, bob, hpairs, [], rfl⟩,
        Std.TreeMap.getElem?_insert_self, Std.TreeMap.getElem?_insert_self, ?_, ?_⟩
      · intro c plaintext hmem
        exact absurd hmem List.not_mem_nil
      · intro envelope hmem
        exact absurd hmem List.not_mem_nil

/-- The loop of `establish`, when it gets through. -/
theorem establishLoop_ok {sender : IdentityKeyPair Key} {bobRand aliceRand : DeviceId → Rand}
    {devices linked : List (DeviceId × IdentityKeyPair Key)} {f f' : FanoutSession Key Sess}
    (hids : (linked.map Prod.fst).Nodup) (hf : (FanoutRun.start f).Inv S sha256 linked)
    (h : establishLoop S sha256 sender bobRand aliceRand devices f = .ok f') :
    ((linked ++ devices).map Prod.fst).Nodup ∧
      (FanoutRun.start f').Inv S sha256 (linked ++ devices) := by
  induction devices generalizing linked f with
  | nil =>
    obtain rfl := Except.ok.inj h
    rw [List.append_nil]
    exact ⟨hids, hf⟩
  | cons x devices ih =>
    obtain ⟨d, identity⟩ := x
    rw [establishLoop] at h
    split at h
    · cases h
    · rename_i hd
      split at h
      · cases h
      · rename_i bob hbob
        split at h
        · cases h
        · rename_i bundle hbundle
          split at h
          · cases h
          · rename_i alice halice
            split at h
            · cases h
            · rename_i hid
              have hnew := hf.link ⟨_, _, bundle, _, _, hbob, hbundle, halice⟩ hd hid
              have hids' : ((linked ++ [(d, identity)]).map Prod.fst).Nodup := by
                rw [List.map_append, List.nodup_append']
                refine ⟨hids, List.nodup_singleton d, List.disjoint_singleton.mpr ?_⟩
                intro hmem
                obtain ⟨x, hx, rfl⟩ := List.mem_map.mp hmem
                exact hd (hf.mem_sender ⟨⟨x.2, hx, rfl⟩, List.not_mem_nil⟩)
              have hres := ih hids' hnew h
              rwa [List.append_assoc] at hres

/-- The loop of `establish` gets through a list that repeats neither a device id nor a key. -/
theorem establishLoop_of_nodup (hest : Establishes S sha256)
    (hcoll : ∀ k k', hashOfIdentityKey S sha256 k = hashOfIdentityKey S sha256 k' → k = k')
    (sender : IdentityKeyPair Key) (bobRand aliceRand : DeviceId → Rand)
    {devices linked : List (DeviceId × IdentityKeyPair Key)} {f : FanoutSession Key Sess}
    (hids : ((linked ++ devices).map Prod.fst).Nodup)
    (hkeys : ((linked ++ devices).map fun x => x.2.identityKey).Nodup)
    (hf : (FanoutRun.start f).Inv S sha256 linked) :
    ∃ f', establishLoop S sha256 sender bobRand aliceRand devices f = .ok f' := by
  induction devices generalizing linked f with
  | nil => exact ⟨f, rfl⟩
  | cons x devices ih =>
    obtain ⟨d, identity⟩ := x
    have hd : d ∉ f.senderSessions := by
      intro hmem
      obtain ⟨key, ⟨identity', hin, -⟩, -⟩ := hf.sender d hmem
      rw [List.map_append, List.nodup_append'] at hids
      exact hids.2.2 (List.mem_map_of_mem hin) List.mem_cons_self
    have hid : f.identityToDevice[identityHash S sha256 identity]? = none := by
      cases hget : f.identityToDevice[identityHash S sha256 identity]? with
      | none => rfl
      | some d' =>
        obtain ⟨key, ⟨⟨identity', hin, hkey'⟩, -⟩, hkey⟩ := (hf.identity _ d').mp hget
        have hsame : identity'.identityKey = identity.identityKey := hkey'.trans (hcoll _ _ hkey)
        rw [List.map_append, List.nodup_append'] at hkeys
        refine absurd ?_ (hkeys.2.2 (List.mem_map_of_mem hin))
        rw [hsame]
        exact List.mem_cons_self
    obtain ⟨bob, hbob⟩ := hest.newBob identity (bobRand d)
    obtain ⟨bundle, -, hbundle, -⟩ := publishBundle_newBob hbob
    obtain ⟨alice, halice⟩ := hest.newAlice identity (bobRand d) bob bundle hbob hbundle sender
      (aliceRand d)
    rw [establishLoop, if_neg hd, hbob]
    dsimp only
    rw [hbundle]
    dsimp only
    rw [halice]
    dsimp only
    rw [hid]
    refine ih ?_ ?_ (hf.link ⟨_, _, bundle, _, _, hbob, hbundle, halice⟩ hd hid)
    · rwa [List.append_assoc]
    · rwa [List.append_assoc]

/-- Before the first device is linked the maps are empty, and so is the list of devices. -/
theorem inv_nil : (FanoutRun.start (⟨∅, ∅, ∅⟩ : FanoutSession Key Sess)).Inv S sha256 [] := by
  refine ⟨?_, ?_, ?_, ?_⟩
  · intro d hd
    exact absurd hd Std.TreeMap.not_mem_emptyc
  · intro d hd
    exact absurd hd Std.TreeMap.not_mem_emptyc
  · intro hash d
    constructor
    · intro hget
      have hempty : (∅ : Std.TreeMap Bytes DeviceId)[hash]? = none := Std.TreeMap.getElem?_emptyc
      rw [show (FanoutRun.start (⟨∅, ∅, ∅⟩ : FanoutSession Key Sess)).session.identityToDevice = ∅
        from rfl, hempty] at hget
      cases hget
    · rintro ⟨key, ⟨⟨identity, hmem, -⟩, -⟩, -⟩
      exact absurd hmem List.not_mem_nil
  · rintro d key ⟨⟨identity, hmem, -⟩, -⟩
    exact absurd hmem List.not_mem_nil

/-- What a successful `establish` returns. -/
theorem establish_ok {sender : IdentityKeyPair Key} {bobRand aliceRand : DeviceId → Rand}
    {devices : List (DeviceId × IdentityKeyPair Key)} {f : FanoutSession Key Sess}
    (h : establish S sha256 sender bobRand aliceRand devices = .ok f) :
    devices ≠ [] ∧ (devices.map Prod.fst).Nodup ∧ (FanoutRun.start f).Inv S sha256 devices := by
  rw [establish] at h
  split at h
  · cases h
  · rename_i hne
    have hnil : (([] : List (DeviceId × IdentityKeyPair Key)).map Prod.fst).Nodup := List.nodup_nil
    obtain ⟨hids, hinv⟩ := establishLoop_ok hnil inv_nil h
    exact ⟨hne, hids, hinv⟩

/-- Exactly when `establish` fails. -/
theorem establish_fails_iff (hest : Establishes S sha256)
    (hcoll : ∀ k k', hashOfIdentityKey S sha256 k = hashOfIdentityKey S sha256 k' → k = k')
    (sender : IdentityKeyPair Key) (bobRand aliceRand : DeviceId → Rand)
    (devices : List (DeviceId × IdentityKeyPair Key)) :
    (∃ e, establish S sha256 sender bobRand aliceRand devices = .error e) ↔
      devices = [] ∨ ¬ (devices.map Prod.fst).Nodup ∨
        ¬ (devices.map fun x => x.2.identityKey).Nodup := by
  constructor
  · rintro ⟨e, he⟩
    by_contra hgood
    push Not at hgood
    obtain ⟨hne, hids, hkeys⟩ := hgood
    rw [← List.nil_append devices] at hids hkeys
    obtain ⟨f, hf⟩ := establishLoop_of_nodup hest hcoll sender bobRand aliceRand hids hkeys inv_nil
    rw [establish, if_neg hne, hf] at he
    cases he
  · intro hbad
    cases hout : establish S sha256 sender bobRand aliceRand devices with
    | error e => exact ⟨e, rfl⟩
    | ok f =>
      obtain ⟨hne, hids, hinv⟩ := establish_ok hout
      rcases hbad with hempty | hdup | hdup
      · exact absurd hempty hne
      · exact absurd hids hdup
      · exact absurd (hinv.keys_nodup hids) hdup

/-! ## What the calls return -/

variable (S sha256) in
/-- The maps hold exactly the linked devices, and every call returns what it should: a complete pass
    where the pairs can encrypt, and the plaintext where the pair of the addressed device works. -/
structure FanoutRun.Correct (devices : List (DeviceId × IdentityKeyPair Key))
    (s : FanoutRun Key Sess) : Prop where
  senders : ∀ d, d ∈ s.session.senderSessions ↔ ∃ key, s.Linked devices d key
  receivers : ∀ d, d ∈ s.session.receiverSessions ↔ ∃ key, s.Linked devices d key
  range : ∀ d, (∃ hash : Bytes, s.session.identityToDevice[hash]? = some d) ↔
    ∃ key, s.Linked devices d key
  injective : ∀ (hash hash' : Bytes) d, s.session.identityToDevice[hash]? = some d →
    s.session.identityToDevice[hash']? = some d → hash = hash'
  encryptNoPanic : ∀ plaintext rand, (s.session.encryptToAll S plaintext rand).2 ≠ .panic
  decryptNoPanic : ∀ identity c rand, (s.session.decryptAs S sha256 identity c rand).2 ≠ .panic
  /-- The sessions of a linked device are the ends of one pair. -/
  backed : ∀ d key, s.Linked devices d key → ∃ p, s.Backed S sha256 d key p
  /-- One ciphertext for each linked device, in ascending order. -/
  encrypts : (∀ d key p, s.Linked devices d key → s.Backed S sha256 d key p → p.Encrypts S) →
    ∀ plaintext rand, ∃ ciphertexts,
      (s.session.encryptToAll S plaintext rand).2 = .ok ciphertexts ∧
      (ciphertexts.map Ciphertext.device).Pairwise (· < ·) ∧
      ∀ d, d ∈ ciphertexts.map Ciphertext.device ↔ ∃ key, s.Linked devices d key
  /-- The addressed device opens a ciphertext the first time it is asked to. -/
  decrypts : ∀ c plaintext, (c, plaintext) ∈ s.returned → ∀ identity,
    s.Linked devices c.device identity.identityKey → (identity.identityKey, c) ∉ s.asked →
    ∀ p, s.Backed S sha256 c.device identity.identityKey p → p.Decrypts S sha256 →
    ∀ rand, (s.session.decryptAs S sha256 identity c rand).2 = .ok plaintext
  mismatch : ∀ identity d, s.Linked devices d identity.identityKey → ∀ c, c.device ≠ d →
    ∀ rand, s.session.decryptAs S sha256 identity c rand =
      (s.session, .err (.deviceMismatch c.device d))
  /-- An identity that was never linked, or whose device has been removed, is unknown. -/
  unknown : ∀ identity, ((∀ d identity', (d, identity') ∈ devices →
      identity'.identityKey ≠ identity.identityKey) ∨
      ∃ d ∈ s.removed, (d, identity) ∈ devices) → ∀ c rand,
    s.session.decryptAs S sha256 identity c rand = (s.session, .err .unknownIdentity)
  /-- Removing a device leaves the others as they are. -/
  frame : ∀ d d', d' ≠ d →
    (s.session.removeDevice d).senderSessions[d']? = s.session.senderSessions[d']? ∧
    (s.session.removeDevice d).receiverSessions[d']? = s.session.receiverSessions[d']? ∧
    ∀ hash : Bytes, (s.session.removeDevice d).identityToDevice[hash]? = some d' ↔
      s.session.identityToDevice[hash]? = some d'

/-- The identity of a linked device resolves to it. -/
theorem FanoutRun.Inv.resolves {devices : List (DeviceId × IdentityKeyPair Key)}
    {s : FanoutRun Key Sess} (hs : s.Inv S sha256 devices) {d : DeviceId}
    {identity : IdentityKeyPair Key} (h : s.Linked devices d identity.identityKey) :
    s.session.identityToDevice[identityHash S sha256 identity]? = some d :=
  (hs.identity _ d).mpr ⟨identity.identityKey, h, rfl⟩

/-- Where the senders can encrypt, a pass is complete and goes over the linked devices in order. -/
theorem FanoutRun.Inv.encrypts {devices : List (DeviceId × IdentityKeyPair Key)}
    {s : FanoutRun Key Sess} (hs : s.Inv S sha256 devices)
    (hworks : ∀ d key p, s.Linked devices d key → s.Backed S sha256 d key p → p.Encrypts S)
    (plaintext : Bytes) (rand : DeviceId → Rand) :
    ∃ ciphertexts, (s.session.encryptToAll S plaintext rand).2 = .ok ciphertexts ∧
      (ciphertexts.map Ciphertext.device).Pairwise (· < ·) ∧
      ∀ d, d ∈ ciphertexts.map Ciphertext.device ↔ ∃ key, s.Linked devices d key := by
  rcases (encryptToAll_spec (S := S) s.session plaintext rand).2 with
    ⟨ciphertexts, hok, hall⟩ | ⟨d, hd, e, session, -, hget, hfail⟩
  · refine ⟨ciphertexts, hok, ?_, ?_⟩
    · rw [hall.devices]
      refine List.Pairwise.imp ?_ (Std.TreeMap.ordered_keys (t := s.session.senderSessions))
      intro d d' hlt
      exact compareOfLessAndEq_eq_lt.mp hlt
    · intro d
      rw [hall.devices, Std.TreeMap.mem_keys]
      constructor
      · exact hs.sender d
      · rintro ⟨key, hlinked⟩
        exact hs.mem_sender hlinked
  · -- the session that failed is the sender of a pair
    obtain ⟨key, hlinked⟩ := hs.sender d (Std.TreeMap.mem_keys.mp hd)
    obtain ⟨p, hp⟩ := hs.backed d key hlinked
    obtain rfl : session = p.sender := Option.some.inj (hget.symm.trans hp.sender)
    obtain ⟨envelope, henv⟩ := hworks d key p hlinked hp plaintext (rand d)
    rw [henv] at hfail
    cases hfail

/-- A device whose pair works opens a ciphertext addressed to it the first time it is asked to: all
    the pair's receiver was given before was asked for under this very key. -/
theorem FanoutRun.Inv.decrypts
    (hcoll : ∀ k k', hashOfIdentityKey S sha256 k = hashOfIdentityKey S sha256 k' → k = k')
    {devices : List (DeviceId × IdentityKeyPair Key)} {s : FanoutRun Key Sess}
    (hs : s.Inv S sha256 devices) {c : Ciphertext} {plaintext : Bytes}
    (hreturned : (c, plaintext) ∈ s.returned) {identity : IdentityKeyPair Key}
    (hlinked : s.Linked devices c.device identity.identityKey)
    (hfirst : (identity.identityKey, c) ∉ s.asked) {p : Pair Key Sess}
    (hp : s.Backed S sha256 c.device identity.identityKey p) (hworks : p.Decrypts S sha256)
    (rand : Rand) :
    (s.session.decryptAs S sha256 identity c rand).2 = .ok plaintext := by
  have hnew : c.envelope ∉ p.given := by
    intro hgiven
    obtain ⟨key', hasked, hhash⟩ := hp.given c.envelope hgiven
    rw [hcoll _ _ hhash] at hasked
    exact hfirst hasked
  have hopen := hworks c.envelope plaintext (hp.sent c plaintext hreturned rfl) hnew rand
  simp only [FanoutSession.decryptAs, hs.resolves hlinked, hp.receiver, hopen, ne_eq, not_true,
    if_false]

/-- `decrypt_as` does not panic, whoever asks and whatever for: it needs nothing of the ratchet. -/
theorem FanoutRun.Inv.decryptNoPanic {devices : List (DeviceId × IdentityKeyPair Key)}
    {s : FanoutRun Key Sess} (hs : s.Inv S sha256 devices) (identity : IdentityKeyPair Key)
    (c : Ciphertext) (rand : Rand) :
    (s.session.decryptAs S sha256 identity c rand).2 ≠ .panic := by
  rcases decryptAs_cases S sha256 s.session identity c rand with
    ⟨-, hout⟩ | ⟨d, -, -, hout⟩ | ⟨hid, ⟨habsent, -⟩ | ⟨session, -, hout⟩⟩
  · rw [hout]
    exact nofun
  · rw [hout]
    exact nofun
  · -- the identity map points only to devices with a receiver session
    obtain ⟨key, hlinked, -⟩ := (hs.identity _ _).mp hid
    obtain ⟨p, hp⟩ := hs.backed _ key hlinked
    rw [hp.receiver] at habsent
    cases habsent
  · rw [hout]
    cases (session.decrypt S sha256 c.envelope rand).2 with
    | error e => exact nofun
    | ok plaintext => exact nofun

/-- Removing a device leaves the others as they are. -/
theorem removeDevice_frame (f : FanoutSession Key Sess) {d d' : DeviceId} (hne : d' ≠ d) :
    (f.removeDevice d).senderSessions[d']? = f.senderSessions[d']? ∧
    (f.removeDevice d).receiverSessions[d']? = f.receiverSessions[d']? ∧
    ∀ hash : Bytes, (f.removeDevice d).identityToDevice[hash]? = some d' ↔
      f.identityToDevice[hash]? = some d' := by
  refine ⟨getElem?_erase_ne hne, getElem?_erase_ne hne, ?_⟩
  intro hash
  show (f.identityToDevice.filter _)[hash]? = some d' ↔ _
  rw [Std.TreeMap.getElem?_filter', Option.filter_eq_some_iff]
  constructor
  · rintro ⟨hget, -⟩
    exact hget
  · intro hget
    exact ⟨hget, decide_eq_true hne⟩

/-- What the invariant gives of every call. -/
theorem FanoutRun.Inv.correct
    (hcoll : ∀ k k', hashOfIdentityKey S sha256 k = hashOfIdentityKey S sha256 k' → k = k')
    {devices : List (DeviceId × IdentityKeyPair Key)} (hids : (devices.map Prod.fst).Nodup)
    (hkeys : (devices.map fun x => x.2.identityKey).Nodup)
    {s : FanoutRun Key Sess} (hs : s.Inv S sha256 devices) : s.Correct S sha256 devices where
  senders := fun d => ⟨hs.sender d, fun ⟨_, hlinked⟩ => hs.mem_sender hlinked⟩
  receivers := fun d => ⟨hs.receiver d, fun ⟨_, hlinked⟩ => hs.mem_receiver hlinked⟩
  range := by
    intro d
    constructor
    · rintro ⟨hash, hget⟩
      obtain ⟨key, hlinked, -⟩ := (hs.identity hash d).mp hget
      exact ⟨key, hlinked⟩
    · rintro ⟨key, hlinked⟩
      exact ⟨_, (hs.identity _ d).mpr ⟨key, hlinked, rfl⟩⟩
  injective := by
    intro hash hash' d hget hget'
    obtain ⟨key, hlinked, rfl⟩ := (hs.identity hash d).mp hget
    obtain ⟨key', hlinked', rfl⟩ := (hs.identity hash' d).mp hget'
    rw [hlinked.key_unique hids hlinked']
  encryptNoPanic := by
    intro plaintext rand
    rcases (encryptToAll_spec (S := S) s.session plaintext rand).2 with
      ⟨ciphertexts, hok, -⟩ | ⟨d, -, e, session, herr, -⟩
    · rw [hok]
      exact nofun
    · rw [herr]
      exact nofun
  decryptNoPanic := hs.decryptNoPanic
  backed := hs.backed
  encrypts := hs.encrypts
  decrypts := fun _ _ hreturned _ hlinked hfirst _ hp hworks rand =>
    hs.decrypts hcoll hreturned hlinked hfirst hp hworks rand
  mismatch := by
    intro identity d hlinked c hdev rand
    rw [FanoutSession.decryptAs, hs.resolves hlinked]
    exact if_pos hdev
  unknown := by
    intro identity hunlinked c rand
    rw [FanoutSession.decryptAs]
    cases hget : s.session.identityToDevice[identityHash S sha256 identity]? with
    | none => rfl
    | some d =>
      obtain ⟨key, ⟨⟨identity', hmem, hkey⟩, hrem⟩, hhash⟩ := (hs.identity _ d).mp hget
      have hsame : identity'.identityKey = identity.identityKey := hkey.trans (hcoll _ _ hhash)
      rcases hunlinked with hnever | ⟨d', hd', hmem'⟩
      · exact absurd hsame (hnever d identity' hmem)
      · -- keys are not repeated, so the device is the one that was removed
        have heq := List.inj_on_of_nodup_map hkeys hmem hmem' hsame
        rw [(Prod.mk.inj heq).1] at hrem
        exact absurd hd' hrem
  frame := fun _ _ hne => removeDevice_frame s.session hne

/-- **The device table.**  `establish` fails exactly on a list that is empty or repeats a device id or
    an identity; and after any calls on the fan-out it returns, the maps hold exactly the linked
    devices and every call returns what it should.  Of the ratchet it takes that establishment
    succeeds; that a pair works is asked of the pair a call is about, and in the state it is in. -/
theorem fanout_device_table (hest : Establishes S sha256)
    (hcoll : ∀ k k', hashOfIdentityKey S sha256 k = hashOfIdentityKey S sha256 k' → k = k')
    (sender : IdentityKeyPair Key) (bobRand aliceRand : DeviceId → Rand)
    (devices : List (DeviceId × IdentityKeyPair Key)) :
    ((∃ e, establish S sha256 sender bobRand aliceRand devices = .error e) ↔
      devices = [] ∨ ¬ (devices.map Prod.fst).Nodup ∨
        ¬ (devices.map fun x => x.2.identityKey).Nodup) ∧
    ∀ f, establish S sha256 sender bobRand aliceRand devices = .ok f →
      ∀ calls : List (FanoutCall Key Rand),
        (run (FanoutRun.step S sha256) (.start f) calls).Correct S sha256 devices := by
  refine ⟨establish_fails_iff hest hcoll sender bobRand aliceRand devices, ?_⟩
  intro f hf calls
  obtain ⟨-, hids, hinv⟩ := establish_ok hf
  have hrun := run_inv (I := FanoutRun.Inv S sha256 devices)
    (fun s call hs => hs.step hids call) hinv calls
  exact hrun.correct hcoll hids (hinv.keys_nodup hids)

end Fanout

/-! ## A fan-out over a ratchet in the clear -/

/-- A ratchet without secrecy: an envelope names the sender's key and carries the plaintext. -/
def clearSignal : Signal UInt8 Unit UInt8 where
  serialize := fun key => [key]
  describe := fun _ => ""
  parsePreKey := fun raw =>
    match raw with
    | key :: _ => .ok ⟨key, none, []⟩
    | [] => .error .invalidProtobufEncoding
  parseSignal := fun _ => .ok ()
  generateSigned := fun _ id rand => ⟨id, [rand], [rand], [], 0⟩
  generateKyber := fun _ id rand => .ok ⟨id, [rand], [rand], [], 0⟩
  generateKeyPair := fun rand => ([rand], [rand])
  processPreKeyBundle := fun _ bundle remote _ _ store =>
    ({ store with
      sessions := Function.update store.sessions remote (some ())
      identities := Function.update store.identities remote (some bundle.identityKey) }, .ok ())
  messageEncrypt := fun identity plaintext _ _ _ store =>
    (store, .ok (.preKeySignalMessage (identity.identityKey :: plaintext)))
  decryptPreKey := fun _ raw m remote _ _ store =>
    ({ store with
      sessions := Function.update store.sessions remote (some ())
      identities := Function.update store.identities remote (some m.identityKey) },
      .ok (raw.drop 1))
  decryptSignal := fun _ _ _ _ _ store => (store, .error .invalidMessage)
  knows := fun _ _ => true

theorem clearSignal_establishes : Establishes clearSignal sampleHash :=
  ⟨fun _ _ => ⟨_, rfl⟩, fun _ _ _ _ _ _ _ _ => ⟨_, rfl⟩⟩

/-- The envelope of a plaintext. -/
def clearEnvelope (key : UInt8) (plaintext : Bytes) : Bytes :=
  sampleHash [key] ++ [1] ++ key :: plaintext

/-- A sender as it was established, and the envelopes it has made. -/
structure ClearPair (p : Pair UInt8 Unit) : Prop where
  remote : ∃ remote, p.sender.remoteAddress = some remote
  hash : p.sender.localHash = sampleHash [p.sender.identity.identityKey]
  sent : ∀ envelope plaintext, (envelope, plaintext) ∈ p.sent →
    envelope = clearEnvelope p.sender.identity.identityKey plaintext

/-- Its sender writes its key and the plaintext, and stays as it was. -/
theorem ClearPair.encrypt {p : Pair UInt8 Unit} (hp : ClearPair p) (plaintext : Bytes)
    (rand : UInt8) : p.sender.encrypt clearSignal plaintext rand =
      (p.sender, .ok (clearEnvelope p.sender.identity.identityKey plaintext)) := by
  obtain ⟨remote, hremote⟩ := hp.remote
  simp only [RatchetSession.encrypt, hremote, clearSignal, serializedCiphertext, hp.hash]
  refine Prod.ext ?_ rfl
  rw [← hp.hash, ← hremote]

/-- In every state of a pair the envelopes are of that form. -/
theorem clearPair {p : Pair UInt8 Unit} (h : p.Reachable clearSignal sampleHash) : ClearPair p := by
  obtain ⟨alice, bob, ⟨identity, rand, bundle, sender, rand', -, -, halice⟩, events, rfl⟩ := h
  refine run_inv ?_ ?_ events
  · intro p e hp
    cases e with
    | encrypt plaintext rand =>
      have hstep : p.step clearSignal sampleHash (.encrypt plaintext rand) =
          { p with sent := p.sent ++
            [(clearEnvelope p.sender.identity.identityKey plaintext, plaintext)] } := by
        simp only [Pair.step, hp.encrypt]
      rw [hstep]
      refine ⟨hp.remote, hp.hash, ?_⟩
      intro envelope plaintext' hmem
      rcases List.mem_append.mp hmem with hold | hnew
      · exact hp.sent envelope plaintext' hold
      · obtain ⟨rfl, rfl⟩ := Prod.mk.inj (List.mem_singleton.mp hnew)
        rfl
    | decrypt envelope rand => exact ⟨hp.remote, hp.hash, hp.sent⟩
  · obtain rfl := Except.ok.inj halice
    exact ⟨⟨_, rfl⟩, rfl, fun _ _ hmem => absurd hmem List.not_mem_nil⟩

theorem clearSignal_encrypts {p : Pair UInt8 Unit} (hp : p.Reachable clearSignal sampleHash) :
    p.Encrypts clearSignal := by
  intro plaintext rand
  exact ⟨_, by rw [(clearPair hp).encrypt]⟩

/-- And the receiver decrypts whatever its sender has sent, also twice. -/
theorem clearSignal_decrypts {p : Pair UInt8 Unit} (hp : p.Reachable clearSignal sampleHash) :
    p.Decrypts clearSignal sampleHash := by
  intro envelope plaintext hsent _ rand
  rw [(clearPair hp).sent envelope plaintext hsent]
  rw [show clearEnvelope p.sender.identity.identityKey plaintext =
    hashOfIdentityKey clearSignal sampleHash p.sender.identity.identityKey ++ [typeTag .preKey] ++
      p.sender.identity.identityKey :: plaintext from rfl]
  rw [decrypt_first (m := ⟨p.sender.identity.identityKey, none, []⟩) sampleHash_length p.receiver
    rfl rfl rand]
  rfl

/-- Devices 3 and 1 are linked and 3 is then removed: messages go to device 1 alone, and the identity
    of device 3 is no longer known. -/
theorem removed_device_is_unknown :
    ∃ f, establish clearSignal sampleHash ⟨9, []⟩ (fun _ => 0) (fun _ => 0)
        [(3, ⟨5, []⟩), (1, ⟨6, []⟩)] = .ok f ∧
      (∃ c, ((run (FanoutRun.step clearSignal sampleHash) (.start f)
        [.removeDevice 3]).session.encryptToAll clearSignal [104, 105] fun _ => 0).2 = .ok c ∧
        ∀ d, d ∈ c.map Ciphertext.device ↔ d = 1) ∧
      ∀ c, ((run (FanoutRun.step clearSignal sampleHash) (.start f)
        [.removeDevice 3]).session.decryptAs clearSignal sampleHash ⟨5, []⟩ c 0).2 =
          .err .unknownIdentity := by
  obtain ⟨hfails, htable⟩ := fanout_device_table clearSignal_establishes
    (fun k k' => sampleHash_collisionFree k k') ⟨9, []⟩ (fun _ => 0) (fun _ => 0)
    [(3, ⟨5, []⟩), (1, ⟨6, []⟩)]
  have hgood : ¬ ∃ e, establish clearSignal sampleHash ⟨9, []⟩ (fun _ => 0) (fun _ => 0)
      [(3, ⟨5, []⟩), (1, ⟨6, []⟩)] = .error e := by
    rw [hfails]
    decide
  cases hf : establish clearSignal sampleHash ⟨9, []⟩ (fun _ => 0) (fun _ => 0)
      [(3, ⟨5, []⟩), (1, ⟨6, []⟩)] with
  | error e => exact absurd ⟨e, hf⟩ hgood
  | ok f =>
    have hcorrect := htable f hf [.removeDevice 3]
    have hlinked : ∀ d key, (run (FanoutRun.step clearSignal sampleHash) (.start f)
        [FanoutCall.removeDevice 3]).Linked [(3, ⟨5, []⟩), (1, ⟨6, []⟩)] d key ↔
          d = 1 ∧ key = 6 := by
      intro d key
      show (∃ identity : IdentityKeyPair UInt8, _ ∧ identity.identityKey = key) ∧ d ∉ [3] ↔ _
      constructor
      · rintro ⟨⟨identity, hmem, rfl⟩, hrem⟩
        simp only [List.mem_cons, Prod.mk.injEq, List.not_mem_nil, or_false] at hmem hrem
        rcases hmem with ⟨rfl, -⟩ | ⟨rfl, rfl⟩
        · exact absurd rfl hrem
        · exact ⟨rfl, rfl⟩
      · rintro ⟨rfl, rfl⟩
        exact ⟨⟨⟨6, []⟩, by simp, rfl⟩, by decide⟩
    refine ⟨f, rfl, ?_, ?_⟩
    · obtain ⟨c, hok, -, hdevices⟩ := hcorrect.encrypts
        (fun _ _ _ _ hp => clearSignal_encrypts hp.reachable) [104, 105] fun _ => 0
      refine ⟨c, hok, ?_⟩
      intro d
      rw [hdevices]
      constructor
      · rintro ⟨key, hkey⟩
        exact ((hlinked d key).mp hkey).1
      · rintro rfl
        exact ⟨6, (hlinked 1 6).mpr ⟨rfl, rfl⟩⟩
    · intro c
      rw [hcorrect.unknown ⟨5, []⟩ (.inr ⟨3, List.mem_cons_self, List.mem_cons_self⟩) c 0]

end E2EMessaging.Protocol
