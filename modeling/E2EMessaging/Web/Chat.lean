/-
  FROM ONE SCREEN TO THE OTHER (`send` and `pollOnce` of `clients/web/src/Conversation.tsx`, with
  `create_receiver_session`, `publish_bundle_bytes`, `establish_session_from_bundle`, `encrypt_message` and
  `decrypt_message` of `core/bindings/wasm/src/lib.rs`).

  What a user types is trimmed, encoded, and sealed on a session that a lookup has brought; what the other user
  reads has been picked up, decrypted on the session whose bundle was published, and decoded.  The two clients
  share nothing but the bundle and the envelopes.

  `shown_as_typed`: if the sender has looked the peer up once, and got the bundle of the session the receiver
  decrypts with, the receive loop appends the texts that were sent to it: one for each envelope that has come, in
  the order in which they came, whatever else either of the two does; and no warning.  On the screen they stay
  until the end of the history load replaces the list.
-/
import E2EMessaging.Protocol.Fanout
import E2EMessaging.Relay.Frame
import E2EMessaging.Web.Polling
import E2EMessaging.Web.TrustDrawer

namespace E2EMessaging.Web.Chat

open E2EMessaging.Lib E2EMessaging.Crypto E2EMessaging.Protocol

variable {Key Sess Rand : Type}

/-! ## Text on its way -/

/-- What has been trimmed begins with no byte order mark. -/
theorem dropBom_of_trimmed {s : String} (h : jsTrim s = s) : dropBom s.toList = s.toList := by
  have htrim : s.toList = ((s.toList.dropWhile isJsSpace).reverse.dropWhile isJsSpace).reverse := by
    have hlist := congrArg String.toList h
    rw [jsTrim, String.toList_ofList] at hlist
    exact hlist.symm
  cases hs : s.toList with
  | nil => rfl
  | cons c cs =>
    rw [dropBom, if_neg]
    rintro rfl
    have hself := TrustDrawer.dropWhile_trimmed s.toList
    rw [← htrim, hs, List.dropWhile_cons_of_pos (by decide)] at hself
    have hlength := congrArg List.length hself
    have hle := List.length_dropWhile_le isJsSpace cs
    rw [List.length_cons] at hlength
    omega

/-- **A text that was trimmed is read as it was written.** -/
theorem textDecode_utf8 {s : String} (h : jsTrim s = s) : textDecode (Relay.utf8 s) = toJs s := by
  rw [textDecode, Relay.utf8, decodeUtf8_encode, dropBom_of_trimmed h]
  rfl

/-! ## The receiver -/

/-- The sessions of the receiver, by their handles, and how many calls have drawn from the generator. -/
structure Sessions (Key Sess : Type) where
  held : Nat → RatchetSession Key Sess
  drawn : Nat

section

variable (S : Signal Key Sess Rand) (sha256 : Bytes → Bytes)

/-- `decrypt_message`; the handle is a reference. -/
def decryptMessage (draws : Nat → Rand) (handle : Nat) (envelope : Bytes) (w : Sessions Key Sess) :
    Sessions Key Sess × Option Bytes :=
  let opened := (w.held handle).decrypt S sha256 envelope (draws w.drawn)
  (⟨Function.update w.held handle opened.1, w.drawn + 1⟩, opened.2.toOption)

/-- The receive loop over these sessions. -/
def receiver (draws : Nat → Rand) : Polling.ReceiveComponent Nat (Sessions Key Sess) :=
  Polling.conversation (decryptMessage S sha256 draws)

/-- The two ends of a session work together, for so many messages: a receiver that is given no envelopes but its
    sender's decrypts each once, in any order.  (A session keeps the keys of so many messages it has skipped.) -/
def Opens (limit : Nat) : Prop :=
  ∀ p : Pair Key Sess, p.Reachable S sha256 → p.sent.length ≤ limit →
    (∀ e ∈ p.given, e ∈ p.sent.map Prod.fst) →
    ∀ envelope plaintext, (envelope, plaintext) ∈ p.sent → envelope ∉ p.given →
    ∀ rand, (p.receiver.decrypt S sha256 envelope rand).2 = .ok plaintext

/-! ## The sender -/

/-- A `Conversation`, and a record of what it has handed over: each envelope with its text. -/
structure Sender (Key Sess : Type) where
  conversation : Conversation Key Sess
  said : List ((String × Bytes) × String)

/-- What a sender does. -/
inductive SendAct (Key Rand : Type) where
  | send (identity : Option (IdentityKeyPair Key)) (peerId input : String) (sending : Bool) (rand : Rand)
  /-- The lookup of a `send` settles. -/
  | answered (i : Nat) (answer : Option Bytes) (rand rand' : Rand)

namespace Sender

/-- A conversation just mounted. -/
def mount : Sender Key Sess := ⟨.mount, []⟩

/-- What is new in the outbox was made from this text. -/
def goOn (s : Sender Key Sess) (c : Conversation Key Sess) (text : String) : Sender Key Sess :=
  ⟨c, s.said ++ (c.outbox.drop s.conversation.outbox.length).map fun e => (e, text)⟩

variable (C : KeyCodecs Key) (a : Arch)

/-- One step. -/
def step (s : Sender Key Sess) : SendAct Key Rand → Sender Key Sess
  | .send identity peerId input sending rand =>
    s.goOn (s.conversation.send S identity peerId input sending rand) (jsTrim input)
  | .answered i answer rand rand' =>
    match s.conversation.pending[i]? with
    | none => s
    | some p => s.goOn (s.conversation.answered S sha256 C a i answer rand rand') p.trimmedInput

/-- A lookup of the peer that succeeds brings these bytes, and finds no session. -/
def Introduces (peer : String) (published : Bytes) (s : Sender Key Sess) : SendAct Key Rand → Prop
  | .send .. => True
  | .answered i answer _ _ => ∀ p, s.conversation.pending[i]? = some p → p.trimmedPeerId = peer →
    ∀ bundleBytes, answer = some bundleBytes →
      bundleBytes = published ∧ s.conversation.sessions peer = none

/-- The envelopes for a peer, with their plaintexts. -/
def sentTo (s : Sender Key Sess) (peer : String) : List (Bytes × Bytes) :=
  (s.said.filter fun x => decide (x.1.1 = peer)).map fun x => (x.1.2, Relay.utf8 x.2)

/-- The invariant, for a peer whose receiving end is `bob`: the session for the peer, if there is one, is its
    other end, and has made all envelopes for the peer. -/
structure Inv (bob : RatchetSession Key Sess) (peer : String) (s : Sender Key Sess) : Prop where
  outbox : s.said.map Prod.fst = s.conversation.outbox
  pending : ∀ p ∈ s.conversation.pending, jsTrim p.trimmedInput = p.trimmedInput
  trimmed : ∀ x ∈ s.said, jsTrim x.2 = x.2
  paired : (s.conversation.sessions peer = none ∧ s.sentTo peer = []) ∨
    ∃ ps, s.conversation.sessions peer = some ps ∧
      Pair.Reachable S sha256 ⟨ps.session, bob, s.sentTo peer, []⟩

end Sender

end

section Sending

variable {S : Signal Key Sess Rand} {sha256 : Bytes → Bytes} {C : KeyCodecs Key} {a : Arch}
  {bob : RatchetSession Key Sess} {peer : String} {s : Sender Key Sess}

/-- The envelope of a call of `encrypt`, if it has made one. -/
def sealed : Except SessionError Bytes → List Bytes
  | .error _ => []
  | .ok envelope => [envelope]

theorem deliver_outbox (c : Conversation Key Sess) (peerId : String) (ps : PeerSession Key Sess) (text : String)
    (rand : Rand) : (c.deliver S peerId ps text rand).outbox =
      c.outbox ++ (sealed (ps.session.encrypt S (Relay.utf8 text) rand).2).map (Prod.mk peerId) := by
  rw [Conversation.deliver]
  dsimp only
  cases (ps.session.encrypt S (Relay.utf8 text) rand).2 with
  | error e => exact (List.append_nil _).symm
  | ok envelope => rfl

/-- What a pair does, when its sender encrypts. -/
theorem pair_encrypt (p : Pair Key Sess) (plaintext : Bytes) (rand : Rand) :
    p.step S sha256 (.encrypt plaintext rand) =
      { p with
        sender := (p.sender.encrypt S plaintext rand).1
        sent := p.sent ++ (sealed (p.sender.encrypt S plaintext rand).2).map fun e => (e, plaintext) } := by
  rw [Pair.step]
  cases (p.sender.encrypt S plaintext rand).2 with
  | error e => rfl
  | ok envelope => rfl

namespace Sender

theorem mem_sentTo {e : Bytes} {text : String} (h : ((peer, e), text) ∈ s.said) :
    (e, Relay.utf8 text) ∈ s.sentTo peer :=
  List.mem_map.mpr ⟨((peer, e), text), List.mem_filter.mpr ⟨h, decide_eq_true rfl⟩, rfl⟩

/-- An action that hands nothing over. -/
theorem goOn_same {c : Conversation Key Sess} (houtbox : c.outbox = s.conversation.outbox) (text : String) :
    s.goOn c text = ⟨c, s.said⟩ := by
  rw [goOn, houtbox, List.drop_length]
  exact congrArg (Sender.mk c) (List.append_nil _)

/-- An action that ends in `deliver`. -/
theorem goOn_deliver {c : Conversation Key Sess} (houtbox : c.outbox = s.conversation.outbox) (peerId : String)
    (ps : PeerSession Key Sess) (text : String) (rand : Rand) :
    (s.goOn (c.deliver S peerId ps text rand) text).said = s.said ++
      (sealed (ps.session.encrypt S (Relay.utf8 text) rand).2).map fun e => ((peerId, e), text) := by
  show s.said ++ ((c.deliver S peerId ps text rand).outbox.drop s.conversation.outbox.length).map _ = _
  rw [deliver_outbox, houtbox, List.drop_left, List.map_map]
  rfl

/-- Nothing is handed over, and no session is filed. -/
theorem Inv.quiet (hs : Inv S sha256 bob peer s) (c : Conversation Key Sess)
    (houtbox : c.outbox = s.conversation.outbox) (hsessions : c.sessions = s.conversation.sessions)
    (hpending : ∀ p ∈ c.pending, jsTrim p.trimmedInput = p.trimmedInput) (text : String) :
    Inv S sha256 bob peer (s.goOn c text) := by
  rw [goOn_same houtbox]
  refine ⟨hs.outbox.trans houtbox.symm, hpending, hs.trimmed, ?_⟩
  show (c.sessions peer = none ∧ _) ∨ ∃ ps, c.sessions peer = some ps ∧ _
  rw [hsessions]
  exact hs.paired

/-- A text is handed over: on the session of its peer, or on one that has just been filed. -/
theorem Inv.deliver (hs : Inv S sha256 bob peer s) {c : Conversation Key Sess}
    (houtbox : c.outbox = s.conversation.outbox) (hsessions : c.sessions = s.conversation.sessions)
    (hpending : ∀ p ∈ c.pending, jsTrim p.trimmedInput = p.trimmedInput) (peerId : String)
    {ps : PeerSession Key Sess}
    (hpair : peerId = peer → Pair.Reachable S sha256 ⟨ps.session, bob, s.sentTo peer, []⟩) {text : String}
    (htext : jsTrim text = text) (rand : Rand) :
    Inv S sha256 bob peer (s.goOn (c.deliver S peerId ps text rand) text) := by
  have hsaid := goOn_deliver (S := S) (s := s) houtbox peerId ps text rand
  refine ⟨?_, ?_, ?_, ?_⟩
  · show List.map Prod.fst _ = (c.deliver S peerId ps text rand).outbox
    rw [hsaid, List.map_append, hs.outbox, List.map_map, deliver_outbox, houtbox]
    rfl
  · show ∀ p ∈ (c.deliver S peerId ps text rand).pending, _
    rw [TrustDrawer.deliver_pending]
    exact hpending
  · intro x hx
    rw [hsaid] at hx
    rcases List.mem_append.mp hx with hold | hnew
    · exact hs.trimmed x hold
    · obtain ⟨e, -, rfl⟩ := List.mem_map.mp hnew
      exact htext
  · have hsent : (s.goOn (c.deliver S peerId ps text rand) text).sentTo peer = s.sentTo peer ++
        if peerId = peer then
          (sealed (ps.session.encrypt S (Relay.utf8 text) rand).2).map fun e => (e, Relay.utf8 text)
        else [] := by
      rw [sentTo, hsaid, List.filter_append, List.map_append]
      congr 1
      split
      · rename_i heq
        rw [List.filter_eq_self.mpr, List.map_map]
        · rfl
        · intro x hx
          obtain ⟨e, -, rfl⟩ := List.mem_map.mp hx
          exact decide_eq_true heq
      · rename_i hne
        rw [List.filter_eq_nil_iff.mpr]
        · rfl
        · intro x hx
          obtain ⟨e, -, rfl⟩ := List.mem_map.mp hx
          exact fun h => hne (of_decide_eq_true h)
    show ((c.deliver S peerId ps text rand).sessions peer = none ∧ _) ∨
      ∃ ps', (c.deliver S peerId ps text rand).sessions peer = some ps' ∧ _
    rw [hsent, deliver_sessions, hsessions]
    by_cases heq : peerId = peer
    · subst heq
      rw [Function.update_self, if_pos rfl]
      have hstep := (hpair rfl).step (.encrypt (Relay.utf8 text) rand)
      rw [pair_encrypt] at hstep
      exact .inr ⟨_, rfl, hstep⟩
    · rw [Function.update_of_ne (Ne.symm heq), if_neg heq, List.append_nil]
      exact hs.paired

/-- The session of a bundle is the other end of the session that has published it. -/
theorem establish_pairs {identity : IdentityKeyPair Key} {rand : Rand} {bundle : SignalBundle Key}
    (hbob : newBob S sha256 identity rand = .ok bob) (hbundle : bob.publishBundle = .ok bundle)
    {bundleBytes : Bytes} (hread : readBundle C a bundleBytes = .ok bundle) {sender : IdentityKeyPair Key}
    {rand' : Rand} {session : RatchetSession Key Sess}
    (hest : establishSessionFromBundle S sha256 C a sender bundleBytes rand' = .ok session) :
    Pairs S sha256 session bob := by
  rw [establishSessionFromBundle, hread, Outcome.ok_bind] at hest
  cases halice : newAlice S sha256 sender bundle rand' with
  | error e =>
    simp only [halice] at hest
    cases hest
  | ok alice =>
    simp only [halice] at hest
    obtain rfl := Outcome.ok.inj hest
    exact ⟨identity, rand, bundle, sender, rand', hbob, hbundle, halice⟩

theorem Inv.send (hs : Inv S sha256 bob peer s) (identity : Option (IdentityKeyPair Key)) (peerId input : String)
    (sending : Bool) (rand : Rand) :
    Inv S sha256 bob peer (s.goOn (s.conversation.send S identity peerId input sending rand) (jsTrim input)) := by
  have htext : jsTrim (jsTrim input) = jsTrim input := TrustDrawer.jsTrim_jsTrim input
  cases identity with
  | none => exact hs.quiet s.conversation rfl rfl hs.pending _
  | some identity =>
    simp only [Conversation.send]
    split
    · exact hs.quiet s.conversation rfl rfl hs.pending _
    · split
      · rename_i ps hps
        refine hs.deliver (c := { s.conversation with status := "" }) rfl rfl hs.pending _ ?_ htext rand
        rintro rfl
        rcases hs.paired with ⟨hnone, -⟩ | ⟨ps', hps', hreach⟩
        · exact absurd (hps.symm.trans hnone) (Option.some_ne_none ps)
        · obtain rfl := Option.some.inj (hps.symm.trans hps')
          exact hreach
      · refine hs.quiet
          { s.conversation with
            status := "Looking up peer…"
            pending := s.conversation.pending ++ [⟨identity, jsTrim peerId, jsTrim input⟩] } rfl rfl ?_ _
        intro p hp
        rcases List.mem_append.mp hp with hold | hnew
        · exact hs.pending p hold
        · rw [List.mem_singleton.mp hnew]
          exact htext

theorem Inv.answered (hs : Inv S sha256 bob peer s) {identity : IdentityKeyPair Key} {rand₀ : Rand}
    {bundle : SignalBundle Key} (hbob : newBob S sha256 identity rand₀ = .ok bob)
    (hbundle : bob.publishBundle = .ok bundle) {published : Bytes} (hread : readBundle C a published = .ok bundle)
    {i : Nat} {p : PendingSend Key} (hp : s.conversation.pending[i]? = some p) {answer : Option Bytes}
    (hanswer : p.trimmedPeerId = peer → ∀ bundleBytes, answer = some bundleBytes →
      bundleBytes = published ∧ s.conversation.sessions peer = none) (rand rand' : Rand) :
    Inv S sha256 bob peer
      (s.goOn (s.conversation.answered S sha256 C a i answer rand rand') p.trimmedInput) := by
  have hpending : ∀ q ∈ s.conversation.pending.eraseIdx i, jsTrim q.trimmedInput = q.trimmedInput :=
    fun q hq => hs.pending q (List.mem_of_mem_eraseIdx hq)
  have hfails : ∀ status, Inv S sha256 bob peer
      (s.goOn { s.conversation with pending := s.conversation.pending.eraseIdx i, status := status }
        p.trimmedInput) := fun status =>
    hs.quiet { s.conversation with pending := s.conversation.pending.eraseIdx i, status := status } rfl rfl hpending _
  rw [Conversation.answered, hp]
  dsimp only
  split
  · exact hfails _
  · rename_i bundleBytes
    split
    · exact hfails _
    · split
      · exact hfails _
      · rename_i session hest
        refine hs.deliver (c := { s.conversation with pending := s.conversation.pending.eraseIdx i }) rfl rfl
          hpending _ ?_ (hs.pending p (List.mem_of_getElem? hp)) rand'
        intro hpeer
        obtain ⟨rfl, hnone⟩ := hanswer hpeer bundleBytes rfl
        have hpairs := establish_pairs hbob hbundle hread (describeThrown_eq_ok.mp hest)
        rcases hs.paired with ⟨-, hsent⟩ | ⟨ps, hps, -⟩
        · rw [hsent]
          exact ⟨session, bob, hpairs, [], rfl⟩
        · exact absurd (hps.symm.trans hnone) (Option.some_ne_none ps)

/-- **One step.** -/
theorem Inv.step (hs : Inv S sha256 bob peer s) {identity : IdentityKeyPair Key} {rand : Rand}
    {bundle : SignalBundle Key} (hbob : newBob S sha256 identity rand = .ok bob)
    (hbundle : bob.publishBundle = .ok bundle) {published : Bytes} (hread : readBundle C a published = .ok bundle)
    (act : SendAct Key Rand) (hact : s.Introduces peer published act) :
    Inv S sha256 bob peer (s.step S sha256 C a act) := by
  cases act with
  | send identity peerId input sending rand => exact hs.send identity peerId input sending rand
  | answered i answer rand₁ rand₂ =>
    rw [Sender.step]
    split
    · exact hs
    · rename_i p hp
      exact hs.answered hbob hbundle hread hp (hact p hp) rand₁ rand₂

theorem inv_mount (S : Signal Key Sess Rand) (sha256 : Bytes → Bytes) (bob : RatchetSession Key Sess)
    (peer : String) : Inv S sha256 bob peer .mount := by
  refine ⟨rfl, ?_, ?_, .inl ⟨rfl, rfl⟩⟩
  · intro p hp
    cases hp
  · intro x hx
    cases hx

end Sender

end Sending

/-! ## Decrypting -/

section Receiving

variable {S : Signal Key Sess Rand} {sha256 : Bytes → Bytes} {limit : Nat}

/-- An envelope has one plaintext. -/
theorem Opens.unique (hopens : Opens S sha256 limit) {p : Pair Key Sess} (hp : p.Reachable S sha256)
    (hlimit : p.sent.length ≤ limit) (hgiven : p.given = []) {envelope t t' : Bytes}
    (ht : (envelope, t) ∈ p.sent) (ht' : (envelope, t') ∈ p.sent) (rand : Rand) : t = t' := by
  have hnone : ∀ e ∈ p.given, e ∈ p.sent.map Prod.fst := by
    rw [hgiven]
    exact fun _ he => absurd he List.not_mem_nil
  have hfresh : envelope ∉ p.given := hgiven ▸ List.not_mem_nil
  have hopen := hopens p hp hlimit hnone envelope t ht hfresh rand
  have hopen' := hopens p hp hlimit hnone envelope t' ht' hfresh rand
  exact Except.ok.inj (hopen.symm.trans hopen')

/-- **What a receiver decrypts**, on a session whose other end has made the envelopes: each once, in any order.
    The induction is on the envelopes still to come; those that have come are given to the pair. -/
theorem decryptAll_eq (hopens : Opens S sha256 limit) (draws : Nat → Rand) (h : Nat) {envelopes : List Bytes}
    {p : Pair Key Sess} (hp : p.Reachable S sha256) (hlimit : p.sent.length ≤ limit)
    (hgiven : ∀ e ∈ p.given, e ∈ p.sent.map Prod.fst) (hnodup : envelopes.Nodup)
    (hfresh : ∀ e ∈ envelopes, e ∉ p.given) {plaintextOf : Bytes → Bytes}
    (hsent : ∀ e ∈ envelopes, (e, plaintextOf e) ∈ p.sent) {w : Sessions Key Sess} (hw : w.held h = p.receiver) :
    (Polling.decryptAll (receiver S sha256 draws) w (envelopes.map (Prod.mk h))).2 =
      envelopes.map fun e => some (plaintextOf e) := by
  induction envelopes generalizing p w with
  | nil => rfl
  | cons e envelopes ih =>
    obtain ⟨hnew, hnodup⟩ := List.nodup_cons.mp hnodup
    have hmade := hsent e List.mem_cons_self
    have hopen : ((w.held h).decrypt S sha256 e (draws w.drawn)).2 = .ok (plaintextOf e) := by
      rw [hw]
      exact hopens p hp hlimit hgiven e _ hmade (hfresh e List.mem_cons_self) (draws w.drawn)
    have hrest := ih (p := p.step S sha256 (.decrypt e (draws w.drawn)))
      (w := (decryptMessage S sha256 draws h e w).1) (hp.step _) hlimit ?given hnodup ?fresh
      (fun e' he' => hsent e' (List.mem_cons_of_mem e he')) ?held
    · rw [List.map_cons, List.map_cons, Polling.decryptAll]
      exact congrArg₂ List.cons (congrArg Except.toOption hopen) hrest
    case given =>
      intro e' he'
      rcases List.mem_append.mp he' with hold | hlast
      · exact hgiven e' hold
      · rw [List.mem_singleton.mp hlast]
        exact List.mem_map_of_mem hmade
    case fresh =>
      intro e' he' hmem
      rcases List.mem_append.mp hmem with hold | hlast
      · exact hfresh e' (List.mem_cons_of_mem e he') hold
      · exact hnew (List.mem_singleton.mp hlast ▸ he')
    case held =>
      show Function.update w.held h ((w.held h).decrypt S sha256 e (draws w.drawn)).1 h =
        (p.receiver.decrypt S sha256 e (draws w.drawn)).1
      rw [Function.update_self, hw]

/-- A component that pins its handle decrypts all with it. -/
theorem calls_of_pinned {σ : Type} {C : Polling.ReceiveComponent Nat σ} {w : σ} {s : Polling.State Nat σ}
    (hs : Polling.Inv C w s) (hpins : C.pins = true) {h : Nat} (hpin : ∀ k, s.receiverSession = some k → k = h) :
    s.decryptions.map Polling.Decryption.call = s.received.eraseDups.map (Prod.mk h) := by
  rw [← hs.once, List.map_map]
  apply List.map_congr_left
  intro d hd
  obtain ⟨r, hr, hhandle⟩ := List.mem_map.mp (hs.handles d hd)
  have hh : d.handle = h := hhandle ▸ hpin r.handle (hs.pinned hpins r hr)
  exact congrArg (fun k => (k, d.envelope)) hh

/-- **What has decrypted is what was sealed**, if all that was picked up was made by the other end. -/
theorem plaintexts_of_sent (hopens : Opens S sha256 limit) {draws : Nat → Rand} {w : Sessions Key Sess}
    {s : Polling.State Nat (Sessions Key Sess)} (hs : Polling.Inv (receiver S sha256 draws) w s) {h : Nat}
    (hpin : ∀ k, s.receiverSession = some k → k = h) {p : Pair Key Sess} (hp : p.Reachable S sha256)
    (hlimit : p.sent.length ≤ limit) (hw : w.held h = p.receiver) (hgiven : p.given = [])
    {plaintextOf : Bytes → Bytes} (hsent : ∀ e ∈ s.received.eraseDups, (e, plaintextOf e) ∈ p.sent) :
    s.decryptions.map Polling.Decryption.plaintext = s.received.eraseDups.map fun e => some (plaintextOf e) := by
  have hseq := congrArg Prod.snd hs.sequential
  rw [calls_of_pinned hs rfl hpin] at hseq
  refine hseq.symm.trans ?_
  apply decryptAll_eq hopens draws h hp hlimit _ (Polling.nodup_eraseDups s.received) _ hsent hw
  · rw [hgiven]
    exact fun _ he => absurd he List.not_mem_nil
  · rw [hgiven]
    exact fun _ _ => List.not_mem_nil

/-- If all has decrypted, there is no warning. -/
theorem warning_eq_false {σ : Type} {C : Polling.ReceiveComponent Nat σ} {w : σ} {s : Polling.State Nat σ}
    (hs : Polling.Inv C w s) (hall : ∀ d ∈ s.decryptions, d.plaintext ≠ none) : s.decryptionWarning = false := by
  rw [hs.warning]
  cases hlast : lastOf Polling.Decryption.warning s.decryptions with
  | none => rfl
  | some v =>
    obtain ⟨d, hd, hwarning⟩ := exists_of_lastOf hlast
    rw [Polling.Decryption.warning] at hwarning
    split at hwarning
    · obtain rfl := Option.some.inj hwarning
      cases hplain : d.plaintext with
      | none => exact absurd hplain (hall d hd)
      | some p => rfl
    · cases hwarning

/-- **What is appended**, once all has decrypted: the texts behind the envelopes, as they were trimmed. -/
theorem appended_of_plaintexts {draws : Nat → Rand} {w : Sessions Key Sess}
    {s : Polling.State Nat (Sessions Key Sess)} (hs : Polling.Inv (receiver S sha256 draws) w s) (hlost : s.Lost)
    {es : List Bytes} {textOf : Bytes → String} (htrimmed : ∀ e ∈ es, jsTrim (textOf e) = textOf e)
    (hplain : s.decryptions.map Polling.Decryption.plaintext = es.map fun e => some (Relay.utf8 (textOf e))) :
    (∃ lost, es.map (fun e => toJs (textOf e)) = s.appended ++ lost ∧ lost.length ≤ 1 ∧
        (lost ≠ [] → s.mounted = false)) ∧ s.decryptionWarning = false := by
  constructor
  · obtain ⟨lost, happended, hone, hgone⟩ := hs.appended_or_lost hlost
    have hmap : (s.decryptions.map Polling.Decryption.plaintext).filterMap (Option.map textDecode) =
        s.appended ++ lost := List.filterMap_map.trans happended
    refine ⟨lost, ?_, hone, hgone⟩
    rw [← hmap, hplain, List.filterMap_map, ← List.filterMap_eq_map]
    apply List.filterMap_congr
    intro e he
    exact congrArg some (textDecode_utf8 (htrimmed e he)).symm
  · apply warning_eq_false hs
    intro d hd hnone
    have hmem : d.plaintext ∈ es.map fun e => some (Relay.utf8 (textOf e)) := hplain ▸ List.mem_map_of_mem hd
    obtain ⟨e, -, hsome⟩ := List.mem_map.mp hmem
    rw [hnone] at hsome
    cases hsome

end Receiving

/-! ## The conversation -/

/-- **What is shown is what was typed.**  The receiver has published the bundle of a session and decrypts with no
    other; the sender has got this bundle when it looked the peer up, once; and all that the receiver picks up is
    the sender's.  Then each envelope that has come was sent with one text; the loop appends these texts, in the
    order in which the envelopes came, but for at most the last, if the component is gone; over any stretch of the
    run in which the list on the screen is not replaced, what others have sent among the messages added to it is
    what the loop has appended; and there is no warning. -/
theorem shown_as_typed {S : Signal Key Sess Rand} {sha256 : Bytes → Bytes} {C : KeyCodecs Key} {a : Arch}
    {limit : Nat} (hopens : Opens S sha256 limit) (hC : C.Exact S.serialize)
    -- the receiver's session, and its bundle
    {w : Sessions Key Sess} {h : Nat} {identity : IdentityKeyPair Key} {rand : Rand}
    (hbob : newBob S sha256 identity rand = .ok (w.held h)) {bundle : SignalBundle Key}
    (hbundle : (w.held h).publishBundle = .ok bundle) (hwell : bundle.WellFormed C S.serialize)
    (hfits : a.bits = 64 ∨ (bundleToBytes S.serialize bundle).length ≤ a.isizeMax)
    -- a run of the sender
    {peer : String} {sends : List (SendAct Key Rand)}
    (hsends : Meets (Sender.step S sha256 C a) (Sender.Introduces peer (bundleToBytes S.serialize bundle)) .mount sends)
    {sender : Sender Key Sess} (hsender : sender = run (Sender.step S sha256 C a) .mount sends)
    (hlimit : (sender.sentTo peer).length ≤ limit)
    -- a run of the receiver
    (draws : Nat → Rand) {acts : List (Polling.Act Nat)} {s : Polling.State Nat (Sessions Key Sess)}
    (hs : s = run (Polling.State.step (receiver S sha256 draws)) (.mount w) acts)
    (hpin : ∀ k, s.receiverSession = some k → k = h)
    (hrelay : ∀ e ∈ s.received, (peer, e) ∈ sender.conversation.outbox) :
    ∃ textOf : Bytes → String,
      (∀ e ∈ s.received, ∀ text, ((peer, e), text) ∈ sender.said ↔ text = textOf e) ∧
      (∃ lost, s.received.eraseDups.map (fun e => toJs (textOf e)) = s.appended ++ lost ∧ lost.length ≤ 1 ∧
        (lost ≠ [] → s.mounted = false)) ∧
      (∀ before after, acts = before ++ after → (∀ act ∈ after, act.replaces = false) →
        ∃ added, s.messages =
            (run (Polling.State.step (receiver S sha256 draws)) (.mount w) before).messages ++ added ∧
          s.appended = (run (Polling.State.step (receiver S sha256 draws)) (.mount w) before).appended ++
            added.filterMap Polling.Message.received) ∧
      s.decryptionWarning = false := by
  have hscreen : ∀ before after, acts = before ++ after → (∀ act ∈ after, act.replaces = false) →
      Polling.Grows (run (Polling.State.step (receiver S sha256 draws)) (.mount w) before) s := by
    rintro before after rfl hafter
    rw [hs, run_append]
    exact Polling.grows_run _ hafter
  obtain ⟨hinv, hlost⟩ := Polling.run_lost (receiver S sha256 draws) w acts
  rw [← hs] at hinv hlost
  have ha : (bundleToBytes S.serialize bundle).length < 2 ^ a.bits := by
    rcases hfits with h64 | hle
    · rw [h64]
      exact hwell.length_lt
    · exact Arch.lt_of_le_isizeMax hle
  have hread : readBundle C a (bundleToBytes S.serialize bundle) = .ok bundle := by
    rw [readBundle, (bundleFromBytes_eq_ok hC ha).mpr ⟨hwell, rfl⟩]
  have hsend : sender.Inv S sha256 (w.held h) peer := by
    rw [hsender]
    exact meets_inv (fun _ act hsend hact => hsend.step hbob hbundle hread act hact)
      (Sender.inv_mount S sha256 _ peer) hsends
  have hsaid : ∀ e ∈ s.received, ∃ text, ((peer, e), text) ∈ sender.said := by
    intro e he
    have hmem := hrelay e he
    rw [← hsend.outbox] at hmem
    obtain ⟨⟨_, text⟩, hmem, rfl⟩ := List.mem_map.mp hmem
    exact ⟨text, hmem⟩
  choose! textOf htext using hsaid
  have htrimmed : ∀ e ∈ s.received.eraseDups, jsTrim (textOf e) = textOf e := fun e he =>
    hsend.trimmed ((peer, e), textOf e) (htext e (List.mem_eraseDups.mp he))
  suffices hplain : s.decryptions.map Polling.Decryption.plaintext =
      s.received.eraseDups.map fun e => some (Relay.utf8 (textOf e)) by
    obtain ⟨happended, hwarning⟩ := appended_of_plaintexts hinv hlost htrimmed hplain
    refine ⟨textOf, ?_, happended, hscreen, hwarning⟩
    intro e he text
    constructor
    · intro hmem
      rcases hsend.paired with ⟨-, hnone⟩ | ⟨ps, -, hreach⟩
      · exact absurd (hnone ▸ Sender.mem_sentTo hmem) List.not_mem_nil
      · exact Relay.utf8_injective
          (hopens.unique hreach hlimit rfl (Sender.mem_sentTo hmem) (Sender.mem_sentTo (htext e he)) (draws 0))
    · rintro rfl
      exact htext e he
  have hsent : ∀ e ∈ s.received.eraseDups, (e, Relay.utf8 (textOf e)) ∈ sender.sentTo peer := fun e he =>
    Sender.mem_sentTo (htext e (List.mem_eraseDups.mp he))
  rcases hsend.paired with ⟨-, hnone⟩ | ⟨ps, -, hreach⟩
  · -- nothing was sent, so nothing has come
    rw [hnone] at hsent
    have hempty : s.received.eraseDups = [] :=
      List.eq_nil_iff_forall_not_mem.mpr fun e he => List.not_mem_nil (hsent e he)
    rw [List.map_eq_nil_iff.mp (hinv.once.trans hempty), hempty]
    rfl
  · exact plaintexts_of_sent hopens hinv hpin hreach hlimit rfl rfl hsent

/-! ## Over a ratchet in the clear -/

/-- The session of the holder of key 9. -/
def clearBob : RatchetSession UInt8 Unit where
  identity := ⟨9, []⟩
  localAddress := addressForHash (sampleHash [9])
  localHash := sampleHash [9]
  store := { SignalStore.new with
    signedPreKeys := Function.update (fun _ => none) 1 (some ⟨1, [0], [0], [], 0⟩)
    kyberPreKeys := Function.update (fun _ => none) 1 (some ⟨1, [0], [0], [], 0⟩)
    preKeys := Function.update (fun _ => none) 1 (some ⟨1, [0], [0]⟩) }
  remoteAddress := none
  signedPreKey := some ⟨1, [0], [0], [], 0⟩
  kyberPreKey := some ⟨1, [0], [0], [], 0⟩
  oneTimePreKey := some ⟨1, [0], [0]⟩

/-- Its bundle. -/
def clearBundle : SignalBundle UInt8 := ⟨1, 1, some (1, [0]), 1, [0], [], 1, [0], [], 9⟩

theorem sampleCodecs_exact : sampleCodecs.Exact clearSignal.serialize where
  identityKey := by
    intro bs key
    constructor
    · intro h
      rw [sampleCodecs] at h
      dsimp only at h
      split at h
      · exact congrArg (fun k => [k]) (Option.some.inj h).symm
      · cases h
    · rintro rfl
      rfl
  publicKey := fun _ _ h => (Option.some.inj h).symm
  kyberPublicKey := fun _ _ h => (Option.some.inj h).symm

theorem clearBundle_wellFormed : clearBundle.WellFormed sampleCodecs clearSignal.serialize where
  deviceId := by decide
  identityKey := by decide
  signedPreKeyPublic := ⟨by decide, rfl⟩
  signedPreKeySignature := by decide
  kyberPreKeyPublic := ⟨by decide, rfl⟩
  kyberPreKeySignature := by decide
  preKey := by
    rintro id publicKey ⟨⟩
    exact ⟨by decide, rfl⟩

/-- The loop of its holder. -/
def clearReceiver : Polling.ReceiveComponent Nat (Sessions UInt8 Unit) :=
  receiver clearSignal sampleHash fun _ => 0

/-- Two messages to the holder of key 9, the first with a lookup. -/
def clearSends : List (SendAct UInt8 UInt8) :=
  [.send (some ⟨5, []⟩) " CQ==" " hi " false 0,
    .answered 0 (some (bundleToBytes clearSignal.serialize clearBundle)) 3 0,
    .send (some ⟨5, []⟩) "CQ==" "there" false 1]

/-- They are picked up the other way round, and the first that came once more. -/
def clearActs : List (Polling.Act Nat) :=
  [.effect (some "CQ=="), .render (some 0),
    .ready 0 true, .settle 0 (some (clearEnvelope 5 (Relay.utf8 "there"))), .tick 0,
    .ready 0 true, .settle 0 (some (clearEnvelope 5 (Relay.utf8 "hi"))), .tick 0,
    .ready 0 true, .settle 0 (some (clearEnvelope 5 (Relay.utf8 "there")))]

/-- The receiver after that. -/
def clearReceived : Polling.State Nat (Sessions UInt8 Unit) :=
  run (Polling.State.step clearReceiver) (.mount ⟨fun _ => clearBob, 0⟩) clearActs

/-- The sender after that. -/
def clearSent : Sender UInt8 Unit :=
  run (Sender.step clearSignal sampleHash sampleCodecs ⟨32, false⟩) .mount clearSends

theorem clearSignal_opens (limit : Nat) : Opens clearSignal sampleHash limit :=
  fun _ hp _ _ => clearSignal_decrypts hp

/-- Both are shown, in the order in which they came. -/
theorem clear_shown : ∃ textOf : Bytes → String,
    (∀ e ∈ clearReceived.received, ∀ text, (("CQ==", e), text) ∈ clearSent.said ↔ text = textOf e) ∧
      (∃ lost, clearReceived.received.eraseDups.map (fun e => toJs (textOf e)) = clearReceived.appended ++ lost ∧
        lost.length ≤ 1 ∧ (lost ≠ [] → clearReceived.mounted = false)) ∧
      (∃ added, clearReceived.messages = added ∧
        clearReceived.appended = added.filterMap Polling.Message.received) ∧
      clearReceived.decryptionWarning = false := by
  have hbob : newBob clearSignal sampleHash ⟨9, []⟩ 0 = .ok clearBob := rfl
  have hintroduces : Meets (Sender.step clearSignal sampleHash sampleCodecs ⟨32, false⟩)
      (Sender.Introduces "CQ==" (bundleToBytes clearSignal.serialize clearBundle)) .mount clearSends := by
    refine ⟨trivial, ?_, trivial, trivial⟩
    intro p hp hpeer bundleBytes hanswer
    exact ⟨(Option.some.inj hanswer).symm, rfl⟩
  have hfew : (clearSent.sentTo "CQ==").length ≤ 2 := by decide +kernel
  have hpin : ∀ k, clearReceived.receiverSession = some k → k = 0 := by
    intro k hk
    exact (Option.some.inj ((by decide +kernel : clearReceived.receiverSession = some 0).symm.trans hk)).symm
  have hreceived : clearReceived =
      run (Polling.State.step (receiver clearSignal sampleHash fun _ => 0)) (.mount ⟨fun _ => clearBob, 0⟩) clearActs :=
    rfl
  obtain ⟨textOf, htexts, happended, hscreen, hwarning⟩ := shown_as_typed (w := ⟨fun _ => clearBob, 0⟩) (h := 0)
    (clearSignal_opens 2) sampleCodecs_exact hbob rfl clearBundle_wellFormed (.inr (by decide +kernel)) hintroduces
    rfl hfew (fun _ => 0) hreceived hpin (by decide +kernel)
  exact ⟨textOf, htexts, happended, hscreen [] clearActs rfl (by decide), hwarning⟩

example : clearReceived.messages = [⟨toJs "there", false⟩, ⟨toJs "hi", false⟩] := by decide +kernel

end E2EMessaging.Web.Chat
