/-
  FROM ONE CLIENT TO ANOTHER, THROUGH THE RELAY (`clients/web/src/relay_transport.ts`, `relay/src/ws.rs`).

  `sendEnvelope` and `pickupEnvelope`, `publishPrekey` and `lookupPrekey`: the bytes are written with `btoa`,
  read by the relay's own base64 decoder, kept, taken out once, written by the relay's encoder and read with
  `atob`.  A call is followed through its round trips on the relay's log (`Completes`), under every
  interleaving with other requests (`Relay/System`).

  The bytes come back as they were sent EXACTLY IF THERE ARE ANY: of no bytes the base64 text is empty, the
  client takes an empty field for a missing one (`!resp.envelope`) and throws, and the relay has already
  given the envelope away.

  A round trip gets the response to its own request; what overlapping calls on one transport make of that is
  the subject of `Web/Correlation`.
-/
import E2EMessaging.Relay.Frame
import E2EMessaging.Web.Pow
import E2EMessaging.Web.RelayTransport

namespace E2EMessaging.Web

open E2EMessaging.Lib E2EMessaging.Relay

/-! ## Calls on the relay's log -/

/-- A response as the client reads it: fields that are not there are left out of the JSON text. -/
def Reply.ofResponse : WsResponse → Reply
  | .ok bundle envelope challenge challengeId =>
    ⟨some true, none, challenge, challengeId, bundle, envelope⟩
  | .err error => ⟨some false, some error, none, none, none, none⟩

/-- The platform of the web client. -/
def webPlatform (sha256 : Bytes → Bytes) : Platform where
  createError := none
  base64ToBytes := RelayTransport.base64ToBytes
  solve challenge := do
    let wire ← RelayTransport.base64ToBytes challenge
    let parsed ← RelayTransport.parseChallengeWire wire
    match RelayTransport.solvePow sha256 parsed with
    | .ok solution => RelayTransport.bytesToBase64 solution
    | .err e => .error e
    -- JavaScript throws, and does not panic
    | .panic => .error ""

/-- `sendEnvelope`, `publishPrekey`. -/
def TransportOp.deposit : Mailbox → String → Bytes → TransportOp
  | .envelopes, r, payload => .sendEnvelope r payload
  | .prekeys, r, payload => .publishPrekey r payload

/-- `pickupEnvelope`, `lookupPrekey`. -/
def TransportOp.collect : Mailbox → String → TransportOp
  | .envelopes, r => .pickupEnvelope r
  | .prekeys, r => .lookupPrekey r

/-- Entry `n` of the log is the frame of a round of the call, and the call goes on in `next`. -/
def Answered (P : Platform) (log : List Completed) (op : TransportOp) (round : Round) (n : Nat)
    (next : CallState) : Prop :=
  ∃ e resp, log[n]? = some e ∧ e.request = op.request round ∧ e.response = some resp ∧
    next = afterReply P op round (.object (.ofResponse resp))

/-- A whole call, whose last frame is entry `n` of the log. -/
inductive Completes (P : Platform) (log : List Completed) (op : TransportOp) (n : Nat)
    (result : Settlement) : Prop where
  /-- One round trip. -/
  | once {challengeId powSolution : String} (hfirst : op.firstRound = .main challengeId powSolution)
      (hmain : Answered P log op (.main challengeId powSolution) n (.settled result))
  /-- A challenge, its solution, and the operation. -/
  | solved {m : Nat} {challengeId challenge powSolution : String} (hfirst : op.firstRound = .challenge)
      (hissued : Answered P log op .challenge m (.solving challengeId challenge))
      (hsolved : P.solve challenge = .ok powSolution) (hlt : m < n)
      (hmain : Answered P log op (.main challengeId powSolution) n (.settled result))

/-- Entry `k` is the first collection for `r` after entry `i` that the relay does not rate limit; nothing
    else was done for `r` in between, and what entry `i` stored has not expired. -/
structure NextCollection (log : List Completed) (box : Mailbox) (r : String) (i k : Nat)
    (e f : Completed) : Prop where
  deposit : log[i]? = some e
  after : i < k
  collection : log[k]? = some f
  request : f.request = (TransportOp.collect box r).request (.main "" "")
  admitted : f.response ≠ some (.err "RateLimitExceeded")
  between : ∀ (m : Nat) g, i < m → m < k → log[m]? = some g → g.request.recipientId = r →
    g.response = some (.err "RateLimitExceeded")
  unexpired : ∀ bytes expiry, e.effect = some (.stored box (box.key r) bytes expiry) →
    f.now ≤ expiry

/-- What was sent is what comes back. -/
def Faithful (P : Platform) (log : List Completed) (box : Mailbox) (r : String) (payload : Bytes) :
    Prop :=
  ∀ i k e f, Completes P log (.deposit box r payload) i (.ok none) → NextCollection log box r i k e f →
    Completes P log (.collect box r) k (.ok (some payload))

/-! ## The deposit -/

theorem deposit_firstRound (box : Mailbox) (r : String) (payload : Bytes) :
    (TransportOp.deposit box r payload).firstRound = .challenge := by
  cases box with
  | envelopes => rfl
  | prekeys => rfl

theorem collect_firstRound (box : Mailbox) (r : String) :
    (TransportOp.collect box r).firstRound = .main "" "" := by
  cases box with
  | envelopes => rfl
  | prekeys => rfl

theorem deposit_request_op (box : Mailbox) (r : String) (payload : Bytes) (cid sol : String) :
    ((TransportOp.deposit box r payload).request (.main cid sol)).op =
      .deposit box (box.key r) (b64Encode payload) cid sol := by
  cases box with
  | envelopes => rfl
  | prekeys => rfl

theorem collect_request_op (box : Mailbox) (r : String) :
    ((TransportOp.collect box r).request (.main "" "")).op = .collect box (box.key r) := by
  cases box with
  | envelopes => rfl
  | prekeys => rfl

theorem collect_request_recipientId (box : Mailbox) (r : String) :
    ((TransportOp.collect box r).request (.main "" "")).recipientId = r := by
  cases box with
  | envelopes => rfl
  | prekeys => rfl

theorem deposit_request_recipientId (box : Mailbox) (r : String) (payload : Bytes) (cid sol : String) :
    ((TransportOp.deposit box r payload).request (.main cid sol)).recipientId = r := by
  cases box with
  | envelopes => rfl
  | prekeys => rfl

/-- A deposit answered with `ok` is answered with nothing else, and its recipient can be logged. -/
theorem deposit_ok {e : Completed} (he : e.Sound) {box : Mailbox} {key payload cid sol : String}
    (hop : e.request.op = .deposit box key payload cid sol)
    {bundle envelope challenge challengeId : Option String}
    (hresp : e.response = some (.ok bundle envelope challenge challengeId)) :
    e.response = some .okSimple ∧ ∀ z, logged e.request.recipientId z = some z := by
  cases he with
  | refused _ href =>
    exfalso
    rw [hresp] at href
    generalize hr : some (WsResponse.ok bundle envelope challenge challengeId) = x at href
    cases href with
    | rateLimited => cases (logged_eq_some hr.symm).1
    | issued hop' => simp [hop] at hop'
    | powFailed _ e => cases (logged_eq_some hr.symm).1
    | invalidBase64 _ e => cases Option.some.inj hr
  | stored _ _ _ hresp' =>
    obtain ⟨heq, hlogged⟩ := logged_eq_some (hresp'.symm.trans hresp)
    exact ⟨by rw [hresp, ← heq], hlogged⟩
  | collected hop' _ _ => simp [hop] at hop'

/-- A call that settles well has been answered with `ok`. -/
theorem response_ok {P : Platform} {op : TransportOp} {cid sol : String} {resp : WsResponse}
    {result : Option Bytes}
    (h : .settled (.ok result) = afterReply P op (.main cid sol) (.object (.ofResponse resp))) :
    ∃ bundle envelope challenge challengeId,
      resp = .ok bundle envelope challenge challengeId := by
  cases resp with
  | ok bundle envelope challenge challengeId => exact ⟨_, _, _, _, rfl⟩
  | err error => cases h

/-- **A deposit that resolves is in the mailbox**: the relay has read what the client wrote. -/
theorem stored_of_completes {P : Platform} {log : List Completed} (hlog : LogSound log) {box : Mailbox}
    {r : String} {payload : Bytes} {i : Nat}
    (h : Completes P log (.deposit box r payload) i (.ok none)) :
    ∃ e expiry, log[i]? = some e ∧ e.effect = some (.stored box (box.key r) payload expiry) ∧
      ∀ z, logged r z = some z := by
  cases h with
  | once hfirst _ =>
    rw [deposit_firstRound] at hfirst
    cases hfirst
  | @solved m challengeId challenge powSolution _ _ _ _ hmain =>
    obtain ⟨e, resp, he, hreq, hresp, hnext⟩ := hmain
    obtain ⟨_, _, _, _, rfl⟩ := response_ok hnext
    have hsound := hlog.entries e (List.mem_of_getElem? he)
    have hop : e.request.op =
        .deposit box (box.key r) (b64Encode payload) challengeId powSolution := by
      rw [hreq, deposit_request_op]
    obtain ⟨hsimple, hlogged⟩ := deposit_ok hsound hop hresp
    obtain ⟨bytes, stamp, hdec, -, heffect⟩ := deposit_accepted hsound hop hsimple
    rw [b64Decode_b64Encode] at hdec
    obtain rfl := Except.ok.inj hdec
    rw [hreq, deposit_request_recipientId] at hlogged
    exact ⟨e, _, he, heffect, hlogged⟩

/-! ## The collection -/

/-- A request that does something to a slot names its recipient, and is not one that was rate limited. -/
theorem use_names {e : Completed} (he : e.Sound) {box : Mailbox} {r : String} {u : Use Bytes}
    (hu : e.use box (box.key r) = some u) :
    e.request.recipientId = r ∧ e.response ≠ some (.err "RateLimitExceeded") := by
  cases u with
  | put v expiry now =>
    obtain ⟨⟨payload, cid, sol, hop, -⟩, -, hresp⟩ := use_put he hu
    refine ⟨(box.key_injective (deposit_key hop).2).symm, ?_⟩
    intro hlimited
    cases (logged_eq_some (hresp.symm.trans hlimited)).1
  | take now =>
    obtain ⟨hop, -, result, -, hresp⟩ := use_take he hu
    refine ⟨(box.key_injective (collect_key hop).2).symm, ?_⟩
    intro hlimited
    exact collectResponse_ne_rateLimit box result (Option.some.inj (hresp.symm.trans hlimited))
  | clear now => exact absurd hu use_ne_clear

/-- **What was stored is what the next collection is answered with.** -/
theorem NextCollection.response {log : List Completed} (hlog : LogSound log) {box : Mailbox} {r : String}
    {i k : Nat} {e f : Completed} (h : NextCollection log box r i k e f) {payload : Bytes}
    {expiry : Nat} (heffect : e.effect = some (.stored box (box.key r) payload expiry))
    (hlogged : ∀ z, logged r z = some z) :
    f.response = some (collectResponse box (.ok payload)) := by
  have hop : f.request.op = .collect box (box.key r) := by
    rw [h.request, collect_request_op]
  have hrecipient : f.request.recipientId = r := by
    rw [h.request, collect_request_recipientId]
  obtain ⟨result, hfeffect, hfresp⟩ := collect_answered (hlog.entries f (List.mem_of_getElem? h.collection))
    hop (by rw [hrecipient]; exact hlogged) h.admitted
  -- only rate-limited requests came in between
  have hbetween : ∀ (m : Nat) g, i < m → m < k → log[m]? = some g →
      g.use box (box.key r) = none := by
    intro m g him hmk hg
    cases huse : g.use box (box.key r) with
    | none => rfl
    | some u =>
      obtain ⟨hnames, hne⟩ := use_names (hlog.entries g (List.mem_of_getElem? hg)) huse
      exact absurd (h.between m g him hmk hg hnames) hne
  rw [hfresp, hlog.collected_of_stored h.deposit heffect h.after h.collection hfeffect hbetween
    (h.unexpired payload expiry heffect)]

/-! ## The bytes that come back -/

theorem b64Encode_eq_empty_iff (bytes : Bytes) : b64Encode bytes = "" ↔ bytes = [] := by
  constructor
  · intro h
    have hround := b64Decode_b64Encode bytes
    rw [h] at hround
    exact (Except.ok.inj hround).symm
  · rintro rfl
    rfl

theorem truthy_b64Encode (payload : Bytes) :
    truthy (some (b64Encode payload)) = if payload = [] then none else some (b64Encode payload) := by
  rw [truthy]
  by_cases hempty : payload = []
  · rw [if_pos hempty]
    subst hempty
    rfl
  · rw [if_neg hempty, Option.filter_some, if_pos]
    exact decide_eq_true (fun h => hempty ((b64Encode_eq_empty_iff payload).mp h))

/-- The message of a collection whose field is missing. -/
def missingField : Mailbox → String
  | .envelopes => "pickup_envelope response missing envelope"
  | .prekeys => "lookup_prekey response missing bundle"

/-- **What the client makes of the stored bytes**: it reads them back, unless there are none. -/
theorem conclude_collect (sha256 : Bytes → Bytes) (box : Mailbox) (r : String) (payload : Bytes) :
    (TransportOp.collect box r).conclude (webPlatform sha256)
        (.ofResponse (collectResponse box (.ok payload))) =
      if payload = [] then .error (missingField box) else .ok (some payload) := by
  by_cases hempty : payload = []
  · subst hempty
    cases box with
    | envelopes => rfl
    | prekeys => rfl
  · have htruthy : truthy (some (b64Encode payload)) = some (b64Encode payload) := by
      rw [truthy_b64Encode, if_neg hempty]
    have hread := RelayTransport.base64ToBytes_b64Encode payload
    rw [if_neg hempty]
    cases box with
    | envelopes =>
      rw [TransportOp.collect, TransportOp.conclude]
      dsimp only [Reply.ofResponse, collectResponse, WsResponse.okEnvelope, webPlatform]
      rw [htruthy]
      dsimp only
      rw [hread]
      rfl
    | prekeys =>
      rw [TransportOp.collect, TransportOp.conclude]
      dsimp only [Reply.ofResponse, collectResponse, WsResponse.okBundle, webPlatform]
      rw [htruthy]
      dsimp only
      rw [hread]
      rfl

/-- A collection has one round trip, so its settlement is what it makes of the response. -/
theorem completes_collect_iff {P : Platform} {log : List Completed} {box : Mailbox} {r : String} {k : Nat}
    {f : Completed} (hf : log[k]? = some f)
    (hreq : f.request = (TransportOp.collect box r).request (.main "" "")) {payload : Bytes}
    (hresp : f.response = some (collectResponse box (.ok payload))) (result : Settlement) :
    Completes P log (.collect box r) k result ↔
      result = (TransportOp.collect box r).conclude P
        (.ofResponse (collectResponse box (.ok payload))) := by
  have hafter : afterReply P (.collect box r) (.main "" "")
      (.object (.ofResponse (collectResponse box (.ok payload)))) =
      .settled ((TransportOp.collect box r).conclude P
        (.ofResponse (collectResponse box (.ok payload)))) := by
    cases box with
    | envelopes => rfl
    | prekeys => rfl
  constructor
  · intro h
    cases h with
    | once hfirst hmain =>
      rw [collect_firstRound] at hfirst
      obtain ⟨rfl, rfl⟩ := Round.main.inj hfirst
      obtain ⟨e, resp, he, -, hresp', hnext⟩ := hmain
      obtain rfl := Option.some.inj (hf.symm.trans he)
      obtain rfl := Option.some.inj (hresp.symm.trans hresp')
      rw [hafter] at hnext
      exact CallState.settled.inj hnext
    | solved hfirst _ _ _ _ =>
      rw [collect_firstRound] at hfirst
      cases hfirst
  · rintro rfl
    exact .once (collect_firstRound box r) ⟨f, _, hf, hreq, hresp, hafter.symm⟩

/-- **End-to-end fidelity holds exactly for payloads with bytes in them.**  In every run of the relay, for
    either mailbox: the deposit of a payload resolves, and the next collection the relay does not rate limit
    comes before anything else is done for the recipient and before the payload expires.  Then the
    collection resolves to the payload if and only if the payload is not empty. -/
theorem envelope_fidelity_iff (sha256 : Bytes → Bytes) (rate : Nat) (acts : List Action) (box : Mailbox)
    (r : String) (payload : Bytes) (i k : Nat) (e f : Completed)
    (hdeposit : Completes (webPlatform sha256) (run (System.step sha256) (System.start rate) acts).log
      (.deposit box r payload) i (.ok none))
    (hnext : NextCollection (run (System.step sha256) (System.start rate) acts).log box r i k e f) :
    Completes (webPlatform sha256) (run (System.step sha256) (System.start rate) acts).log
      (.collect box r) k (.ok (some payload)) ↔ payload ≠ [] := by
  have hlog : LogSound (run (System.step sha256) (System.start rate) acts).log :=
    (System.run_sound sha256 rate acts).log
  obtain ⟨e', expiry, he', heffect, hlogged⟩ := stored_of_completes hlog hdeposit
  obtain rfl := Option.some.inj (hnext.deposit.symm.trans he')
  have hresp := hnext.response hlog heffect hlogged
  rw [completes_collect_iff hnext.collection hnext.request hresp, conclude_collect]
  by_cases hempty : payload = []
  · rw [if_pos hempty]
    exact ⟨fun h => absurd h nofun, fun h => absurd hempty h⟩
  · rw [if_neg hempty]
    exact ⟨fun _ => hempty, fun _ => rfl⟩

/-! ## Two runs -/

/-- A challenge of the relay's is read, solved and its solution written. -/
theorem webPlatform_solve {sha256 : Bytes → Bytes} {c : Challenge} (hc : c.Fits) {solution : Bytes}
    (h : RelayTransport.solvePow sha256 ⟨c.context, c.nonce, c.difficulty⟩ = .ok solution) :
    (webPlatform sha256).solve (b64Encode c.toWire) = .ok (b64Encode solution) := by
  have hread := RelayTransport.base64ToBytes_b64Encode c.toWire
  have hparse := RelayTransport.parseChallengeWire_toWire hc
  have hwrite := RelayTransport.bytesToBase64_eq solution
  simp only [webPlatform, hread, hparse, bind, Except.bind, h, hwrite]

/-- A hash that meets every difficulty. -/
def zeroSha (_ : Bytes) : Bytes := List.replicate 32 0

/-- The challenge of the runs below. -/
def issuedA : Challenge := .new powContext powDifficulty nonceA

theorem webPlatform_solve_issuedA :
    (webPlatform zeroSha).solve (b64Encode issuedA.toWire) = .ok "AAAAAAAAAAA=" := by
  have hsolve : RelayTransport.solvePow zeroSha
      ⟨issuedA.context, issuedA.nonce, issuedA.difficulty⟩ = .ok (toLeBytes 8 0) := by
    rw [RelayTransport.solvePow, if_neg (by decide), RelayTransport.solvePowFrom]
    decide +kernel
  exact webPlatform_solve ⟨by decide, by decide, by decide⟩ hsolve

/-- Bob is sent an envelope, and picks up twice. -/
def sendPickPick (text : String) : List Action :=
  exchange 0 3 (.challenge "bob") nonceA ++
  exchange 1 5 (.sendEnvelope "bob" text "000102030405060708090a0b0c0d0e0f" "AAAAAAAAAAA=") [] ++
  exchange 2 3 (.pickupEnvelope "bob") [] ++
  exchange 3 3 (.pickupEnvelope "bob") []

/-- The log of that run. -/
def sendPickPickLog (envelope : Bytes) (text : String) : List Completed :=
  [⟨0, .challenge "bob", none,
      some (.okChallenge "000102030405060708090a0b0c0d0e0f" (b64Encode issuedA.toWire)), 0⟩,
    ⟨1, .sendEnvelope "bob" text "000102030405060708090a0b0c0d0e0f" "AAAAAAAAAAA=",
      some (.stored .envelopes "bob" envelope 604800000000000), some .okSimple, 0⟩,
    ⟨2, .pickupEnvelope "bob", some (.collected .envelopes "bob" (.ok envelope)),
      some (.okEnvelope text), 0⟩,
    ⟨3, .pickupEnvelope "bob", some (.collected .envelopes "bob" (.error .notFound)),
      some (.err "NotFound"), 0⟩]

/-- The send resolves, and the first pickup is the next collection. -/
theorem sendPickPick_scope (envelope : Bytes) :
    Completes (webPlatform zeroSha) (sendPickPickLog envelope (b64Encode envelope))
        (.deposit .envelopes "bob" envelope) 1 (.ok none) ∧
      NextCollection (sendPickPickLog envelope (b64Encode envelope)) .envelopes "bob" 1 2
        ⟨1, .sendEnvelope "bob" (b64Encode envelope) "000102030405060708090a0b0c0d0e0f" "AAAAAAAAAAA=",
          some (.stored .envelopes "bob" envelope 604800000000000), some .okSimple, 0⟩
        ⟨2, .pickupEnvelope "bob", some (.collected .envelopes "bob" (.ok envelope)),
          some (.okEnvelope (b64Encode envelope)), 0⟩ := by
  constructor
  · refine .solved (m := 0) rfl ⟨_, _, rfl, rfl, rfl, ?_⟩ webPlatform_solve_issuedA Nat.zero_lt_one
      ⟨_, _, rfl, rfl, rfl, rfl⟩
    have hwire : truthy (some (b64Encode issuedA.toWire)) = some (b64Encode issuedA.toWire) := by
      rw [truthy_b64Encode, if_neg (by decide)]
    have hid : truthy (some "000102030405060708090a0b0c0d0e0f") =
        some "000102030405060708090a0b0c0d0e0f" := by decide
    rw [afterReply]
    dsimp only [settleFrame, Reply.ofResponse, WsResponse.okChallenge]
    rw [hwire, hid]
  · refine ⟨rfl, by decide, rfl, rfl, ?_, ?_, fun _ _ _ => Nat.zero_le _⟩
    · intro h
      cases Option.some.inj h
    · intro m g him hmk
      omega

/-- The two bytes of an envelope come back. -/
theorem envelope_fidelity_two_bytes :
    Completes (webPlatform zeroSha)
      (run (System.step zeroSha) (System.start 10) (sendPickPick "aGk=")).log
      (.collect .envelopes "bob") 2 (.ok (some [104, 105])) := by
  have hlog : (run (System.step zeroSha) (System.start 10) (sendPickPick "aGk=")).log =
      sendPickPickLog [104, 105] (b64Encode [104, 105]) := by decide +kernel
  obtain ⟨hdeposit, hnext⟩ := sendPickPick_scope [104, 105]
  rw [← hlog] at hdeposit hnext
  exact (envelope_fidelity_iff zeroSha 10 (sendPickPick "aGk=") .envelopes "bob" [104, 105] 1 2 _ _
    hdeposit hnext).mpr (by decide)

/-- An empty envelope does not come back: the pickup throws, and the relay has nothing for a second one. -/
theorem empty_envelope_lost :
    ¬ Faithful (webPlatform zeroSha)
        (run (System.step zeroSha) (System.start 10) (sendPickPick "")).log .envelopes "bob" [] ∧
      Completes (webPlatform zeroSha)
        (run (System.step zeroSha) (System.start 10) (sendPickPick "")).log (.collect .envelopes "bob") 2
        (.error "pickup_envelope response missing envelope") ∧
      Completes (webPlatform zeroSha)
        (run (System.step zeroSha) (System.start 10) (sendPickPick "")).log (.collect .envelopes "bob") 3
        (.error "NotFound") := by
  have hlog : (run (System.step zeroSha) (System.start 10) (sendPickPick "")).log =
      sendPickPickLog [] (b64Encode []) := by decide +kernel
  rw [hlog]
  obtain ⟨hdeposit, hnext⟩ := sendPickPick_scope []
  have hempty : some (WsResponse.okEnvelope (b64Encode [])) =
      some (collectResponse .envelopes (.ok [])) := rfl
  have hsettles := completes_collect_iff (P := webPlatform zeroSha) hnext.collection hnext.request hempty
  refine ⟨?_, (hsettles _).mpr (by rw [conclude_collect]; rfl), ?_⟩
  · intro hfaithful
    have hback := (hsettles _).mp (hfaithful 1 2 _ _ hdeposit hnext)
    rw [conclude_collect] at hback
    cases hback
  · exact .once rfl ⟨_, _, rfl, rfl, rfl, rfl⟩

end E2EMessaging.Web
