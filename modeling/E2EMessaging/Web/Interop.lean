/-
  TWO CLIENTS, ONE RELAY (`relay/src/ws.rs`, `clients/web/src/relay_transport.ts`).

  The relay has a client in Rust and one in the browser.  Both write the same frames and read the same
  responses, with different libraries and different ideas of a missing field.  Here the Rust client is
  followed through its round trips on the relay's log (`Performs`), as the web client is in `Web/Fidelity`.

  * `interop_iff`: whoever of the two sends and whoever of the two receives, the next collection gives the
    payload back; only the web client, given no bytes, does not take them.
  * `ws_clients_deliver`: the same for two `WsRelayClient`s with connections of their own, from their runs.
    The relay answers the frames of a connection in their order (`handle_connection`); a client that has
    abandoned no call has each of its frames answered by the response to it.
-/
import E2EMessaging.Relay.WsJson
import E2EMessaging.Web.Fidelity

namespace E2EMessaging.Web

open E2EMessaging.Lib E2EMessaging.Relay

/-! ## Calls of the Rust client on the relay's log -/

/-- Entry `n` of the log is the exchange. -/
def Exchanged (log : List Completed) (req : Relay.Json) (reply : Relay.Reply) (n : Nat) : Prop :=
  ∃ e resp, log[n]? = some e ∧ WsRequest.ofJson req = some e.request ∧ e.response = some resp ∧
    reply = .ok resp.toJson

/-- A whole call, whose frames are the entries `ns` of the log. -/
def Performs {α : Type} (log : List Completed) (call : Relay.Call α) (ns : List Nat)
    (result : Outcome WsClientError α) : Prop :=
  ∃ es, call.Reaches es (.ret result) ∧ es.length = ns.length ∧ ns.Pairwise (· < ·) ∧
    ∀ (j : Nat) req reply n, es[j]? = some (req, reply) → ns[j]? = some n → Exchanged log req reply n

/-- One round trip. -/
theorem reaches_roundTrip {req : Relay.Json} {es : List (Relay.Json × Relay.Reply)}
    {result : Outcome WsClientError Relay.Json} (h : (roundTrip req).Reaches es (.ret result)) :
    ∃ reply, es = [(req, reply)] ∧ ∀ resp, reply = .ok resp → result = .ok resp := by
  obtain ⟨reply, es', rfl, h'⟩ := Dialog.reaches_ask_ret h
  cases reply with
  | ok resp =>
    obtain ⟨rfl, heq⟩ := Dialog.reaches_ret h'
    refine ⟨.ok resp, rfl, fun resp' hresp => ?_⟩
    obtain rfl := Except.ok.inj hresp
    exact Dialog.ret.inj heq
  | error e =>
    obtain ⟨rfl, -⟩ := Dialog.reaches_ret h'
    exact ⟨.error e, rfl, nofun⟩

theorem reaches_roundTrip_ok {req resp : Relay.Json} {es : List (Relay.Json × Relay.Reply)}
    (h : (roundTrip req).Reaches es (.ret (.ok resp))) : es = [(req, .ok resp)] := by
  obtain ⟨reply, es', rfl, h'⟩ := Dialog.reaches_ask_ret h
  cases reply with
  | ok resp' =>
    obtain ⟨rfl, heq⟩ := Dialog.reaches_ret h'
    obtain rfl := Outcome.ok.inj (Dialog.ret.inj heq)
    rfl
  | error e => cases (Dialog.reaches_ret h').2

/-- A deposit that returns `Ok` ends with its own request, and a response that says so. -/
theorem reaches_depositCall {sha256 : Bytes → Bytes} {box : Mailbox} {r : String} {payload : Bytes}
    {es : List (Relay.Json × Relay.Reply)}
    (h : (depositCall sha256 box r payload).Reaches es (.ret (.ok ()))) :
    ∃ es₁ cid sol resp, es = es₁ ++ [(depositJson box r payload cid sol, .ok resp)] ∧
      (resp.index "ok").isTrue = true := by
  obtain ⟨⟨cid, sol⟩, es₁, es₂, rfl, -, h₂⟩ := Dialog.reaches_andThen_ok h
  obtain ⟨resp, es₃, es₄, rfl, h₃, h₄⟩ := Dialog.reaches_andThen_ok h₂
  obtain rfl := reaches_roundTrip_ok h₃
  obtain ⟨rfl, heq⟩ := Dialog.reaches_ret h₄
  refine ⟨es₁, cid, sol, resp, rfl, ?_⟩
  have hresult : depositResult resp = .ok () := (Dialog.ret.inj heq).symm
  rw [depositResult] at hresult
  split at hresult
  · assumption
  · cases hresult

/-- A collection is one exchange. -/
theorem reaches_collectCall {box : Mailbox} {r : String} {es : List (Relay.Json × Relay.Reply)}
    {result : Outcome WsClientError Bytes} (h : (collectCall box r).Reaches es (.ret result)) :
    ∃ reply, es = [(collectJson box r, reply)] ∧
      ∀ resp, reply = .ok resp → result = collectResult box resp := by
  obtain ⟨x, es₁, es₂, rfl, h₁, h₂⟩ := Dialog.reaches_bind_ret h
  obtain ⟨reply, rfl, hreply⟩ := reaches_roundTrip h₁
  have hes₂ : es₂ = [] := by
    cases x with
    | ok resp => exact (Dialog.reaches_ret h₂).1
    | err e => exact (Dialog.reaches_ret h₂).1
    | panic => exact (Dialog.reaches_ret h₂).1
  subst hes₂
  refine ⟨reply, rfl, fun resp hresp => ?_⟩
  obtain rfl := hreply resp hresp
  exact Dialog.ret.inj (Dialog.reaches_ret h₂).2

/-- **A deposit of the Rust client that returns `Ok` is in the mailbox**, if its frames, one by one, are entries
    of the log: its last frame is the entry. -/
theorem stored_of_exchanged {sha256 : Bytes → Bytes} {log : List Completed} (hlog : LogSound log)
    {box : Mailbox} {r : String} {payload : Bytes} {es : List (Relay.Json × Relay.Reply)}
    (hreaches : (depositCall sha256 box r payload).Reaches es (.ret (.ok ()))) {position : Nat → Nat → Prop}
    (hexchanged : ∀ (j : Nat) req reply, es[j]? = some (req, reply) →
      ∃ k, position j k ∧ Exchanged log req reply k) :
    ∃ j i e expiry, j + 1 = es.length ∧ position j i ∧ log[i]? = some e ∧
      e.effect = some (.stored box (box.key r) payload expiry) ∧ ∀ z, logged r z = some z := by
  obtain ⟨es₁, cid, sol, resp, rfl, hok⟩ := reaches_depositCall hreaches
  obtain ⟨i, hi, e, response, he, hreq, hresp, heq⟩ := hexchanged es₁.length _ _ List.getElem?_concat_length
  obtain rfl := Except.ok.inj heq
  rw [ofJson_depositJson] at hreq
  obtain ⟨b, en, c, id, rfl⟩ := (toJson_ok_iff response).mp hok
  have hsound := hlog.entries e (List.mem_of_getElem? he)
  have hop : e.request.op = .deposit box (box.key r) (b64Encode payload) cid sol := by
    rw [← Option.some.inj hreq, WsRequest.deposit_op]
  obtain ⟨hsimple, hlogged⟩ := deposit_ok hsound hop hresp
  obtain ⟨bytes, stamp, hdec, -, heffect⟩ := deposit_accepted hsound hop hsimple
  rw [b64Decode_b64Encode] at hdec
  obtain rfl := Except.ok.inj hdec
  rw [← Option.some.inj hreq, WsRequest.deposit_recipientId] at hlogged
  exact ⟨es₁.length, i, e, _, by rw [List.length_append]; rfl, hi, he, heffect, hlogged⟩

theorem stored_of_performs {sha256 : Bytes → Bytes} {log : List Completed} (hlog : LogSound log) {box : Mailbox}
    {r : String} {payload : Bytes} {ns : List Nat} {i : Nat}
    (h : Performs log (depositCall sha256 box r payload) (ns ++ [i]) (.ok ())) :
    ∃ e expiry, log[i]? = some e ∧ e.effect = some (.stored box (box.key r) payload expiry) ∧
      ∀ z, logged r z = some z := by
  obtain ⟨es, hreaches, hlen, -, hentries⟩ := h
  have hexchanged : ∀ (j : Nat) req reply, es[j]? = some (req, reply) →
      ∃ k, (ns ++ [i])[j]? = some k ∧ Exchanged log req reply k := by
    intro j req reply hj
    have hlt : j < (ns ++ [i]).length := hlen ▸ (List.getElem?_eq_some_iff.mp hj).1
    have hk := List.getElem?_eq_getElem hlt
    exact ⟨_, hk, hentries j req reply _ hj hk⟩
  obtain ⟨j, i', e, expiry, hj, hposition, he, heffect, hlogged⟩ := stored_of_exchanged hlog hreaches hexchanged
  rw [List.length_append] at hlen
  obtain rfl : j = ns.length := Nat.add_right_cancel (hj.trans hlen)
  obtain rfl := Option.some.inj (List.getElem?_concat_length.symm.trans hposition)
  exact ⟨e, expiry, he, heffect, hlogged⟩

/-- **A collection of the Rust client returns what the relay took out of the mailbox.** -/
theorem performs_collect_iff {log : List Completed} {box : Mailbox} {r : String} {k : Nat} {f : Completed}
    (hf : log[k]? = some f) (hreq : f.request = .collect box r) {payload : Bytes}
    (hresp : f.response = some (collectResponse box (.ok payload))) (result : Outcome WsClientError Bytes) :
    Performs log (collectCall box r) [k] result ↔ result = .ok payload := by
  constructor
  · rintro ⟨es, hreaches, -, -, hentries⟩
    obtain ⟨reply, rfl, hreply⟩ := reaches_collectCall hreaches
    obtain ⟨e, resp, he, -, hresp', heq⟩ := hentries 0 _ _ k rfl rfl
    obtain rfl := Option.some.inj (hf.symm.trans he)
    obtain rfl := Option.some.inj (hresp.symm.trans hresp')
    rw [hreply _ heq, collectResult_collectResponse]
  · rintro rfl
    refine ⟨[(collectJson box r, .ok (collectResponse box (.ok payload)).toJson)], ?_, rfl,
      List.pairwise_singleton _ _, ?_⟩
    · have hstep := Dialog.Reaches.answered (d := collectCall box r) .start
        (.ok (collectResponse box (.ok payload)).toJson)
      rw [← collectResult_collectResponse box payload]
      exact hstep
    · intro j req reply n hj hn
      cases j with
      | zero =>
        cases hj
        cases hn
        exact ⟨f, _, hf, by rw [ofJson_collectJson, hreq], hresp, rfl⟩
      | succ j => cases hj

/-! ## Either client -/

/-- The clients of the relay. -/
inductive ClientKind where
  | rust
  | web
  deriving Repr, DecidableEq

/-- A deposit that has gone well; its last frame is entry `i`. -/
def Deposited (sha256 : Bytes → Bytes) (log : List Completed) (box : Mailbox) (r : String) (payload : Bytes)
    (i : Nat) : ClientKind → Prop
  | .rust => ∃ ns, Performs log (depositCall sha256 box r payload) (ns ++ [i]) (.ok ())
  | .web => Completes (webPlatform sha256) log (.deposit box r payload) i (.ok none)

/-- A collection, entry `k` of the log, that has given the payload. -/
def Collected (sha256 : Bytes → Bytes) (log : List Completed) (box : Mailbox) (r : String) (payload : Bytes)
    (k : Nat) : ClientKind → Prop
  | .rust => Performs log (collectCall box r) [k] (.ok payload)
  | .web => Completes (webPlatform sha256) log (.collect box r) k (.ok (some payload))

theorem Deposited.stored {sha256 : Bytes → Bytes} {log : List Completed} (hlog : LogSound log) {box : Mailbox}
    {r : String} {payload : Bytes} {i : Nat} {sender : ClientKind}
    (h : Deposited sha256 log box r payload i sender) :
    ∃ e expiry, log[i]? = some e ∧ e.effect = some (.stored box (box.key r) payload expiry) ∧
      ∀ z, logged r z = some z := by
  cases sender with
  | rust =>
    obtain ⟨ns, h⟩ := h
    exact stored_of_performs hlog h
  | web => exact stored_of_completes hlog h

theorem collect_request (box : Mailbox) (r : String) :
    (TransportOp.collect box r).request (.main "" "") = WsRequest.collect box r := by
  cases box with
  | envelopes => rfl
  | prekeys => rfl

/-- **Either client to either client.**  In every run of the relay, whichever client has made the deposit: the
    next collection gives the payload to the Rust client, and to the web client exactly if there are bytes
    in it. -/
theorem interop_iff (sha256 : Bytes → Bytes) (rate : Nat) (acts : List Action) (box : Mailbox) (r : String)
    (payload : Bytes) (i k : Nat) (e f : Completed) (sender receiver : ClientKind)
    (hdeposit : Deposited sha256 (run (System.step sha256) (System.start rate) acts).log box r payload i sender)
    (hnext : NextCollection (run (System.step sha256) (System.start rate) acts).log box r i k e f) :
    Collected sha256 (run (System.step sha256) (System.start rate) acts).log box r payload k receiver ↔
      receiver = .rust ∨ payload ≠ [] := by
  have hlog : LogSound (run (System.step sha256) (System.start rate) acts).log :=
    (System.run_sound sha256 rate acts).log
  obtain ⟨e', expiry, he', heffect, hlogged⟩ := hdeposit.stored hlog
  obtain rfl := Option.some.inj (hnext.deposit.symm.trans he')
  have hresp := hnext.response hlog heffect hlogged
  cases receiver with
  | rust =>
    have hreq : f.request = .collect box r := by rw [hnext.request, collect_request]
    exact ⟨fun _ => Or.inl rfl, fun _ => (performs_collect_iff hnext.collection hreq hresp _).mpr rfl⟩
  | web =>
    show Completes _ _ _ _ _ ↔ _
    rw [completes_collect_iff hnext.collection hnext.request hresp, conclude_collect]
    by_cases hempty : payload = []
    · rw [if_pos hempty]
      exact ⟨nofun, fun h => absurd hempty (h.resolve_left nofun)⟩
    · rw [if_neg hempty]
      exact ⟨fun _ => Or.inr hempty, fun _ => rfl⟩

/-- The empty envelope of a web client, which no web client can pick up, is picked up by the Rust client. -/
theorem interop_empty :
    Collected zeroSha (run (System.step zeroSha) (System.start 10) (sendPickPick "")).log .envelopes "bob" []
      2 .rust := by
  have hlog : (run (System.step zeroSha) (System.start 10) (sendPickPick "")).log =
      sendPickPickLog [] (b64Encode []) := by decide +kernel
  obtain ⟨hdeposit, hnext⟩ := sendPickPick_scope []
  rw [← hlog] at hdeposit hnext
  exact (interop_iff zeroSha 10 (sendPickPick "") .envelopes "bob" [] 1 2 _ _ .web .rust hdeposit hnext).mpr
    (Or.inl rfl)

/-! ## Clients with connections of their own -/

/-- `publish_prekey`, `send_envelope`. -/
def depositOp : Mailbox → String → Bytes → ClientOp
  | .prekeys => .publishPrekey
  | .envelopes => .sendEnvelope

/-- `lookup_prekey`, `pickup_envelope`. -/
def collectOp : Mailbox → String → ClientOp
  | .prekeys => .lookupPrekey
  | .envelopes => .pickupEnvelope

/-- `handle_connection`: the text frames of a connection are answered one after the other, and the answers
    are entries `ns` of the log. -/
structure Serves (log : List Completed) (c : WsRelayClient) (ns : List Nat) : Prop where
  ordered : ns.Pairwise (· < ·)
  entries : ∀ (n : Nat) req reply, c.sent[n]? = some req → c.texts[n]? = some reply →
    ∃ k, ns[n]? = some k ∧ Exchanged log req reply k

/-- A call that has returned, in a run in which no call is abandoned: each of its frames is an entry of the
    log, and its dialog went on with the response of that entry. -/
theorem returned_served {sha256 : Bytes → Bytes} {log : List Completed} {events : List ClientEvent}
    (hkept : ∀ a ∈ events, a.abandons = false) {ns : List Nat}
    (hserves : Serves log (run (WsRelayClient.step sha256) .connect events) ns) {x : Returned}
    (hx : x ∈ (run (WsRelayClient.step sha256) .connect events).returned)
    (hresult : x.result ≠ .err .connectionUnavailable) :
    ∃ es, (x.op.dialog sha256).Reaches es (.ret x.result) ∧ ∀ (j : Nat) req reply, es[j]? = some (req, reply) →
      ∃ k, ns[x.first + j]? = some k ∧ Exchanged log req reply k := by
  have hnone : events.countP ClientEvent.abandons = 0 := by
    apply List.countP_eq_zero.mpr
    intro a ha
    rw [hkept a ha]
    exact Bool.false_ne_true
  have habandoned : x.abandoned = 0 := Nat.le_zero.mp (hnone ▸ abandoned_run events hx)
  obtain ⟨-, es, hreaches, hpaired⟩ := exchanged_run events hx hresult
  refine ⟨es, hreaches, fun j req reply hj => ?_⟩
  obtain ⟨hsent, htexts⟩ := hpaired j req reply hj
  rw [habandoned, Nat.sub_zero] at htexts
  exact hserves.entries _ req reply hsent htexts

/-- A deposit that a client's call has returned from is in the mailbox: its second frame is the entry. -/
theorem returned_deposit {sha256 : Bytes → Bytes} {log : List Completed} (hlog : LogSound log)
    {events : List ClientEvent} (hkept : ∀ a ∈ events, a.abandons = false) {ns : List Nat}
    (hserves : Serves log (run (WsRelayClient.step sha256) .connect events) ns) {x : Returned}
    (hx : x ∈ (run (WsRelayClient.step sha256) .connect events).returned) {box : Mailbox} {r : String}
    {payload : Bytes} (hop : x.op = depositOp box r payload) (hok : x.result = .ok .done) :
    ∃ i e expiry, i ∈ ns ∧ log[i]? = some e ∧ e.effect = some (.stored box (box.key r) payload expiry) ∧
      ∀ z, logged r z = some z := by
  obtain ⟨es, hreaches, hexchanged⟩ := returned_served hkept hserves hx (by rw [hok]; nofun)
  have hdone : (depositCall sha256 box r payload).done.Reaches es (.ret (.ok .done)) := by
    rw [hop, hok] at hreaches
    cases box with
    | prekeys => exact hreaches
    | envelopes => exact hreaches
  obtain ⟨⟨⟩, es₁, es₂, rfl, hdeposit, hrest⟩ := Dialog.reaches_andThen_ok hdone
  obtain ⟨rfl, -⟩ := Dialog.reaches_ret hrest
  rw [List.append_nil] at hexchanged
  obtain ⟨j, i, e, expiry, -, hi, he, hstored⟩ := stored_of_exchanged hlog hdeposit hexchanged
  exact ⟨i, e, expiry, List.mem_of_getElem? hi, he, hstored⟩

/-- A collection that a client's call has returned from: what it makes of the response of its entry. -/
theorem returned_collect {sha256 : Bytes → Bytes} {log : List Completed} {events : List ClientEvent}
    (hkept : ∀ a ∈ events, a.abandons = false) {ns : List Nat}
    (hserves : Serves log (run (WsRelayClient.step sha256) .connect events) ns) {x : Returned}
    (hx : x ∈ (run (WsRelayClient.step sha256) .connect events).returned) {box : Mailbox} {r : String}
    (hop : x.op = collectOp box r) (hresult : x.result ≠ .err .connectionUnavailable) :
    ∃ k f resp, ns[x.first]? = some k ∧ log[k]? = some f ∧ f.request = .collect box r ∧
      f.response = some resp ∧ ∀ payload, collectResult box resp.toJson = .ok payload →
        x.result = .ok (.bytes payload) := by
  obtain ⟨es, hreaches, hexchanged⟩ := returned_served hkept hserves hx hresult
  have hfetched : (collectCall box r).fetched.Reaches es (.ret x.result) := by
    rw [hop] at hreaches
    cases box with
    | prekeys => exact hreaches
    | envelopes => exact hreaches
  obtain ⟨value, es₁, es₂, rfl, hcollect, hrest⟩ := Dialog.reaches_bind_ret hfetched
  obtain ⟨reply, rfl, hreply⟩ := reaches_collectCall hcollect
  obtain ⟨k, hk, f, resp, hf, hreq, hresp, rfl⟩ := hexchanged 0 _ reply rfl
  rw [ofJson_collectJson] at hreq
  refine ⟨k, f, resp, hk, hf, (Option.some.inj hreq).symm, hresp, fun payload hpayload => ?_⟩
  obtain rfl := (hreply _ rfl).trans hpayload
  exact Dialog.ret.inj (Dialog.reaches_ret hrest).2

/-- **From one client's call to another's.**  Two Rust clients, each over a connection of its own on which no
    call is abandoned, and any run of the relay.  A deposit has returned `Ok`: then one of its frames is a log
    entry `i` that stored the payload; and a collection whose frame is the next one after `i` returns the
    payload, unless it found the connection unavailable. -/
theorem ws_clients_deliver (sha256 : Bytes → Bytes) (rate : Nat) (acts : List Action)
    (sending receiving : List ClientEvent) (hsending : ∀ a ∈ sending, a.abandons = false)
    (hreceiving : ∀ a ∈ receiving, a.abandons = false) (ns ns' : List Nat)
    (hserves : Serves (run (System.step sha256) (System.start rate) acts).log
      (run (WsRelayClient.step sha256) .connect sending) ns)
    (hserves' : Serves (run (System.step sha256) (System.start rate) acts).log
      (run (WsRelayClient.step sha256) .connect receiving) ns')
    (box : Mailbox) (r : String) (payload : Bytes) (x y : Returned)
    (hx : x ∈ (run (WsRelayClient.step sha256) .connect sending).returned)
    (hsent : x.op = depositOp box r payload ∧ x.result = .ok .done)
    (hy : y ∈ (run (WsRelayClient.step sha256) .connect receiving).returned) (hcollects : y.op = collectOp box r) :
    ∃ i e expiry, i ∈ ns ∧ (run (System.step sha256) (System.start rate) acts).log[i]? = some e ∧
      e.effect = some (.stored box (box.key r) payload expiry) ∧
      ∀ k f, ns'[y.first]? = some k →
        NextCollection (run (System.step sha256) (System.start rate) acts).log box r i k e f →
          y.result = .ok (.bytes payload) ∨ y.result = .err .connectionUnavailable := by
  have hlog : LogSound (run (System.step sha256) (System.start rate) acts).log :=
    (System.run_sound sha256 rate acts).log
  obtain ⟨i, e, expiry, hi, he, heffect, hlogged⟩ := returned_deposit hlog hsending hserves hx hsent.1 hsent.2
  refine ⟨i, e, expiry, hi, he, heffect, fun k f hk hnext => ?_⟩
  by_cases hresult : y.result = .err .connectionUnavailable
  · exact Or.inr hresult
  · obtain ⟨k', f', resp, hk', hf', -, hresp, hbytes⟩ := returned_collect hreceiving hserves' hy hcollects hresult
    obtain rfl := Option.some.inj (hk.symm.trans hk')
    obtain rfl := Option.some.inj (hnext.collection.symm.trans hf')
    obtain rfl := Option.some.inj (hresp.symm.trans (hnext.response hlog heffect hlogged))
    exact Or.inl (hbytes payload (collectResult_collectResponse box payload))

/-! ### Two clients in a run -/

/-- The response to the challenge request. -/
def challengeResponse : WsResponse :=
  .okChallenge "000102030405060708090a0b0c0d0e0f" (b64Encode issuedA.toWire)

/-- Alice's client sends Bob two bytes. -/
def aliceSends : List ClientEvent :=
  [.call (.sendEnvelope "bob" [104, 105]) true, .arrive (.text (.ok challengeResponse.toJson)), .poll true,
    .arrive (.text (.ok WsResponse.okSimple.toJson)), .poll true]

/-- Bob's client picks up. -/
def bobPicksUp : List ClientEvent :=
  [.call (.pickupEnvelope "bob") true, .arrive (.text (.ok (WsResponse.okEnvelope "aGk=").toJson)), .poll true]

theorem solveChallenge_challengeResponse :
    Relay.solveChallenge zeroSha (.ok challengeResponse.toJson) =
      .ok ("000102030405060708090a0b0c0d0e0f", "AAAAAAAAAAA=") := by
  have hwire := b64Decode_b64Encode issuedA.toWire
  have hparse : parseChallenge issuedA.toWire = .ok issuedA := by
    have := parseChallenge_toWire (c := issuedA) ⟨by decide, by decide, by decide⟩ []
    rwa [List.append_nil] at this
  have hsolve : clientSolveFrom zeroSha issuedA.preimage issuedA.difficulty 0 = .ok (toLeBytes 8 0) :=
    (clientSolveFrom_ok_iff fun _ => rfl).mpr
      ⟨by decide, 0, Nat.zero_le _, by decide +kernel, fun m hm => absurd hm (Nat.not_lt_zero m), rfl⟩
  have hsolveWire : Relay.solveWire zeroSha "000102030405060708090a0b0c0d0e0f" issuedA.toWire =
      .ok ("000102030405060708090a0b0c0d0e0f", "AAAAAAAAAAA=") := by
    rw [Relay.solveWire, hparse, Outcome.ok_bind, hsolve]
    rfl
  have hok : (challengeResponse.toJson.index "ok").isTrue = true := rfl
  have hchallenge : (challengeResponse.toJson.index "challenge").asStr = some (b64Encode issuedA.toWire) := rfl
  have hid : (challengeResponse.toJson.index "challenge_id").asStr = some "000102030405060708090a0b0c0d0e0f" := rfl
  rw [Relay.solveChallenge, ← hsolveWire]
  simp only [Outcome.ofExcept, Outcome.ok_bind, hok, hchallenge, hid, hwire, if_true]

theorem aliceSends_run : run (WsRelayClient.step zeroSha) .connect aliceSends =
    { stream := true
      sent := [challengeJson "bob",
        depositJson .envelopes "bob" [104, 105] "000102030405060708090a0b0c0d0e0f" "AAAAAAAAAAA="]
      inbox := []
      gone := false
      call := none
      texts := [.ok challengeResponse.toJson, .ok WsResponse.okSimple.toJson]
      abandoned := 0
      returned := [⟨.sendEnvelope "bob" [104, 105], 0, 0, .ok .done⟩] } := by
  show run (WsRelayClient.step zeroSha)
    (WsRelayClient.goOn ⟨true, [challengeJson "bob"], [], false, none, [.ok challengeResponse.toJson], 0, []⟩
      (.sendEnvelope "bob" [104, 105]) 0 0 true
      (Call.done ((Dialog.ret (Relay.solveChallenge zeroSha (.ok challengeResponse.toJson))).andThen fun solved =>
        (roundTrip (depositJson .envelopes "bob" [104, 105] solved.1 solved.2)).andThen fun resp =>
          .ret (depositResult resp))))
    [.arrive (.text (.ok WsResponse.okSimple.toJson)), .poll true] = _
  rw [solveChallenge_challengeResponse]
  rfl

/-- The entries of the log are the frames of the two connections. -/
theorem sendPickPick_serves :
    Serves (sendPickPickLog [104, 105] (b64Encode [104, 105]))
        (run (WsRelayClient.step zeroSha) .connect aliceSends) [0, 1] ∧
      Serves (sendPickPickLog [104, 105] (b64Encode [104, 105]))
        (run (WsRelayClient.step zeroSha) .connect bobPicksUp) [2] := by
  rw [aliceSends_run]
  refine ⟨⟨by decide, ?_⟩, ⟨by decide, ?_⟩⟩
  · intro n req reply hreq hreply
    match n with
    | 0 =>
      cases hreq
      cases hreply
      exact ⟨0, rfl, _, _, rfl, rfl, rfl, rfl⟩
    | 1 =>
      cases hreq
      cases hreply
      exact ⟨1, rfl, _, _, rfl, rfl, rfl, rfl⟩
    | n + 2 => cases hreq
  · intro n req reply hreq hreply
    match n with
    | 0 =>
      cases hreq
      cases hreply
      exact ⟨2, rfl, _, _, rfl, rfl, rfl, rfl⟩
    | n + 1 => cases hreq

/-- The two bytes are in the mailbox, and Bob's call returns them. -/
theorem ws_clients_deliver_two_bytes :
    ∃ i e expiry, i ∈ [0, 1] ∧
      (run (System.step zeroSha) (System.start 10) (sendPickPick "aGk=")).log[i]? = some e ∧
      e.effect = some (.stored .envelopes "bob" [104, 105] expiry) := by
  have hlog : (run (System.step zeroSha) (System.start 10) (sendPickPick "aGk=")).log =
      sendPickPickLog [104, 105] (b64Encode [104, 105]) := by decide +kernel
  have hserves := sendPickPick_serves
  rw [← hlog] at hserves
  obtain ⟨i, e, expiry, hi, he, heffect, -⟩ := ws_clients_deliver zeroSha 10 (sendPickPick "aGk=")
    aliceSends bobPicksUp (by decide) (by decide) [0, 1] [2]
    hserves.1 hserves.2 .envelopes "bob" [104, 105] ⟨.sendEnvelope "bob" [104, 105], 0, 0, .ok .done⟩
    ⟨.pickupEnvelope "bob", 0, 0, .ok (.bytes [104, 105])⟩ (by rw [aliceSends_run]; exact List.mem_cons_self)
    ⟨rfl, rfl⟩ List.mem_cons_self rfl
  exact ⟨i, e, expiry, hi, he, heffect⟩

end E2EMessaging.Web
