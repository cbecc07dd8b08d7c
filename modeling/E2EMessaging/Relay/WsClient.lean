/-
  THE RUST RELAY CLIENT AS A WHOLE (`WsRelayClient` of `relay/src/ws.rs`).

  Every operation is a dialog of one or two ROUND TRIPS: write a text frame, then read frames until one is
  text.  A call holds the client exclusively, so calls do not overlap.  What can go wrong is the read: the
  stream fails, or ends, or the caller drops the future while it waits.  A stream that ends is forgotten
  (`self.stream = None`), and everything after that fails closed.  A read that FAILS, and a call that is
  DROPPED, leave the stream in place, and the response that is still to come in it.

  Nothing in a response says what it answers, and a text frame that no call has asked for stays in the stream
  until some call reads it.  `ws_client_correlation` is what that means for every run of calls and every order of
  arrivals: a call that completes has been given, for its frame number `n`, text frame number `n - abandoned`
  of all that have come.  That is the answer to its own frame if the peer writes one text frame for each it is
  sent, in their order, and no call has been abandoned before it on this connection.
-/
import E2EMessaging.Lib.Dialog
import E2EMessaging.Relay.Client
import E2EMessaging.Relay.Server

namespace E2EMessaging.Relay

open E2EMessaging.Lib

/-! ## The operations -/

/-- A text frame of the relay, as `serde_json::from_str` reads it. -/
abbrev Reply := Except String Json

/-- A computation that makes round trips. -/
abbrev Call (α : Type) := Dialog Json Reply (Outcome WsClientError α)

/-- `round_trip`, from the text frame it waits for. -/
def roundTrip (req : Json) : Call Json :=
  .ask req fun
    | .ok v => .ret (.ok v)
    | .error e => .ret (.err (.relay ("invalid JSON response: " ++ e)))

/-- `resp["error"].as_str().unwrap_or("unknown error")`. -/
def errorText (resp : Json) : String := (resp.index "error").asStr.getD "unknown error"

/-- `{"op": "challenge", …}`. -/
def challengeJson (recipientId : String) : Json :=
  .object [("op", .string "challenge"), ("recipient_id", .string recipientId)]

/-- `solve_challenge`. -/
def solveChallengeCall (sha256 : Bytes → Bytes) (recipientId : String) : Call (String × String) :=
  (roundTrip (challengeJson recipientId)).andThen fun resp => .ret (solveChallenge sha256 (.ok resp))

/-- `op` and payload field of the request that stores in a mailbox. -/
def Mailbox.depositOp : Mailbox → String
  | .prekeys => "publish_prekey"
  | .envelopes => "send_envelope"

/-- `op` of the request that takes from a mailbox. -/
def Mailbox.collectOp : Mailbox → String
  | .prekeys => "lookup_prekey"
  | .envelopes => "pickup_envelope"

/-- The field with the payload. -/
def Mailbox.field : Mailbox → String
  | .prekeys => "bundle"
  | .envelopes => "envelope"

/-- `{"op": "publish_prekey", …}`, `{"op": "send_envelope", …}`. -/
def depositJson (box : Mailbox) (recipientId : String) (payload : Bytes)
    (challengeId powSolution : String) : Json :=
  .object [("op", .string box.depositOp), ("recipient_id", .string recipientId),
    (box.field, .string (b64Encode payload)), ("challenge_id", .string challengeId),
    ("pow_solution", .string powSolution)]

/-- `{"op": "lookup_prekey", …}`, `{"op": "pickup_envelope", …}`. -/
def collectJson (box : Mailbox) (recipientId : String) : Json :=
  .object [("op", .string box.collectOp), ("recipient_id", .string recipientId)]

/-- What `publish_prekey` and `send_envelope` make of the last response. -/
def depositResult (resp : Json) : Outcome WsClientError Unit :=
  if (resp.index "ok").isTrue then .ok () else .err (.relay (errorText resp))

/-- What `lookup_prekey` and `pickup_envelope` make of the response. -/
def collectResult (box : Mailbox) (resp : Json) : Outcome WsClientError Bytes :=
  if (resp.index "ok").isTrue then
    match (resp.index box.field).asStr with
    | none => .err (.relay ("missing " ++ box.field ++ " field"))
    | some text =>
      match b64Decode text with
      | .error e => .err (.decode e)
      | .ok bytes => .ok bytes
  else if errorText resp = "NotFound" ∨ errorText resp = "Expired" then .err .notFound
  else .err (.relay (errorText resp))

/-- The round trips of `publish_prekey` and `send_envelope`. -/
def depositCall (sha256 : Bytes → Bytes) (box : Mailbox) (recipientId : String) (payload : Bytes) :
    Call Unit :=
  (solveChallengeCall sha256 recipientId).andThen fun solved =>
    (roundTrip (depositJson box recipientId payload solved.1 solved.2)).andThen fun resp =>
      .ret (depositResult resp)

/-- The round trip of `lookup_prekey` and `pickup_envelope`. -/
def collectCall (box : Mailbox) (recipientId : String) : Call Bytes :=
  (roundTrip (collectJson box recipientId)).andThen fun resp => .ret (collectResult box resp)

/-- The public operations. -/
inductive ClientOp where
  | solveChallenge (recipientId : String)
  | publishPrekey (recipientId : String) (bundle : Bytes)
  | lookupPrekey (recipientId : String)
  | sendEnvelope (recipientId : String) (envelope : Bytes)
  | pickupEnvelope (recipientId : String)
  deriving Repr, DecidableEq

/-- What they return. -/
inductive ClientValue where
  | solved (challengeId powSolution : String)
  | done
  | bytes (b : Bytes)
  deriving Repr, DecidableEq

/-- A call that stores. -/
def Call.done (call : Call Unit) : Call ClientValue := call.andThen fun _ => .ret (.ok .done)

/-- A call that fetches. -/
def Call.fetched (call : Call Bytes) : Call ClientValue := call.andThen fun b => .ret (.ok (.bytes b))

/-- An operation as a dialog. -/
def ClientOp.dialog (sha256 : Bytes → Bytes) : ClientOp → Call ClientValue
  | .solveChallenge r => (solveChallengeCall sha256 r).andThen fun s => .ret (.ok (.solved s.1 s.2))
  | .publishPrekey r bundle => (depositCall sha256 .prekeys r bundle).done
  | .lookupPrekey r => (collectCall .prekeys r).fetched
  | .sendEnvelope r envelope => (depositCall sha256 .envelopes r envelope).done
  | .pickupEnvelope r => (collectCall .envelopes r).fetched

/-- Every operation begins with a round trip. -/
theorem ClientOp.dialog_asks (sha256 : Bytes → Bytes) (op : ClientOp) :
    ∃ req k, op.dialog sha256 = .ask req k := by
  cases op <;> exact ⟨_, _, rfl⟩

/-! ## The client -/

/-- What `stream.next()` yields. -/
inductive Frame where
  | text (body : Reply)
  /-- Binary, ping, pong, close. -/
  | other
  | failed

/-- The body of a text frame. -/
def Frame.body : Frame → Option Reply
  | .text body => some body
  | _ => none

/-- A call that waits in `stream.next().await`: the number of its first frame and of the calls abandoned
    before it are a record, read by nothing. -/
structure Suspended where
  op : ClientOp
  first : Nat
  abandoned : Nat
  next : Reply → Call ClientValue

/-- A call that has returned. -/
structure Returned where
  op : ClientOp
  first : Nat
  abandoned : Nat
  result : Outcome WsClientError ClientValue

/-- `WsRelayClient` and its connection: whether `self.stream` is there, the text frames written, the frames
    that have arrived and not been read, whether the peer has hung up, the call under way.  The other three
    fields are a record: the text frames that have arrived, the calls abandoned, the calls returned. -/
structure WsRelayClient where
  stream : Bool
  sent : List Json
  inbox : List Frame
  gone : Bool
  call : Option Suspended
  texts : List Reply
  abandoned : Nat
  returned : List Returned

/-- `connect`. -/
def WsRelayClient.connect : WsRelayClient := ⟨true, [], [], false, none, [], 0, []⟩

/-- What can happen. -/
inductive ClientEvent where
  /-- An operation is called; a frame can be written, or cannot. -/
  | call (op : ClientOp) (writable : Bool)
  | arrive (frame : Frame)
  | hangUp
  /-- The call under way is polled. -/
  | poll (writable : Bool)
  /-- The future of the call under way is dropped. -/
  | drop
  | close

namespace WsRelayClient

variable (sha256 : Bytes → Bytes)

/-- The call ends. -/
def return_ (c : WsRelayClient) (op : ClientOp) (first abandoned : Nat)
    (result : Outcome WsClientError ClientValue) : WsRelayClient :=
  { c with call := none, returned := c.returned ++ [⟨op, first, abandoned, result⟩] }

/-- A call runs on to its end or its next `round_trip`. -/
def goOn (c : WsRelayClient) (op : ClientOp) (first abandoned : Nat) (writable : Bool) :
    Call ClientValue → WsRelayClient
  | .ret result => c.return_ op first abandoned result
  | .ask req k =>
    -- `stream_mut`, then `send`
    if c.stream && writable then
      { c with sent := c.sent ++ [req], call := some ⟨op, first, abandoned, k⟩ }
    else c.return_ op first abandoned (.err .connectionUnavailable)

/-- One event.  Whatever arrives stays in the stream until it is read. -/
def step (c : WsRelayClient) : ClientEvent → WsRelayClient
  | .call op writable =>
    match c.call with
    -- the call under way holds `&mut self`
    | some _ => c
    | none => c.goOn op c.sent.length c.abandoned writable (op.dialog sha256)
  | .arrive frame =>
    if c.gone then c
    else
      match frame with
      | .text body => { c with inbox := c.inbox ++ [frame], texts := c.texts ++ [body] }
      | _ => { c with inbox := c.inbox ++ [frame] }
  | .hangUp => { c with gone := true }
  | .poll writable =>
    match c.call with
    | none => c
    | some s =>
      match c.inbox with
      | .text body :: rest => { c with inbox := rest }.goOn s.op s.first s.abandoned writable (s.next body)
      | .other :: rest => { c with inbox := rest }
      | .failed :: rest =>
        { c with inbox := rest, abandoned := c.abandoned + 1 }.return_ s.op s.first s.abandoned
          (.err .connectionUnavailable)
      | [] =>
        if c.gone then
          { c with stream := false }.return_ s.op s.first s.abandoned (.err .connectionUnavailable)
        else c
  | .drop =>
    match c.call with
    | none => c
    | some _ => { c with call := none, abandoned := c.abandoned + 1 }
  | .close =>
    match c.call with
    | some _ => c
    | none => { c with stream := false }

/-! The step, event by event. -/

section Step

variable {sha256} {c : WsRelayClient} {s : Suspended} {body : Reply} {rest : List Frame}

/-- A call on an idle client runs at once, to its end or its first read.  Its first frame has the next number. -/
theorem step_call (hc : c.call = none) (op : ClientOp) (writable : Bool) :
    c.step sha256 (.call op writable) =
      c.goOn op c.sent.length c.abandoned writable (op.dialog sha256) := by
  rw [step, hc]

/-- The methods take `&mut self`, so there is no second call while one waits. -/
theorem step_call_busy (hc : c.call = some s) (op : ClientOp) (writable : Bool) :
    c.step sha256 (.call op writable) = c := by
  rw [step, hc]

variable (sha256) in
/-- A frame arrives, unless the peer has hung up. -/
theorem step_arrive_cases (c : WsRelayClient) (frame : Frame) :
    (c.gone = true ∧ c.step sha256 (.arrive frame) = c) ∨
      (∃ body, frame = .text body ∧ c.step sha256 (.arrive frame) =
        { c with inbox := c.inbox ++ [frame], texts := c.texts ++ [body] }) ∨
      (frame.body = none ∧ c.step sha256 (.arrive frame) = { c with inbox := c.inbox ++ [frame] }) := by
  cases hgone : c.gone with
  | true => exact Or.inl ⟨rfl, if_pos hgone⟩
  | false =>
    cases frame with
    | text body =>
      refine Or.inr (Or.inl ⟨body, rfl, ?_⟩)
      simp only [step, hgone, Bool.false_eq_true, if_false]
    | other => exact Or.inr (Or.inr ⟨rfl, by simp only [step, hgone, Bool.false_eq_true, if_false]⟩)
    | failed => exact Or.inr (Or.inr ⟨rfl, by simp only [step, hgone, Bool.false_eq_true, if_false]⟩)

/-- With no call waiting nobody reads: what has arrived stays in the stream. -/
theorem step_poll_none (hc : c.call = none) (writable : Bool) : c.step sha256 (.poll writable) = c := by
  rw [step, hc]

/-- A waiting call is given the oldest text frame there is, whether or not it was meant for it, and runs on. -/
theorem step_poll_text (hc : c.call = some s) (hinbox : c.inbox = .text body :: rest) (writable : Bool) :
    c.step sha256 (.poll writable) =
      { c with inbox := rest }.goOn s.op s.first s.abandoned writable (s.next body) := by
  simp only [step, hc, hinbox]

/-- Frames that are no text are skipped: the loop of `round_trip` asks for the next one. -/
theorem step_poll_other (hc : c.call = some s) (hinbox : c.inbox = .other :: rest) (writable : Bool) :
    c.step sha256 (.poll writable) = { c with inbox := rest } := by
  simp only [step, hc, hinbox]

/-- A read that fails ends the call, and its answer is now one that somebody else will read: the call counts as
    abandoned. -/
theorem step_poll_failed (hc : c.call = some s) (hinbox : c.inbox = .failed :: rest) (writable : Bool) :
    c.step sha256 (.poll writable) = { c with inbox := rest, abandoned := c.abandoned + 1 }.return_ s.op
      s.first s.abandoned (.err .connectionUnavailable) := by
  simp only [step, hc, hinbox]

/-- At the end of the stream the call fails, and the stream is dropped for good. -/
theorem step_poll_gone (hc : c.call = some s) (hinbox : c.inbox = []) (hgone : c.gone = true)
    (writable : Bool) :
    c.step sha256 (.poll writable) =
      { c with stream := false }.return_ s.op s.first s.abandoned (.err .connectionUnavailable) := by
  simp only [step, hc, hinbox, hgone, if_true]

/-- While nothing has come and the peer is there, the future is pending. -/
theorem step_poll_pending (hinbox : c.inbox = []) (hgone : c.gone = false) (writable : Bool) :
    c.step sha256 (.poll writable) = c := by
  simp only [step, hinbox, hgone]
  split <;> rfl

/-- A future that is dropped while it waits leaves its answer to be read by the next call. -/
theorem step_drop (hc : c.call = some s) :
    c.step sha256 .drop = { c with call := none, abandoned := c.abandoned + 1 } := by
  rw [step, hc]

theorem step_drop_none (hc : c.call = none) : c.step sha256 .drop = c := by
  rw [step, hc]

/-- `close` takes the stream away; every later call finds none. -/
theorem step_close (hc : c.call = none) : c.step sha256 .close = { c with stream := false } := by
  rw [step, hc]

/-- `close` takes `&mut self` as well, so it cannot come while a call waits. -/
theorem step_close_busy (hc : c.call = some s) : c.step sha256 .close = c := by
  rw [step, hc]

end Step

end WsRelayClient

/-! ## The client as a pipe -/

/-- A pipe of the client's calls. -/
abbrev ClientPipe := Pipe Json Reply (Outcome WsClientError ClientValue)

/-- What the call has returned is the result of its dialog, or the connection was unavailable. -/
def Returned.Accounted (sha256 : Bytes → Bytes) (p : ClientPipe) (x : Returned) : Prop :=
  x.result = .err .connectionUnavailable ∨
    ∃ e ∈ p.ended, e.dialog = x.op.dialog sha256 ∧ e.first = x.first ∧ e.lost = x.abandoned ∧
      e.result = x.result

/-- The connection of the client is a pipe in which only text frames count. -/
structure Mirrors (sha256 : Bytes → Bytes) (p : ClientPipe) (c : WsRelayClient) : Prop where
  asked : p.asked = c.sent
  answers : p.answers = c.texts
  taken : p.taken ≤ p.answers.length
  unread : p.answers.drop p.taken = c.inbox.filterMap Frame.body
  lost : c.stream = true → p.lost = c.abandoned
  returned : ∀ x ∈ c.returned, x.Accounted sha256 p

/-- The call under way is the dialog under way. -/
structure Runs (sha256 : Bytes → Bytes) (s : Suspended)
    (t : Talk Json Reply (Outcome WsClientError ClientValue)) : Prop where
  dialog : t.dialog = s.op.dialog sha256
  first : t.first = s.first
  lost : t.lost = s.abandoned
  next : t.next = s.next

/-- The client is its dialogs over a pipe. -/
structure Holds (sha256 : Bytes → Bytes) (p : ClientPipe) (c : WsRelayClient) : Prop where
  mirrors : Mirrors sha256 p c
  idle : c.call = none → p.current = none
  busy : ∀ s, c.call = some s → ∃ t, p.current = some t ∧ Runs sha256 s t

/-- A new client is a new pipe: nothing sent, nothing arrived, no dialog under way. -/
theorem holds_connect (sha256 : Bytes → Bytes) : Holds sha256 .fresh .connect where
  mirrors := ⟨rfl, rfl, Nat.le_refl 0, rfl, fun _ => rfl, fun _ h => absurd h List.not_mem_nil⟩
  idle := fun _ => rfl
  busy := nofun

variable {sha256 : Bytes → Bytes}

/-- A call returns: what it returns is accounted for by a dialog that has ended since. -/
theorem Mirrors.return_ {p : ClientPipe} {c : WsRelayClient} (h : Mirrors sha256 p c) (ended) (op : ClientOp)
    (first abandoned : Nat) {result : Outcome WsClientError ClientValue}
    (hx : Returned.Accounted sha256 { p with current := none, ended := p.ended ++ ended }
      ⟨op, first, abandoned, result⟩) :
    Holds sha256 { p with current := none, ended := p.ended ++ ended } (c.return_ op first abandoned result) where
  mirrors := by
    refine ⟨h.asked, h.answers, h.taken, h.unread, h.lost, fun x hx' => ?_⟩
    rcases List.mem_append.mp hx' with hold | hnew
    · rcases h.returned x hold with hbad | ⟨e, he, hrest⟩
      · exact Or.inl hbad
      · exact Or.inr ⟨e, List.mem_append_left _ he, hrest⟩
    · obtain rfl := List.mem_singleton.mp hnew
      exact hx
  idle := fun _ => rfl
  busy := nofun

/-- A call returns `ConnectionUnavailable`. -/
theorem Mirrors.unavailable {p : ClientPipe} {c : WsRelayClient} (h : Mirrors sha256 p c) (op : ClientOp)
    (first abandoned : Nat) :
    Holds sha256 { p with current := none } (c.return_ op first abandoned (.err .connectionUnavailable)) := by
  have hreturn := h.return_ [] op first abandoned (Or.inl rfl)
  rw [List.append_nil] at hreturn
  exact hreturn

/-- **A call and its dialog go on together.** -/
theorem Mirrors.goOn {p : ClientPipe} {c : WsRelayClient} (h : Mirrors sha256 p c) {op : ClientOp}
    {first lost : Nat} {es : List (Json × Reply)} (writable : Bool) (d : Call ClientValue) :
    Holds sha256 (p.goOn (op.dialog sha256) first lost es (c.stream && writable) d)
      (c.goOn op first lost writable d) := by
  cases d with
  | ret result =>
    exact h.return_ _ _ _ _ (Or.inr ⟨_, List.mem_append_right _ List.mem_cons_self, rfl, rfl, rfl, rfl⟩)
  | ask req k =>
    rw [Pipe.goOn, WsRelayClient.goOn]
    split
    · refine ⟨⟨?_, h.answers, h.taken, h.unread, h.lost, h.returned⟩, ?_, ?_⟩
      · show p.asked ++ [req] = c.sent ++ [req]
        rw [h.asked]
      · intro hidle
        cases hidle
      · intro s hs
        cases hs
        exact ⟨_, rfl, ⟨rfl, rfl, rfl, rfl⟩⟩
    · exact h.unavailable op first lost

/-- A call that is given up leaves the pipe with one answer more to come. -/
theorem Mirrors.giveUp {p : ClientPipe} {c : WsRelayClient} (h : Mirrors sha256 p c) (rest : List Frame)
    (hrest : rest.filterMap Frame.body = c.inbox.filterMap Frame.body) :
    Mirrors sha256 { p with current := none, lost := p.lost + 1 }
      { c with inbox := rest, abandoned := c.abandoned + 1 } where
  asked := h.asked
  answers := h.answers
  taken := h.taken
  unread := h.unread.trans hrest.symm
  lost := fun hopen => congrArg (· + 1) (h.lost hopen)
  returned := h.returned

/-- A frame that is not text. -/
theorem Mirrors.skip {p : ClientPipe} {c : WsRelayClient} (h : Mirrors sha256 p c) (inbox : List Frame)
    (hinbox : inbox.filterMap Frame.body = c.inbox.filterMap Frame.body) :
    Mirrors sha256 p { c with inbox := inbox } :=
  ⟨h.asked, h.answers, h.taken, h.unread.trans hinbox.symm, h.lost, h.returned⟩

/-- A text frame has come. -/
theorem Mirrors.arrive {p : ClientPipe} {c : WsRelayClient} (h : Mirrors sha256 p c) (body : Reply) :
    Mirrors sha256 { p with answers := p.answers ++ [body] }
      { c with inbox := c.inbox ++ [.text body], texts := c.texts ++ [body] } where
  asked := h.asked
  answers := congrArg (· ++ [body]) h.answers
  taken := by
    show p.taken ≤ (p.answers ++ [body]).length
    have := h.taken
    rw [List.length_append]
    omega
  unread := by
    show (p.answers ++ [body]).drop p.taken = (c.inbox ++ [Frame.text body]).filterMap Frame.body
    rw [List.drop_append_of_le_length h.taken, h.unread, List.filterMap_append]
    rfl
  lost := h.lost
  returned := h.returned

/-- The text frame that is read is the next answer. -/
theorem Mirrors.next {p : ClientPipe} {c : WsRelayClient} (h : Mirrors sha256 p c) {body : Reply}
    {rest : List Frame} (hinbox : c.inbox = .text body :: rest) :
    p.answers[p.taken]? = some body ∧ Mirrors sha256 { p with taken := p.taken + 1 } { c with inbox := rest } := by
  have hdrop : p.answers.drop p.taken = body :: rest.filterMap Frame.body := by
    rw [h.unread, hinbox]
    rfl
  have hnext : p.answers[p.taken]? = some body := by
    rw [← List.head?_drop, hdrop]
    rfl
  have hlt : p.taken < p.answers.length := (List.getElem?_eq_some_iff.mp hnext).1
  have hunread : p.answers.drop (p.taken + 1) = rest.filterMap Frame.body := by
    rw [← List.drop_drop, hdrop]
    rfl
  exact ⟨hnext, ⟨h.asked, h.answers, hlt, hunread, h.lost, h.returned⟩⟩

/-- An idle client is called: a dialog starts, or the call returns at once because nothing can be written. -/
theorem Holds.call {p : ClientPipe} {c : WsRelayClient} (h : Holds sha256 p c) (hc : c.call = none)
    (op : ClientOp) (writable : Bool) :
    Holds sha256 (p.step (.start (op.dialog sha256) (c.stream && writable)))
      (c.goOn op c.sent.length c.abandoned writable (op.dialog sha256)) := by
  have hm := h.mirrors
  rw [Pipe.step, h.idle hc]
  show Holds sha256 (p.goOn (op.dialog sha256) p.asked.length p.lost [] (c.stream && writable) _) _
  by_cases hopen : c.stream = true
  · rw [hm.asked, hm.lost hopen]
    exact hm.goOn writable _
  · have hclosed : c.stream = false := Bool.eq_false_iff.mpr hopen
    obtain ⟨req, k, hask⟩ := op.dialog_asks sha256
    have hpipe : p.goOn (op.dialog sha256) p.asked.length p.lost [] (c.stream && writable)
        (op.dialog sha256) = { p with current := none } := by
      rw [hclosed, hask]
      rfl
    have hclient : c.goOn op c.sent.length c.abandoned writable (op.dialog sha256) =
        c.return_ op c.sent.length c.abandoned (.err .connectionUnavailable) := by
      rw [hask, WsRelayClient.goOn, hclosed]
      rfl
    rw [hpipe, hclient]
    exact hm.unavailable op _ _

/-- A frame arrives: an answer, if it is text. -/
theorem Holds.arrive {p : ClientPipe} {c : WsRelayClient} (h : Holds sha256 p c) (hinv : p.Inv)
    (frame : Frame) : ∃ q, q.Inv ∧ Holds sha256 q (c.step sha256 (.arrive frame)) := by
  have hm := h.mirrors
  rcases WsRelayClient.step_arrive_cases sha256 c frame with
    ⟨-, heq⟩ | ⟨body, rfl, heq⟩ | ⟨hframe, heq⟩
  · rw [heq]
    exact ⟨p, hinv, h⟩
  · rw [heq]
    exact ⟨p.step (.answer body), hinv.step _, ⟨hm.arrive body, h.idle, h.busy⟩⟩
  · rw [heq]
    have hskip : (c.inbox ++ [frame]).filterMap Frame.body = c.inbox.filterMap Frame.body := by
      rw [List.filterMap_append, List.filterMap_cons_none hframe, List.filterMap_nil, List.append_nil]
    exact ⟨p, hinv, ⟨hm.skip _ hskip, h.idle, h.busy⟩⟩

/-- A waiting call is polled: it takes the next answer, or skips a frame that is none, or is given up, or waits
    on. -/
theorem Holds.poll {p : ClientPipe} {c : WsRelayClient} (h : Holds sha256 p c) (hinv : p.Inv) {s : Suspended}
    (hc : c.call = some s) (writable : Bool) : ∃ q, q.Inv ∧ Holds sha256 q (c.step sha256 (.poll writable)) := by
  have hm := h.mirrors
  obtain ⟨t, ht, hruns⟩ := h.busy s hc
  have hgiveUp : p.step .giveUp = { p with current := none, lost := p.lost + 1 } := by rw [Pipe.step, ht]
  rcases hinbox : c.inbox with _ | ⟨frame, rest⟩
  · cases hgone : c.gone with
    | true =>
      have hclosed : Mirrors sha256 { p with current := none, lost := p.lost + 1 } { c with stream := false } :=
        ⟨hm.asked, hm.answers, hm.taken, hm.unread, fun hopen => absurd hopen Bool.false_ne_true, hm.returned⟩
      refine ⟨p.step .giveUp, hinv.step _, ?_⟩
      rw [WsRelayClient.step_poll_gone hc hinbox hgone, hgiveUp]
      exact hclosed.unavailable _ _ _
    | false =>
      rw [WsRelayClient.step_poll_pending hinbox hgone]
      exact ⟨p, hinv, h⟩
  · cases frame with
    | text body =>
      obtain ⟨hnext, hm'⟩ := hm.next hinbox
      refine ⟨p.step (.take (c.stream && writable)), hinv.step _, ?_⟩
      rw [WsRelayClient.step_poll_text hc hinbox, Pipe.step, ht, hnext]
      show Holds sha256 (Pipe.goOn _ t.dialog t.first t.lost _ _ (t.next body)) _
      rw [hruns.dialog, hruns.first, hruns.lost, hruns.next]
      exact hm'.goOn writable _
    | other =>
      have hrest : rest.filterMap Frame.body = c.inbox.filterMap Frame.body := by rw [hinbox]; rfl
      rw [WsRelayClient.step_poll_other hc hinbox]
      exact ⟨p, hinv, ⟨hm.skip rest hrest, h.idle, h.busy⟩⟩
    | failed =>
      have hrest : rest.filterMap Frame.body = c.inbox.filterMap Frame.body := by rw [hinbox]; rfl
      refine ⟨p.step .giveUp, hinv.step _, ?_⟩
      rw [WsRelayClient.step_poll_failed hc hinbox, hgiveUp]
      exact (hm.giveUp rest hrest).unavailable _ _ _

/-- The future of a waiting call is dropped: its dialog is given up. -/
theorem Holds.drop {p : ClientPipe} {c : WsRelayClient} (h : Holds sha256 p c) {s : Suspended}
    (hc : c.call = some s) : Holds sha256 (p.step .giveUp) (c.step sha256 .drop) := by
  obtain ⟨t, ht, -⟩ := h.busy s hc
  have hm := h.mirrors.giveUp c.inbox rfl
  rw [WsRelayClient.step_drop hc, Pipe.step, ht]
  refine ⟨⟨hm.asked, hm.answers, hm.taken, hm.unread, hm.lost, hm.returned⟩, fun _ => rfl, ?_⟩
  intro s hs
  cases hs

/-- **One event of the client is at most one step of the pipe.** -/
theorem Holds.step {p : ClientPipe} {c : WsRelayClient} (h : Holds sha256 p c) (hinv : p.Inv)
    (a : ClientEvent) : ∃ q, q.Inv ∧ Holds sha256 q (c.step sha256 a) := by
  have hm := h.mirrors
  cases a with
  | call op writable =>
    rcases Option.eq_none_or_eq_some c.call with hc | ⟨s, hc⟩
    · rw [WsRelayClient.step_call hc]
      exact ⟨_, hinv.step _, h.call hc op writable⟩
    · rw [WsRelayClient.step_call_busy hc]
      exact ⟨p, hinv, h⟩
  | arrive frame => exact h.arrive hinv frame
  | hangUp =>
    exact ⟨p, hinv, ⟨⟨hm.asked, hm.answers, hm.taken, hm.unread, hm.lost, hm.returned⟩, h.idle, h.busy⟩⟩
  | poll writable =>
    rcases Option.eq_none_or_eq_some c.call with hc | ⟨s, hc⟩
    · rw [WsRelayClient.step_poll_none hc]
      exact ⟨p, hinv, h⟩
    · exact h.poll hinv hc writable
  | drop =>
    rcases Option.eq_none_or_eq_some c.call with hc | ⟨s, hc⟩
    · rw [WsRelayClient.step_drop_none hc]
      exact ⟨p, hinv, h⟩
    · exact ⟨_, hinv.step _, h.drop hc⟩
  | close =>
    rcases Option.eq_none_or_eq_some c.call with hc | ⟨s, hc⟩
    · rw [WsRelayClient.step_close hc]
      refine ⟨p, hinv, ⟨⟨hm.asked, hm.answers, hm.taken, hm.unread, ?_, hm.returned⟩, h.idle, h.busy⟩⟩
      exact fun hopen => absurd hopen Bool.false_ne_true
    · rw [WsRelayClient.step_close_busy hc]
      exact ⟨p, hinv, h⟩

/-- Every run of the client is a run of its dialogs over a pipe. -/
theorem holds_run (sha256 : Bytes → Bytes) (events : List ClientEvent) :
    ∃ p : ClientPipe, p.Inv ∧ Holds sha256 p (run (WsRelayClient.step sha256) .connect events) := by
  refine run_inv (I := fun c => ∃ p : ClientPipe, p.Inv ∧ Holds sha256 p c) ?_ ?_ events
  · rintro c a ⟨p, hinv, h⟩
    exact h.step hinv a
  · exact ⟨.fresh, Pipe.inv_fresh, holds_connect sha256⟩

/-! ## Abandoned calls -/

/-- The read that fails, and the future that is dropped. -/
def ClientEvent.abandons : ClientEvent → Bool
  | .arrive .failed => true
  | .drop => true
  | _ => false

/-- Is it the frame that will not be read? -/
def Frame.fails : Frame → Bool
  | .failed => true
  | _ => false

/-- No more calls are abandoned than reads fail and futures are dropped. -/
structure Strays (n : Nat) (c : WsRelayClient) : Prop where
  abandoned : c.abandoned + c.inbox.countP Frame.fails ≤ n
  call : ∀ s, c.call = some s → s.abandoned ≤ c.abandoned
  returned : ∀ x ∈ c.returned, x.abandoned ≤ c.abandoned

namespace Strays

variable {n : Nat} {c : WsRelayClient}

/-- The count may be exceeded, but not fall short: a larger bound does as well. -/
theorem mono {m : Nat} (h : Strays n c) (hnm : n ≤ m) : Strays m c :=
  ⟨h.abandoned.trans hnm, h.call, h.returned⟩

theorem return_ (h : Strays n c) (op : ClientOp) (first : Nat) {abandoned : Nat} (hle : abandoned ≤ c.abandoned)
    (result : Outcome WsClientError ClientValue) : Strays n (c.return_ op first abandoned result) where
  abandoned := h.abandoned
  call := nofun
  returned := fun x hx => by
    rcases List.mem_append.mp hx with hold | hnew
    · exact h.returned x hold
    · obtain rfl := List.mem_singleton.mp hnew
      exact hle

/-- Nor has one that runs on to its next read: it goes on with the number of abandoned calls it began with. -/
theorem goOn (h : Strays n c) (op : ClientOp) (first : Nat) {abandoned : Nat} (hle : abandoned ≤ c.abandoned)
    (writable : Bool) (d : Call ClientValue) : Strays n (c.goOn op first abandoned writable d) := by
  cases d with
  | ret result => exact h.return_ op first hle result
  | ask req k =>
    rw [WsRelayClient.goOn]
    split
    · refine ⟨h.abandoned, fun s hs => ?_, h.returned⟩
      cases hs
      exact hle
    · exact h.return_ op first hle _

/-- A frame that arrives abandons nothing yet; but a failed read will, when its turn comes. -/
theorem arrive (h : Strays n c) (frame : Frame) :
    Strays (n + if (ClientEvent.arrive frame).abandons then 1 else 0) (c.step sha256 (.arrive frame)) := by
  have harrive : c.abandoned + (c.inbox ++ [frame]).countP Frame.fails ≤
      n + if (ClientEvent.arrive frame).abandons then 1 else 0 := by
    have := h.abandoned
    rw [List.countP_append, List.countP_singleton]
    cases frame with
    | text body => show _ + (_ + 0) ≤ n + 0; omega
    | other => show _ + (_ + 0) ≤ n + 0; omega
    | failed => show _ + (_ + 1) ≤ n + 1; omega
  rcases WsRelayClient.step_arrive_cases sha256 c frame with
    ⟨-, heq⟩ | ⟨body, -, heq⟩ | ⟨-, heq⟩
  · rw [heq]
    exact h.mono (Nat.le_add_right _ _)
  · rw [heq]
    exact ⟨harrive, h.call, h.returned⟩
  · rw [heq]
    exact ⟨harrive, h.call, h.returned⟩

/-- A frame is read: what it may abandon has been counted when it came. -/
theorem poll (h : Strays n c) {s : Suspended} (hc : c.call = some s) (writable : Bool) :
    Strays n (c.step sha256 (.poll writable)) := by
  have hs := h.call s hc
  rcases hinbox : c.inbox with _ | ⟨frame, rest⟩
  · cases hgone : c.gone with
    | true =>
      rw [WsRelayClient.step_poll_gone hc hinbox hgone]
      have hclosed : Strays n { c with stream := false } := ⟨h.abandoned, h.call, h.returned⟩
      exact hclosed.return_ _ _ hs _
    | false =>
      rw [WsRelayClient.step_poll_pending hinbox hgone]
      exact h
  · have hrest : c.abandoned + rest.countP Frame.fails + (if frame.fails then 1 else 0) ≤ n := by
      have := h.abandoned
      rw [hinbox, List.countP_cons] at this
      omega
    cases frame with
    | text body =>
      rw [WsRelayClient.step_poll_text hc hinbox]
      have hread : Strays n { c with inbox := rest } := ⟨hrest, h.call, h.returned⟩
      exact hread.goOn _ _ hs writable _
    | other =>
      rw [WsRelayClient.step_poll_other hc hinbox]
      exact ⟨hrest, h.call, h.returned⟩
    | failed =>
      rw [WsRelayClient.step_poll_failed hc hinbox]
      have hread : Strays n { c with inbox := rest, abandoned := c.abandoned + 1 } := by
        refine ⟨?_, fun t ht => (h.call t ht).trans (Nat.le_succ _),
          fun x hx => (h.returned x hx).trans (Nat.le_succ _)⟩
        show c.abandoned + 1 + rest.countP Frame.fails ≤ n
        have : c.abandoned + rest.countP Frame.fails + 1 ≤ n := hrest
        omega
      exact hread.return_ _ _ (hs.trans (Nat.le_succ _)) _

/-- **One event abandons at most one call**, and only `drop` or a failed read does. -/
theorem step (h : Strays n c) (a : ClientEvent) :
    Strays (n + if a.abandons then 1 else 0) (c.step sha256 a) := by
  cases a with
  | call op writable =>
    rcases Option.eq_none_or_eq_some c.call with hc | ⟨s, hc⟩
    · rw [WsRelayClient.step_call hc]
      exact h.goOn op _ (Nat.le_refl _) writable _
    · rw [WsRelayClient.step_call_busy hc]
      exact h
  | arrive frame => exact h.arrive frame
  | hangUp => exact ⟨h.abandoned, h.call, h.returned⟩
  | poll writable =>
    rcases Option.eq_none_or_eq_some c.call with hc | ⟨s, hc⟩
    · rw [WsRelayClient.step_poll_none hc]
      exact h
    · exact h.poll hc writable
  | drop =>
    rcases Option.eq_none_or_eq_some c.call with hc | ⟨s, hc⟩
    · rw [WsRelayClient.step_drop_none hc]
      exact h.mono (Nat.le_add_right _ _)
    · rw [WsRelayClient.step_drop hc]
      refine ⟨?_, nofun, fun x hx => (h.returned x hx).trans (Nat.le_succ _)⟩
      show c.abandoned + 1 + c.inbox.countP Frame.fails ≤ n + 1
      have := h.abandoned
      omega
  | close =>
    rcases Option.eq_none_or_eq_some c.call with hc | ⟨s, hc⟩
    · rw [WsRelayClient.step_close hc]
      exact ⟨h.abandoned, h.call, h.returned⟩
    · rw [WsRelayClient.step_close_busy hc]
      exact h

/-- Over a run the count goes up by one at most for each read that fails and each future that is dropped. -/
theorem run (events : List ClientEvent) (h : Strays n c) :
    Strays (n + events.countP ClientEvent.abandons) (Lib.run (WsRelayClient.step sha256) c events) := by
  induction events generalizing c n with
  | nil => exact h
  | cons a events ih =>
    have hcount : n + (a :: events).countP ClientEvent.abandons =
        n + (if a.abandons then 1 else 0) + events.countP ClientEvent.abandons := by
      rw [List.countP_cons]
      omega
    rw [run_cons, hcount]
    exact ih (h.step a)

end Strays

/-- In every run, no more calls have been abandoned before a call than reads have failed and futures been
    dropped. -/
theorem abandoned_run (events : List ClientEvent) {x : Returned}
    (hx : x ∈ (run (WsRelayClient.step sha256) .connect events).returned) :
    x.abandoned ≤ events.countP ClientEvent.abandons := by
  have hconnect : Strays 0 .connect := ⟨Nat.le_refl 0, nofun, nofun⟩
  have hstrays : Strays (0 + events.countP ClientEvent.abandons)
      (run (WsRelayClient.step sha256) .connect events) := hconnect.run events
  rw [Nat.zero_add] at hstrays
  exact (hstrays.returned x hx).trans ((Nat.le_add_right _ _).trans hstrays.abandoned)

/-- In every run, a call has followed its own dialog, on answers as far behind its frames as calls had been
    abandoned before it. -/
theorem exchanged_run (events : List ClientEvent) {x : Returned}
    (hx : x ∈ (run (WsRelayClient.step sha256) .connect events).returned)
    (hresult : x.result ≠ .err .connectionUnavailable) :
    x.abandoned ≤ x.first ∧ ∃ es, (x.op.dialog sha256).Reaches es (.ret x.result) ∧
      Pipe.Paired (run (WsRelayClient.step sha256) .connect events).sent
        (run (WsRelayClient.step sha256) .connect events).texts x.first x.abandoned es := by
  obtain ⟨p, hinv, h⟩ := holds_run sha256 events
  obtain ⟨e, he, hdialog, hfirst, hlost, heq⟩ := (h.mirrors.returned x hx).resolve_left hresult
  obtain ⟨hreaches, hbefore, hpaired⟩ := hinv.ended e he
  rw [hdialog, heq] at hreaches
  rw [hfirst, hlost] at hbefore hpaired
  rw [h.mirrors.asked, h.mirrors.answers] at hpaired
  exact ⟨hbefore, e.exchanged, hreaches, hpaired⟩

/-! ## What has arrived -/

/-- The text frames that arrive before the peer hangs up, asked for or not. -/
def arrived : List ClientEvent → List Reply
  | [] => []
  | .hangUp :: _ => []
  | .arrive frame :: events => frame.body.toList ++ arrived events
  | _ :: events => arrived events

/-- A call that goes on changes nothing of what has arrived, and neither does one that returns. -/
theorem arrivals_goOn (c : WsRelayClient) (op : ClientOp) (first abandoned : Nat) (writable : Bool)
    (d : Call ClientValue) :
    (c.goOn op first abandoned writable d).texts = c.texts ∧ (c.goOn op first abandoned writable d).gone = c.gone := by
  cases d with
  | ret result => exact ⟨rfl, rfl⟩
  | ask req k =>
    rw [WsRelayClient.goOn]
    split
    · exact ⟨rfl, rfl⟩
    · exact ⟨rfl, rfl⟩

/-- Only an arrival adds to what has arrived, and only the peer hangs up. -/
theorem arrivals_step (sha256 : Bytes → Bytes) (c : WsRelayClient) (a : ClientEvent) :
    ((c.step sha256 a).texts, (c.step sha256 a).gone) =
      match a with
      | .arrive frame => (if c.gone then c.texts else c.texts ++ frame.body.toList, c.gone)
      | .hangUp => (c.texts, true)
      | _ => (c.texts, c.gone) := by
  cases a with
  | call op writable =>
    rcases Option.eq_none_or_eq_some c.call with hc | ⟨s, hc⟩
    · rw [WsRelayClient.step_call hc, (arrivals_goOn _ _ _ _ _ _).1, (arrivals_goOn _ _ _ _ _ _).2]
    · rw [WsRelayClient.step_call_busy hc]
  | arrive frame =>
    cases hgone : c.gone with
    | true => simp only [WsRelayClient.step, hgone, if_true]
    | false =>
      cases frame with
      | text body => simp only [WsRelayClient.step, hgone, Bool.false_eq_true, if_false]; rfl
      | other =>
        simp only [WsRelayClient.step, hgone, Bool.false_eq_true, if_false]
        exact congrArg (·, false) (List.append_nil _).symm
      | failed =>
        simp only [WsRelayClient.step, hgone, Bool.false_eq_true, if_false]
        exact congrArg (·, false) (List.append_nil _).symm
  | hangUp => rfl
  | poll writable =>
    rcases Option.eq_none_or_eq_some c.call with hc | ⟨s, hc⟩
    · rw [WsRelayClient.step_poll_none hc]
    · rcases hinbox : c.inbox with _ | ⟨frame, rest⟩
      · cases hgone : c.gone with
        | true =>
          rw [WsRelayClient.step_poll_gone hc hinbox hgone]
          exact congrArg (c.texts, ·) hgone
        | false => rw [WsRelayClient.step_poll_pending hinbox hgone, hgone]
      · cases frame with
        | text body =>
          rw [WsRelayClient.step_poll_text hc hinbox, (arrivals_goOn _ _ _ _ _ _).1, (arrivals_goOn _ _ _ _ _ _).2]
        | other => rw [WsRelayClient.step_poll_other hc hinbox]
        | failed =>
          rw [WsRelayClient.step_poll_failed hc hinbox]
          rfl
  | drop =>
    rcases Option.eq_none_or_eq_some c.call with hc | ⟨s, hc⟩
    · rw [WsRelayClient.step_drop_none hc]
    · rw [WsRelayClient.step_drop hc]
  | close =>
    rcases Option.eq_none_or_eq_some c.call with hc | ⟨s, hc⟩
    · rw [WsRelayClient.step_close hc]
    · rw [WsRelayClient.step_close_busy hc]

/-- **No text frame is lost on the way**: what a client has recorded as arrived is what has arrived. -/
theorem texts_run (c : WsRelayClient) (events : List ClientEvent) :
    (run (WsRelayClient.step sha256) c events).texts = c.texts ++ if c.gone then [] else arrived events := by
  induction events generalizing c with
  | nil =>
    rw [run_nil, arrived, ite_self, List.append_nil]
  | cons a events ih =>
    obtain ⟨htexts, hgone⟩ := Prod.mk.inj (arrivals_step sha256 c a)
    rw [run_cons, ih, htexts, hgone]
    cases a with
    | arrive frame =>
      cases hc : c.gone with
      | true => rfl
      | false =>
        show c.texts ++ frame.body.toList ++ arrived events = c.texts ++ (frame.body.toList ++ arrived events)
        exact List.append_assoc _ _ _
    | hangUp =>
      show c.texts ++ [] = c.texts ++ if c.gone then [] else []
      rw [ite_self]
    | call op writable => rfl
    | poll writable => rfl
    | drop => rfl
    | close => rfl

/-- **Correlation.**  In every run, whatever arrives and whenever it does, a call that has returned found the
    connection unavailable, or has followed its own dialog, its frame number `n` being answered by number
    `n - abandoned` of all text frames that have arrived.  No more calls have been abandoned than reads have failed
    and futures been dropped.  If none has, and the peer's text frame number `m` answers frame number `m`, each
    frame of the call is answered by its own. -/
theorem ws_client_correlation (sha256 : Bytes → Bytes) (events : List ClientEvent) (x : Returned)
    (hx : x ∈ (run (WsRelayClient.step sha256) .connect events).returned) :
    x.abandoned ≤ events.countP ClientEvent.abandons ∧
      (x.result = .err .connectionUnavailable ∨
        x.abandoned ≤ x.first ∧ ∃ es, (x.op.dialog sha256).Reaches es (.ret x.result) ∧
          (∀ (j : Nat) req resp, es[j]? = some (req, resp) →
            (run (WsRelayClient.step sha256) .connect events).sent[x.first + j]? = some req ∧
              (arrived events)[x.first + j - x.abandoned]? = some resp) ∧
          (x.abandoned = 0 → ∀ Answers : Json → Reply → Prop,
            (∀ (m : Nat) req resp, (run (WsRelayClient.step sha256) .connect events).sent[m]? = some req →
              (arrived events)[m]? = some resp → Answers req resp) →
            ∀ (j : Nat) req resp, es[j]? = some (req, resp) → Answers req resp)) := by
  have htexts : (run (WsRelayClient.step sha256) .connect events).texts = arrived events := texts_run .connect events
  refine ⟨abandoned_run events hx, ?_⟩
  by_cases hresult : x.result = .err .connectionUnavailable
  · exact Or.inl hresult
  · obtain ⟨hbefore, es, hreaches, hpaired⟩ := exchanged_run events hx hresult
    rw [htexts] at hpaired
    refine Or.inr ⟨hbefore, es, hreaches, hpaired, fun hnone Answers hpeer => ?_⟩
    rw [hnone] at hpaired
    exact hpaired.own hpeer

/-- A pickup for `alice` is dropped while it waits, and then `carol` picks up. -/
def crossedPickup : List ClientEvent :=
  [.call (.pickupEnvelope "alice") true, .drop, .call (.pickupEnvelope "carol") true,
    .arrive (.text (.ok (.object [("ok", .bool true), ("envelope", .string "AQ==")]))), .poll true]

/-- Carol is given what was Alice's. -/
theorem crossedPickup_returned : (run (WsRelayClient.step fun _ => []) .connect crossedPickup).returned =
    [⟨.pickupEnvelope "carol", 1, 1, .ok (.bytes [1])⟩] := by
  rfl

/-- Carol's pickup after Alice's was dropped: its one frame is number 1 of those sent, and is answered by number 0 of
    the texts, which was meant for Alice. -/
theorem ws_client_correlation_crossed :
    ∃ es, ((ClientOp.pickupEnvelope "carol").dialog fun _ => []).Reaches es (.ret (.ok (.bytes [1]))) ∧
      ∀ (j : Nat) req resp, es[j]? = some (req, resp) →
        (run (WsRelayClient.step fun _ => []) .connect crossedPickup).sent[1 + j]? = some req ∧
          (arrived crossedPickup)[1 + j - 1]? = some resp := by
  obtain ⟨-, es, hreaches, hpaired, -⟩ :=
    (ws_client_correlation (fun _ => []) crossedPickup ⟨.pickupEnvelope "carol", 1, 1, .ok (.bytes [1])⟩
      (by rw [crossedPickup_returned]; exact List.mem_cons_self)).2.resolve_left nofun
  exact ⟨es, hreaches, hpaired⟩

-- a text frame that came before anything was asked is what the first call is given
example : (run (WsRelayClient.step fun _ => []) .connect
    [.arrive (.text (.ok (.object [("ok", .bool true), ("envelope", .string "AQ==")]))),
      .call (.pickupEnvelope "carol") true, .poll true]).returned =
    [⟨.pickupEnvelope "carol", 0, 0, .ok (.bytes [1])⟩] := by
  rfl

/-! ## A stream that is gone -/

/-- Since `c` nothing has been written, and every call has found the connection unavailable. -/
structure Closed (c c' : WsRelayClient) : Prop where
  stream : c'.stream = false
  call : c'.call = none
  sent : c'.sent = c.sent
  returned : ∃ xs, c'.returned = c.returned ++ xs ∧ ∀ x ∈ xs, x.result = .err .connectionUnavailable

/-- Once there is no stream no event brings one back: a call returns at once and nothing is written. -/
theorem Closed.step {c c' : WsRelayClient} (h : Closed c c') (a : ClientEvent) :
    Closed c (c'.step sha256 a) := by
  cases a with
  | call op writable =>
    obtain ⟨req, k, hask⟩ := op.dialog_asks sha256
    obtain ⟨xs, hxs, hbad⟩ := h.returned
    have hclosed : c'.step sha256 (.call op writable) =
        c'.return_ op c'.sent.length c'.abandoned (.err .connectionUnavailable) := by
      rw [WsRelayClient.step_call h.call, hask, WsRelayClient.goOn, h.stream]
      rfl
    rw [hclosed]
    refine ⟨h.stream, rfl, h.sent, xs ++ [⟨op, c'.sent.length, c'.abandoned, .err .connectionUnavailable⟩],
      ?_, fun x hx => ?_⟩
    · show c'.returned ++ _ = _
      rw [hxs, List.append_assoc]
    · rcases List.mem_append.mp hx with hold | hnew
      · exact hbad x hold
      · obtain rfl := List.mem_singleton.mp hnew
        rfl
  | arrive frame =>
    rcases WsRelayClient.step_arrive_cases sha256 c' frame with
      ⟨-, heq⟩ | ⟨body, -, heq⟩ | ⟨-, heq⟩
    · rw [heq]
      exact h
    · rw [heq]
      exact ⟨h.stream, h.call, h.sent, h.returned⟩
    · rw [heq]
      exact ⟨h.stream, h.call, h.sent, h.returned⟩
  | hangUp => exact ⟨h.stream, h.call, h.sent, h.returned⟩
  | poll writable =>
    rw [WsRelayClient.step_poll_none h.call]
    exact h
  | drop =>
    rw [WsRelayClient.step_drop_none h.call]
    exact h
  | close =>
    rw [WsRelayClient.step_close h.call]
    exact ⟨rfl, h.call, h.sent, h.returned⟩

namespace WsRelayClient

variable {c : WsRelayClient}

/-- A stream that is gone has no call waiting in it. -/
def Tidy (c : WsRelayClient) : Prop := c.stream = false → c.call = none

/-- A call waits only where it could write, which takes a stream. -/
theorem tidy_goOn (c : WsRelayClient) (op : ClientOp) (first abandoned : Nat) (writable : Bool)
    (d : Call ClientValue) : Tidy (c.goOn op first abandoned writable d) := by
  cases d with
  | ret result => exact fun _ => rfl
  | ask req k =>
    rw [WsRelayClient.goOn]
    split
    · rename_i hopen
      intro hclosed
      have hstream : c.stream = true := (Bool.and_eq_true_iff.mp hopen).1
      exact absurd (hstream.symm.trans hclosed) nofun
    · exact fun _ => rfl

/-- So the stream is never gone under a call that waits: whatever takes it away ends the call first. -/
theorem Tidy.step (h : Tidy c) (a : ClientEvent) : Tidy (c.step sha256 a) := by
  cases a with
  | call op writable =>
    rcases Option.eq_none_or_eq_some c.call with hc | ⟨s, hc⟩
    · rw [step_call hc]
      exact tidy_goOn c _ _ _ _ _
    · rw [step_call_busy hc]
      exact h
  | arrive frame =>
    rcases step_arrive_cases sha256 c frame with ⟨-, heq⟩ | ⟨body, -, heq⟩ | ⟨-, heq⟩
    · rw [heq]
      exact h
    · rw [heq]
      exact h
    · rw [heq]
      exact h
  | hangUp => exact h
  | poll writable =>
    rcases Option.eq_none_or_eq_some c.call with hc | ⟨s, hc⟩
    · rw [step_poll_none hc]
      exact h
    · rcases hinbox : c.inbox with _ | ⟨frame, rest⟩
      · cases hgone : c.gone with
        | true =>
          rw [step_poll_gone hc hinbox hgone]
          exact fun _ => rfl
        | false =>
          rw [step_poll_pending hinbox hgone]
          exact h
      · cases frame with
        | text body =>
          rw [step_poll_text hc hinbox]
          exact tidy_goOn _ _ _ _ _ _
        | other =>
          rw [step_poll_other hc hinbox]
          exact h
        | failed =>
          rw [step_poll_failed hc hinbox]
          exact fun _ => rfl
  | drop =>
    rcases Option.eq_none_or_eq_some c.call with hc | ⟨s, hc⟩
    · rw [step_drop_none hc]
      exact h
    · rw [step_drop hc]
      exact fun _ => rfl
  | close =>
    rcases Option.eq_none_or_eq_some c.call with hc | ⟨s, hc⟩
    · rw [step_close hc]
      exact fun _ => hc
    · rw [step_close_busy hc]
      exact h

end WsRelayClient

/-- **Fail closed.**  Once the stream is gone (the peer has hung up, or the client was closed) it never comes
    back: whatever happens later nothing is written, no call waits, and every call returns
    `ConnectionUnavailable`. -/
theorem ws_client_fail_closed (sha256 : Bytes → Bytes) (events later : List ClientEvent)
    (hgone : (run (WsRelayClient.step sha256) .connect events).stream = false) :
    Closed (run (WsRelayClient.step sha256) .connect events)
      (run (WsRelayClient.step sha256) .connect (events ++ later)) := by
  have htidy : (run (WsRelayClient.step sha256) .connect events).Tidy :=
    run_inv (I := WsRelayClient.Tidy) (fun _ a h => h.step a) (fun _ => rfl) events
  rw [run_append]
  refine run_inv (I := Closed _) (fun _ a h => h.step a) ?_ later
  exact ⟨hgone, htidy hgone, rfl, [], (List.append_nil _).symm, fun _ h => absurd h List.not_mem_nil⟩

/-- The peer hangs up while Alice's pickup waits.  The pickup fails, and so does the next. -/
theorem ws_client_fail_closed_hangUp :
    Closed (run (WsRelayClient.step fun _ => []) .connect
        [.call (.pickupEnvelope "alice") true, .hangUp, .poll true])
      (run (WsRelayClient.step fun _ => []) .connect
        [.call (.pickupEnvelope "alice") true, .hangUp, .poll true, .call (.pickupEnvelope "alice") true]) :=
  ws_client_fail_closed (fun _ => []) [.call (.pickupEnvelope "alice") true, .hangUp, .poll true]
    [.call (.pickupEnvelope "alice") true] rfl

end E2EMessaging.Relay
