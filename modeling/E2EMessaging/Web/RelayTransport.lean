/-
  THE RELAY TRANSPORT OF THE WEB CLIENT (`clients/web/src/relay_transport.ts`).

  One WebSocket, one slot for the request that waits for its response (`this.pending`).  A call makes
  one round trip, or two with a proof of work between them; a round trip waits for the connection,
  fills the slot, sends its frame and is settled by the next message — WHICHEVER that is.  Calls,
  socket events and the relay's answers interleave freely; the relay answers the frames of a
  connection in order, one response each.

  The socket handlers do not ask whether their connection is still `this.ws`: all connections of a
  transport share `connectPromise` and `pending`.
-/
import E2EMessaging.Lib.Run
import E2EMessaging.Relay.Server

namespace E2EMessaging.Web

open E2EMessaging.Lib E2EMessaging.Relay

/-! ## Calls -/

/-- The operations, with what they are called with. -/
inductive TransportOp where
  | publishPrekey (recipientId : String) (bundle : Bytes)
  | lookupPrekey (recipientId : String)
  | sendEnvelope (recipientId : String) (envelope : Bytes)
  | pickupEnvelope (recipientId : String)
  deriving Repr, DecidableEq

/-- The round trips of a call: the challenge, and the operation itself with the challenge id and the
    solution, if it needs them. -/
inductive Round where
  | challenge
  | main (challengeId powSolution : String)
  deriving Repr, DecidableEq

/-- Where a call starts. -/
def TransportOp.firstRound : TransportOp → Round
  | .publishPrekey _ _ => .challenge
  | .sendEnvelope _ _ => .challenge
  | .lookupPrekey _ => .main "" ""
  | .pickupEnvelope _ => .main "" ""

/-- The recipient an operation names. -/
def TransportOp.recipientId : TransportOp → String
  | .publishPrekey r _ => r
  | .lookupPrekey r => r
  | .sendEnvelope r _ => r
  | .pickupEnvelope r => r

/-- The frame of a round trip. -/
def TransportOp.request (op : TransportOp) : Round → WsRequest
  | .challenge => .challenge op.recipientId
  | .main challengeId powSolution =>
    match op with
    | .publishPrekey r bundle => .publishPrekey r (b64Encode bundle) challengeId powSolution
    | .lookupPrekey r => .lookupPrekey r
    | .sendEnvelope r envelope => .sendEnvelope r (b64Encode envelope) challengeId powSolution
    | .pickupEnvelope r => .pickupEnvelope r

/-- A response object, by the fields the transport reads. -/
structure Reply where
  ok : Option Bool
  error : Option String
  challenge : Option String
  challengeId : Option String
  bundle : Option String
  envelope : Option String
  deriving Repr, DecidableEq

/-- A text frame from the relay. -/
inductive ReplyFrame where
  | malformed
  | object (r : Reply)
  deriving Repr, DecidableEq

/-- What a call settles with: bytes for a lookup or a pickup, nothing otherwise, or the message of
    the error thrown. -/
abbrev Settlement := Except String (Option Bytes)

/-- Where a call is. -/
inductive CallState where
  /-- It awaits the connect promise of a connection. -/
  | waiting (conn : Nat) (round : Round)
  /-- Its connect promise has resolved. -/
  | ready (round : Round)
  /-- It awaits the response to its frame. -/
  | sent (round : Round)
  /-- It solves a challenge. -/
  | solving (challengeId challenge : String)
  | settled (result : Settlement)
  deriving Repr, DecidableEq

/-- A call. -/
structure Call where
  op : TransportOp
  state : CallState
  deriving Repr, DecidableEq

/-- What the transport is built on: the error of the `WebSocket` constructor, if the URL is bad;
    `base64ToBytes`; and `parseChallengeWire` with `solvePow`, from a challenge to its solution. -/
structure Platform where
  createError : Option String
  base64ToBytes : String → Except String Bytes
  solve : String → Except String String

/-- A field that is there and not empty. -/
def truthy (field : Option String) : Option String := field.filter fun s => decide (s ≠ "")

/-- How `handleMessage` settles a round trip. -/
def settleFrame : ReplyFrame → Except String Reply
  | .malformed => .error "malformed JSON response from relay"
  | .object r =>
    match r.ok with
    | some true => .ok r
    | some false => .error (r.error.getD "unknown relay error")
    -- also when `ok` is there and is not a boolean
    | none => .error "relay response missing ok field"

/-- What an operation makes of the response to its own frame. -/
def TransportOp.conclude (P : Platform) (op : TransportOp) (r : Reply) : Settlement :=
  match op with
  | .publishPrekey _ _ => .ok none
  | .sendEnvelope _ _ => .ok none
  | .lookupPrekey _ =>
    match truthy r.bundle with
    | none => .error "lookup_prekey response missing bundle"
    | some bundle => (P.base64ToBytes bundle).map some
  | .pickupEnvelope _ =>
    match truthy r.envelope with
    | none => .error "pickup_envelope response missing envelope"
    | some envelope => (P.base64ToBytes envelope).map some

/-- A call after the response to one of its frames. -/
def afterReply (P : Platform) (op : TransportOp) (round : Round) (frame : ReplyFrame) : CallState :=
  match settleFrame frame with
  | .error e => .settled (.error e)
  | .ok r =>
    match round with
    | .main _ _ => .settled (op.conclude P r)
    | .challenge =>
      match truthy r.challenge, truthy r.challengeId with
      | some challenge, some challengeId => .solving challengeId challenge
      | _, _ => .settled (.error "challenge response missing fields")

/-! ## The transport -/

/-- `readyState`. -/
inductive ConnState where
  | connecting
  | opened
  | closing
  | closed
  deriving Repr, DecidableEq

/-- A frame sent: whose it is, in which round, and what it says. -/
structure Sent where
  owner : Nat
  round : Round
  request : WsRequest
  deriving Repr, DecidableEq

/-- A connection, with the frames the relay has yet to answer. -/
structure Conn where
  state : ConnState
  unanswered : List Sent
  deriving Repr, DecidableEq

/-- A response: which frame it answers, and which call it was given to, if any. -/
structure Delivery where
  receiver : Option Nat
  request : Sent
  frame : ReplyFrame
  deriving Repr, DecidableEq

/-- A transport, with all connections it has opened, all calls made on it and all responses. -/
structure Transport where
  ws : Option Nat
  connectPromise : Option Nat
  pending : Option Nat
  conns : List Conn
  calls : List Call
  log : List Delivery
  deriving Repr, DecidableEq

/-- What can happen. -/
inductive TransportEvent where
  | issue (op : TransportOp)
  /-- A call goes on after its connect promise. -/
  | resume (call : Nat)
  /-- A call has solved its challenge. -/
  | solved (call : Nat)
  | opened (conn : Nat)
  /-- The closing handshake begins. -/
  | closing (conn : Nat)
  /-- The connection is gone: `onclose`, after `onerror` if it failed. -/
  | ended (conn : Nat) (failed : Bool)
  /-- The relay answers the oldest unanswered frame of a connection. -/
  | reply (conn : Nat) (frame : ReplyFrame)
  deriving Repr, DecidableEq

namespace Transport

variable (P : Platform)

/-- A transport just constructed. -/
def new : Transport := ⟨none, none, none, [], [], []⟩

/-- The `readyState` of a connection. -/
def connState (t : Transport) (c : Nat) : Option ConnState := (t.conns[c]?).map Conn.state

/-- `this.ws && this.ws.readyState === WebSocket.OPEN`. -/
def isOpen (t : Transport) : Bool := t.ws.any fun c => decide (t.connState c = some .opened)

/-- A call moves on. -/
def setState (t : Transport) (j : Nat) (state : CallState) : Transport :=
  { t with calls := t.calls.modify j fun call => { call with state } }

/-- A connection changes its `readyState`. -/
def setConn (t : Transport) (c : Nat) (state : ConnState) : Transport :=
  { t with conns := t.conns.modify c fun conn => { conn with state } }

/-- A new connection and its promise. -/
def connect (t : Transport) : Transport :=
  { t with
    conns := t.conns ++ [⟨.connecting, []⟩]
    ws := some t.conns.length
    connectPromise := some t.conns.length }

/-- `ensureConnected`, up to its promise. -/
def ensureConnected (t : Transport) (j : Nat) (round : Round) : Transport :=
  if t.isOpen then t.setState j (.ready round)
  else
    match t.connectPromise with
    -- all calls that find the connection opening share its promise
    | some c => t.setState j (.waiting c round)
    | none =>
      match P.createError with
      | some e => t.setState j (.settled (.error ("failed to create WebSocket: " ++ e)))
      | none => t.connect.setState j (.waiting t.conns.length round)

/-- `this.pending = …; this.ws.send(…)`.  On an open socket `send` does not throw. -/
def transmit (t : Transport) (c : Nat) (request : Sent) : Transport :=
  { t with
    -- whoever was pending is forgotten
    pending := some request.owner
    conns := t.conns.modify c fun conn =>
      { conn with unanswered := conn.unanswered ++ [request] } }

/-- `roundTrip`, after its promise. -/
def resume (t : Transport) (j : Nat) : Transport :=
  match t.calls[j]? with
  | some ⟨op, .ready round⟩ =>
    match t.ws with
    | none => t.setState j (.settled (.error "relay connection not open"))
    | some c =>
      if t.connState c = some .opened then
        (t.transmit c ⟨j, round, op.request round⟩).setState j (.sent round)
      -- it has closed since the promise resolved
      else t.setState j (.settled (.error "relay connection not open"))
  | _ => t

/-- The rest of `requestChallengeAndSolve`, and the second round trip up to its promise. -/
def solved (t : Transport) (j : Nat) : Transport :=
  match t.calls[j]? with
  | some ⟨_, .solving challengeId challenge⟩ =>
    match P.solve challenge with
    | .error e => t.setState j (.settled (.error e))
    | .ok powSolution => t.ensureConnected P j (.main challengeId powSolution)
  | _ => t

/-- A call that waits for the connection moves on. -/
def settleWaiting (c : Nat) (next : Round → CallState) (call : Call) : Call :=
  match call.state with
  | .waiting c' round => if c' = c then { call with state := next round } else call
  | _ => call

/-- The connect promise resolves. -/
def wake (c : Nat) : Call → Call := settleWaiting c .ready

/-- The connect promise is rejected. -/
def refuse (c : Nat) : Call → Call :=
  settleWaiting c fun _ => .settled (.error "relay connection error")

/-- `onopen`. -/
def opened (t : Transport) (c : Nat) : Transport :=
  if t.connState c = some .connecting then
    { t.setConn c .opened with
      connectPromise := none
      calls := t.calls.map (wake c) }
  else t

/-- The pending request, if there is one, is rejected. -/
def rejectPending (t : Transport) (message : String) : Transport :=
  match t.pending with
  | none => t
  | some j => setState { t with pending := none } j (.settled (.error message))

/-- `onerror` and `onclose`.  A connection that was never open has failed; after `onerror`, `onclose`
    finds nothing pending.  The handlers do not ask whether the connection is still `this.ws`. -/
def ended (t : Transport) (c : Nat) (failed : Bool) : Transport :=
  match t.connState c with
  | none => t
  | some .closed => t
  | some state =>
    let failed := failed || decide (state = .connecting)
    let t := { t.setConn c .closed with
      connectPromise := none
      calls := if failed then t.calls.map (refuse c) else t.calls }
    t.rejectPending (if failed then "relay connection error" else "relay connection closed")

/-- `handleMessage`: the pending request takes the message. -/
def handleMessage (t : Transport) (request : Sent) (frame : ReplyFrame) : Transport :=
  let t : Transport := { t with log := t.log ++ [⟨t.pending, request, frame⟩] }
  match t.pending with
  | none => t
  | some j =>
    -- the slot is free before anything is known about the frame
    let t : Transport := { t with pending := none }
    match t.calls[j]? with
    | some ⟨op, .sent round⟩ => t.setState j (afterReply P op round frame)
    | _ => t

/-- The relay answers, and the message arrives. -/
def reply (t : Transport) (c : Nat) (frame : ReplyFrame) : Transport :=
  match t.conns[c]? with
  | some ⟨.opened, request :: rest⟩ =>
    handleMessage P { t with conns := t.conns.modify c fun conn => { conn with unanswered := rest } }
      request frame
  | _ => t

/-- One event. -/
def step (t : Transport) : TransportEvent → Transport
  | .issue op =>
    ensureConnected P { t with calls := t.calls ++ [⟨op, .ready op.firstRound⟩] } t.calls.length
      op.firstRound
  | .resume j => t.resume j
  | .solved j => t.solved P j
  | .opened c => t.opened c
  | .closing c =>
    if t.connState c = some .opened then t.setConn c .closing else t
  | .ended c failed => t.ended c failed
  | .reply c frame => t.reply P c frame

end Transport

end E2EMessaging.Web
