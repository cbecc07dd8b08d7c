/-
  WHOSE RESPONSE IS IT?

  The transport's slot holds one request.  With two in flight, the second takes the first one's
  response and the first never settles; a connection that ends late empties the slot of its
  successor (`overlapping_calls_cross`).

  `one_in_flight_correct`: as long as frames are sent only while nothing is in flight (what the
  transport asks of its callers) and only the current connection ends, every call settles, with the
  response to its own request; or with an error of its connection, and then that connection has closed
  before the call had its response (`LostConnection`).  `awaited_oneInFlight`: calls that await each
  other send so.

  The invariant says where the one outstanding response can be: on the current connection while it
  is open, or lost with a connection whose `onclose` is still to come.  Why a call has settled is a
  matter of the run, not of the state: `moved_step` says once what a step may do to a call, and
  `justified_of_meets` follows the calls from step to step.
-/
import E2EMessaging.Lib.Run
import E2EMessaging.Web.RelayTransport

namespace E2EMessaging.Web

open E2EMessaging.Lib E2EMessaging.Relay

namespace Transport

variable (P : Platform)

/-! ## What should hold -/

/-- Nothing is under way: no connection opens or closes, no frame is unanswered on an open connection,
    no call is about to send or solves a challenge. -/
def Quiescent (t : Transport) : Prop :=
  (∀ conn ∈ t.conns, conn.state = .closed ∨ conn.state = .opened ∧ conn.unanswered = []) ∧
  ∀ call ∈ t.calls, (∀ round, call.state ≠ .ready round) ∧
    ∀ challengeId challenge, call.state ≠ .solving challengeId challenge

/-- The transport after these events. -/
def after (events : List TransportEvent) : Transport := run (step P) .new events

/-- The call was given the response to one of its own frames, and went on so. -/
def Answered (t : Transport) (j : Nat) (op : TransportOp) (next : CallState) : Prop :=
  ∃ round frame, ⟨some j, ⟨j, round, op.request round⟩, frame⟩ ∈ t.log ∧
    afterReply P op round frame = next

/-- What `onerror` and `onclose` of a connection say. -/
def endedMessage (t : Transport) (c : Nat) (failed : Bool) : String :=
  if failed = true ∨ t.connState c = some .connecting then "relay connection error" else "relay connection closed"

/-- In the course of these events the call has lost its connection, before it had its response; and this is the
    message it was given then. -/
inductive LostConnection (events : List TransportEvent) (j : Nat) (op : TransportOp) : String → Prop
  /-- The connection it waited for has ended before it was open. -/
  | refused {before : List TransportEvent} {c : Nat} {failed : Bool} {round : Round}
      (happened : before ++ [.ended c failed] <+: events)
      (waiting : (after P before).calls[j]? = some ⟨op, .waiting c round⟩)
      (opening : (after P before).connState c = some .connecting) :
      LostConnection events j op "relay connection error"
  /-- A connection was open for it; when it went on to send, that connection was closing or closed. -/
  | shut {earlier before : List TransportEvent} {c : Nat} {round : Round}
      (happened : before ++ [.resume j] <+: events) (since : earlier <+: before)
      (letThrough : (after P earlier).calls[j]? = some ⟨op, .ready round⟩)
      (opened : (after P earlier).connState c = some .opened)
      (ready : (after P before).calls[j]? = some ⟨op, .ready round⟩)
      (gone : (after P before).connState c = some .closing ∨ (after P before).connState c = some .closed) :
      LostConnection events j op "relay connection not open"
  /-- The connection its frame went out on has ended, or was closing when another did, and the frame is still
      without a response. -/
  | dropped {before : List TransportEvent} {c c' : Nat} {failed : Bool} {round : Round} {conn : Conn}
      (happened : before ++ [.ended c' failed] <+: events)
      (sent : (after P before).calls[j]? = some ⟨op, .sent round⟩)
      (there : (after P before).conns[c]? = some conn)
      (unanswered : ⟨j, round, op.request round⟩ ∈ conn.unanswered)
      (gone : c' = c ∨ conn.state = .closing) :
      LostConnection events j op ((after P before).endedMessage c' failed)

/-- The call has its result from the response to its own frame, or it could not get one: it has lost its
    connection, or none could be made, or its own challenge was not solved. -/
def Earned (events : List TransportEvent) (j : Nat) (op : TransportOp) (result : Settlement) : Prop :=
  (after P events).Answered P j op (.settled result) ∨
  ∃ message, result = .error message ∧ (LostConnection P events j op message ∨
    (∃ e, P.createError = some e ∧ message = "failed to create WebSocket: " ++ e) ∨
    ∃ challengeId challenge, (after P events).Answered P j op (.solving challengeId challenge) ∧
      P.solve challenge = .error message)

/-- Every response went to the call whose frame it answers; every call settles; and every settled
    call has earned its result. -/
structure Correct (events : List TransportEvent) : Prop where
  own : ∀ d ∈ (after P events).log, d.receiver = some d.request.owner
  settles : (after P events).Quiescent → ∀ call ∈ (after P events).calls, ∃ result, call.state = .settled result
  earned : ∀ j op result, (after P events).calls[j]? = some ⟨op, .settled result⟩ → Earned P events j op result

/-- The call is about to send a frame. -/
def sends (t : Transport) (j : Nat) : Bool :=
  match t.calls[j]? with
  | some ⟨_, .ready _⟩ => t.isOpen
  | _ => false

/-- A frame is sent only while none is in flight, and a connection that ends is the current one. -/
def OneInFlight (t : Transport) : TransportEvent → Prop
  | .resume j => t.sends j = true → t.pending = none
  | .ended c _ => t.connState c ≠ none → t.connState c ≠ some .closed → t.ws = some c
  | _ => True

instance decidableOneInFlight (t : Transport) : (e : TransportEvent) → Decidable (t.OneInFlight e)
  | .resume j => inferInstanceAs (Decidable (t.sends j = true → t.pending = none))
  | .ended c _ => inferInstanceAs
    (Decidable (t.connState c ≠ none → t.connState c ≠ some .closed → t.ws = some c))
  | .issue _ => .isTrue trivial
  | .solved _ => .isTrue trivial
  | .opened _ => .isTrue trivial
  | .closing _ => .isTrue trivial
  | .reply _ _ => .isTrue trivial

/-! ## The invariant -/

/-- A response is outstanding exactly for the pending call, on a connection that is still there; only
    the current connection can open or is open; calls wait only for a connection that opens. -/
structure Inv (t : Transport) : Prop where
  current : ∀ c, t.connState c = some .connecting ∨ t.connState c = some .opened → t.ws = some c
  promise : ∀ c, t.connectPromise = some c ↔ t.connState c = some .connecting
  fresh : ∀ conn ∈ t.conns, conn.state = .connecting → conn.unanswered = []
  opened : ∀ conn ∈ t.conns, conn.state = .opened → conn.unanswered = [] ∨
    ∃ (j : Nat) (op : TransportOp) (round : Round),
      conn.unanswered = [⟨j, round, op.request round⟩] ∧ t.pending = some j ∧
      t.calls[j]? = some ⟨op, .sent round⟩
  inFlight : ∀ j, t.pending = some j → ∃ (op : TransportOp) (round : Round) (c : Nat) (conn : Conn),
    t.calls[j]? = some ⟨op, .sent round⟩ ∧ t.conns[c]? = some conn ∧
      ⟨j, round, op.request round⟩ ∈ conn.unanswered ∧ (conn.state = .opened ∨ conn.state = .closing)
  sent : ∀ j, t.pending = some j ↔ ∃ op round, t.calls[j]? = some ⟨op, .sent round⟩
  waiting : ∀ (j : Nat) (op : TransportOp) (c : Nat) (round : Round),
    t.calls[j]? = some ⟨op, .waiting c round⟩ → t.connState c = some .connecting
  own : ∀ d ∈ t.log, d.receiver = some d.request.owner

variable {P}

/-- The state of a connection, read off the list of all connections there have been. -/
theorem connState_eq_some {t : Transport} {c : Nat} {state : ConnState} :
    t.connState c = some state ↔ ∃ conn, t.conns[c]? = some conn ∧ conn.state = state := by
  rw [connState, Option.map_eq_some_iff]

/-- Under the invariant nothing that is not under way is left waiting. -/
theorem Inv.settles {t : Transport} (ht : t.Inv) (hquiet : t.Quiescent) :
    ∀ call ∈ t.calls, ∃ result, call.state = .settled result := by
  obtain ⟨hconns, hcalls⟩ := hquiet
  intro call hcall
  obtain ⟨hready, hsolving⟩ := hcalls call hcall
  obtain ⟨j, hj⟩ := List.mem_iff_getElem?.mp hcall
  obtain ⟨op, state⟩ := call
  cases state with
  | settled result => exact ⟨result, rfl⟩
  | ready round => exact absurd rfl (hready round)
  | solving challengeId challenge => exact absurd rfl (hsolving challengeId challenge)
  | waiting c round =>
    obtain ⟨conn, hconn, hstate⟩ := connState_eq_some.mp (ht.waiting j op c round hj)
    rcases hconns conn (List.mem_of_getElem? hconn) with hclosed | ⟨hopen, -⟩
    · rw [hstate] at hclosed
      cases hclosed
    · rw [hstate] at hopen
      cases hopen
  | sent round =>
    obtain ⟨_, _, c, conn, -, hconn, howed, hstate⟩ := ht.inFlight j ((ht.sent j).mpr ⟨op, round, hj⟩)
    rcases hconns conn (List.mem_of_getElem? hconn) with hclosed | ⟨hopen, hnone⟩
    · rw [hclosed] at hstate
      rcases hstate with hbad | hbad
      · cases hbad
      · cases hbad
    · rw [hnone] at howed
      cases howed

/-- After a call has moved on, the calls are the same but for that one, and only its state is new. -/
theorem getElem?_setState {t : Transport} {j k : Nat} {state : CallState} {call : Call} :
    (t.setState j state).calls[k]? = some call ↔
      (k = j ∧ ∃ old, t.calls[j]? = some old ∧ call = { old with state }) ∨
        (k ≠ j ∧ t.calls[k]? = some call) :=
  getElem?_modify_eq_some

/-- A call moves between states in which it has no response outstanding. -/
theorem Inv.move {t : Transport} (ht : t.Inv) {j : Nat} {op : TransportOp}
    {state state' : CallState} (hcall : t.calls[j]? = some ⟨op, state⟩)
    (hstate : ∀ round, state ≠ .sent round) (hstate' : ∀ round, state' ≠ .sent round)
    (hwaiting : ∀ c round, state' = .waiting c round → t.connState c = some .connecting) :
    (t.setState j state').Inv := by
  -- a call in the new list: the one that moved, or an old one
  have hcases : ∀ {k op' st}, (t.setState j state').calls[k]? = some ⟨op', st⟩ →
      (k = j ∧ op' = op ∧ st = state') ∨ (k ≠ j ∧ t.calls[k]? = some ⟨op', st⟩) := by
    intro k op' st h
    rcases getElem?_setState.mp h with ⟨rfl, old, hold, heq⟩ | hother
    · obtain rfl := Option.some.inj (hcall.symm.trans hold)
      obtain ⟨rfl, rfl⟩ := Call.mk.inj heq
      exact .inl ⟨rfl, rfl, rfl⟩
    · exact .inr hother
  have hother : ∀ {k op' round}, t.calls[k]? = some (Call.mk op' (.sent round)) → k ≠ j := by
    rintro k op' round hsent rfl
    obtain ⟨-, rfl⟩ := Call.mk.inj (Option.some.inj (hcall.symm.trans hsent))
    exact hstate round rfl
  refine ⟨ht.current, ht.promise, ht.fresh, ?_, ?_, ?_, ?_, ht.own⟩
  · intro conn hconn hopen
    rcases ht.opened conn hconn hopen with hnone | ⟨i, op', round, hone, hpending, hsent⟩
    · exact .inl hnone
    · exact .inr ⟨i, op', round, hone, hpending,
        getElem?_setState.mpr (.inr ⟨hother hsent, hsent⟩)⟩
  · intro k hk
    obtain ⟨op', round, c, conn, hsent, howed⟩ := ht.inFlight k hk
    exact ⟨op', round, c, conn, getElem?_setState.mpr (.inr ⟨hother hsent, hsent⟩), howed⟩
  · intro k
    refine (ht.sent k).trans ?_
    constructor
    · rintro ⟨op', round, hsent⟩
      exact ⟨op', round, getElem?_setState.mpr (.inr ⟨hother hsent, hsent⟩)⟩
    · rintro ⟨op', round, h⟩
      rcases hcases h with ⟨-, -, hbad⟩ | ⟨-, hold⟩
      · exact absurd hbad.symm (hstate' round)
      · exact ⟨op', round, hold⟩
  · intro k op' c round h
    rcases hcases h with ⟨-, -, heq⟩ | ⟨-, hold⟩
    · exact hwaiting c round heq.symm
    · exact ht.waiting k op' c round hold

/-- `this.ws` is there and open: the guard under which `ensureConnected` opens nothing. -/
theorem isOpen_iff {t : Transport} :
    t.isOpen = true ↔ ∃ c, t.ws = some c ∧ t.connState c = some .opened := by
  rw [isOpen, Option.any_eq_true]
  constructor
  · rintro ⟨c, hws, hopen⟩
    exact ⟨c, hws, of_decide_eq_true hopen⟩
  · rintro ⟨c, hws, hopen⟩
    exact ⟨c, hws, decide_eq_true hopen⟩

/-- A new connection gets the next number and is connecting; the others are as they were. -/
theorem connState_connect {t : Transport} {c : Nat} {state : ConnState} :
    t.connect.connState c = some state ↔
      t.connState c = some state ∨ (c = t.conns.length ∧ state = .connecting) := by
  rw [connState_eq_some, connState_eq_some]
  constructor
  · rintro ⟨conn, hconn, rfl⟩
    rcases getElem?_concat_eq_some.mp hconn with hold | ⟨rfl, rfl⟩
    · exact .inl ⟨conn, hold, rfl⟩
    · exact .inr ⟨rfl, rfl⟩
  · rintro (⟨conn, hold, hstate⟩ | ⟨rfl, rfl⟩)
    · exact ⟨conn, getElem?_concat_eq_some.mpr (.inl hold), hstate⟩
    · exact ⟨_, getElem?_concat_eq_some.mpr (.inr ⟨rfl, rfl⟩), rfl⟩

/-- A connection is made when none is open or opening. -/
theorem Inv.connect {t : Transport} (ht : t.Inv) (hopen : t.isOpen = false)
    (hpromise : t.connectPromise = none) : t.connect.Inv := by
  have hold : ∀ c, t.connState c ≠ some .connecting ∧ t.connState c ≠ some .opened := by
    intro c
    constructor
    · intro hc
      rw [(ht.promise c).mpr hc] at hpromise
      cases hpromise
    · intro hc
      rw [isOpen_iff.mpr ⟨c, ht.current c (.inr hc), hc⟩] at hopen
      cases hopen
  have hmem : ∀ conn ∈ t.connect.conns, conn ∈ t.conns ∨ conn = ⟨.connecting, []⟩ := by
    intro conn hconn
    rcases List.mem_append.mp hconn with hin | hnew
    · exact .inl hin
    · exact .inr (List.mem_singleton.mp hnew)
  refine ⟨?_, ?_, ?_, ?_, ?_, ht.sent, ?_, ht.own⟩
  · rintro c (hc | hc)
    · rcases connState_connect.mp hc with hbad | ⟨rfl, -⟩
      · exact absurd hbad (hold c).1
      · rfl
    · rcases connState_connect.mp hc with hbad | ⟨-, hbad⟩
      · exact absurd hbad (hold c).2
      · cases hbad
  · intro c
    rw [connState_connect]
    constructor
    · intro hc
      exact .inr ⟨(Option.some.inj hc).symm, rfl⟩
    · rintro (hbad | ⟨rfl, -⟩)
      · exact absurd hbad (hold c).1
      · rfl
  · intro conn hconn hstate
    rcases hmem conn hconn with hin | rfl
    · exact ht.fresh conn hin hstate
    · rfl
  · intro conn hconn hstate
    rcases hmem conn hconn with hin | rfl
    · exact ht.opened conn hin hstate
    · exact .inl rfl
  · intro j hj
    obtain ⟨op, round, c, conn, hsent, hconn, howed⟩ := ht.inFlight j hj
    exact ⟨op, round, c, conn, hsent, getElem?_concat_eq_some.mpr (.inl hconn), howed⟩
  · intro j op c round hj
    exact connState_connect.mpr (.inl (ht.waiting j op c round hj))

/-- `ensureConnected`, for a call without a response outstanding. -/
theorem Inv.ensureConnected {t : Transport} (ht : t.Inv) {j : Nat} {op : TransportOp}
    {state : CallState} (hcall : t.calls[j]? = some ⟨op, state⟩)
    (hstate : ∀ round, state ≠ .sent round) (round : Round) :
    (t.ensureConnected P j round).Inv := by
  rw [Transport.ensureConnected]
  split
  · exact ht.move hcall hstate nofun nofun
  · rename_i hopen
    split
    · rename_i c hpromise
      refine ht.move hcall hstate nofun ?_
      intro c' round' heq
      obtain ⟨rfl, -⟩ := CallState.waiting.inj heq
      exact (ht.promise c).mp hpromise
    · rename_i hpromise
      split
      · exact ht.move hcall hstate nofun nofun
      · refine (ht.connect (Bool.not_eq_true _ ▸ hopen) hpromise).move hcall hstate nofun ?_
        intro c' round' heq
        obtain ⟨rfl, -⟩ := CallState.waiting.inj heq
        exact connState_connect.mpr (.inr ⟨rfl, rfl⟩)

/-- A call is issued. -/
theorem Inv.issue {t : Transport} (ht : t.Inv) (op : TransportOp) :
    (t.step P (.issue op)).Inv := by
  have hnew : Inv { t with calls := t.calls ++ [⟨op, .ready op.firstRound⟩] } := by
    refine ⟨ht.current, ht.promise, ht.fresh, ?_, ?_, ?_, ?_, ht.own⟩
    · intro conn hconn hopen
      rcases ht.opened conn hconn hopen with hnone | ⟨j, op', round, hone, hpending, hsent⟩
      · exact .inl hnone
      · exact .inr ⟨j, op', round, hone, hpending, getElem?_concat_eq_some.mpr (.inl hsent)⟩
    · intro j hj
      obtain ⟨op', round, c, conn, hsent, howed⟩ := ht.inFlight j hj
      exact ⟨op', round, c, conn, getElem?_concat_eq_some.mpr (.inl hsent), howed⟩
    · intro j
      refine (ht.sent j).trans ?_
      constructor
      · rintro ⟨op', round, hsent⟩
        exact ⟨op', round, getElem?_concat_eq_some.mpr (.inl hsent)⟩
      · rintro ⟨op', round, hj⟩
        rcases getElem?_concat_eq_some.mp hj with hold | ⟨-, hbad⟩
        · exact ⟨op', round, hold⟩
        · cases hbad
    · intro j op' c round hj
      rcases getElem?_concat_eq_some.mp hj with hold | ⟨-, hbad⟩
      · exact ht.waiting j op' c round hold
      · cases hbad
  exact hnew.ensureConnected (getElem?_concat_eq_some.mpr (.inr ⟨rfl, rfl⟩)) nofun op.firstRound

/-- A challenge is solved, or not. -/
theorem Inv.solved {t : Transport} (ht : t.Inv) (j : Nat) : (t.solved P j).Inv := by
  rw [Transport.solved]
  split
  · rename_i op challengeId challenge hcall
    split
    · exact ht.move hcall nofun nofun nofun
    · exact ht.ensureConnected hcall nofun _
  · exact ht

/-- Only the current connection is open. -/
theorem Inv.open_unique {t : Transport} (ht : t.Inv) {c i : Nat} {conn : Conn}
    (hws : t.ws = some c) (hconn : t.conns[i]? = some conn) (hopen : conn.state = .opened) :
    i = c := by
  have hi := ht.current i (.inr (connState_eq_some.mpr ⟨conn, hconn, hopen⟩))
  exact Option.some.inj (hi.symm.trans hws)

/-- Which frames a connection has yet to answer says nothing about its state. -/
theorem connState_modify_unanswered (t : Transport) (c : Nat) (g : List Sent → List Sent) (i : Nat) :
    connState { t with conns := t.conns.modify c fun conn =>
      { conn with unanswered := g conn.unanswered } } i = t.connState i := by
  rw [connState, connState, List.getElem?_modify]
  cases t.conns[i]? with
  | none => rfl
  | some conn =>
    show some _ = some _
    split <;> rfl

/-- A frame is sent while none is in flight. -/
theorem Inv.transmit {t : Transport} (ht : t.Inv) {j c : Nat} {op : TransportOp} {round : Round}
    (hcall : t.calls[j]? = some ⟨op, .ready round⟩) (hws : t.ws = some c)
    (hopen : t.connState c = some .opened) (hpending : t.pending = none) :
    ((t.transmit c ⟨j, round, op.request round⟩).setState j (.sent round)).Inv := by
  obtain ⟨conn, hconn, hstate⟩ := connState_eq_some.mp hopen
  -- nothing is pending, so the open connection owes no response
  have hempty : conn.unanswered = [] := by
    rcases ht.opened conn (List.mem_of_getElem? hconn) hstate with hnone | ⟨i, -, -, -, hbad, -⟩
    · exact hnone
    · rw [hpending] at hbad
      cases hbad
  have hconnState := connState_modify_unanswered t c (· ++ [⟨j, round, op.request round⟩])
  have hself : (t.calls.modify j fun call => { call with state := .sent round })[j]? =
      some ⟨op, .sent round⟩ := getElem?_modify_eq_some.mpr (.inl ⟨rfl, _, hcall, rfl⟩)
  refine ⟨?_, ?_, ?_, ?_, ?_, ?_, ?_, ht.own⟩
  · intro c' hc'
    exact ht.current c' (hconnState c' ▸ hc')
  · intro c'
    exact (ht.promise c').trans (hconnState c' ▸ Iff.rfl)
  · intro conn' hmem hconnecting
    obtain ⟨i, hi⟩ := List.mem_iff_getElem?.mp hmem
    rcases getElem?_modify_eq_some.mp hi with ⟨rfl, old, hold, rfl⟩ | ⟨-, hold⟩
    · obtain rfl := Option.some.inj (hconn.symm.trans hold)
      rw [hstate] at hconnecting
      cases hconnecting
    · exact ht.fresh conn' (List.mem_of_getElem? hold) hconnecting
  · intro conn' hmem hopened
    obtain ⟨i, hi⟩ := List.mem_iff_getElem?.mp hmem
    rcases getElem?_modify_eq_some.mp hi with ⟨rfl, old, hold, rfl⟩ | ⟨hne, hold⟩
    · obtain rfl := Option.some.inj (hconn.symm.trans hold)
      refine .inr ⟨j, op, round, ?_, rfl, hself⟩
      rw [hempty]
      rfl
    · exact absurd (ht.open_unique hws hold hopened) hne
  · intro k hk
    obtain rfl := Option.some.inj hk
    refine ⟨op, round, c, { conn with unanswered := conn.unanswered ++ [⟨j, round, op.request round⟩] }, hself,
      ?_, List.mem_append_right _ List.mem_cons_self, .inl hstate⟩
    exact getElem?_modify_eq_some.mpr (.inl ⟨rfl, conn, hconn, rfl⟩)
  · intro k
    constructor
    · intro hk
      obtain rfl := Option.some.inj hk
      exact ⟨op, round, hself⟩
    · rintro ⟨op', round', hk⟩
      rcases getElem?_setState.mp hk with ⟨rfl, -⟩ | ⟨-, hold⟩
      · rfl
      · have hbad := (ht.sent k).mpr ⟨op', round', hold⟩
        rw [hpending] at hbad
        cases hbad
  · intro k op' c' round' hk
    rcases getElem?_setState.mp hk with ⟨-, old, -, hbad⟩ | ⟨-, hold⟩
    · cases hbad
    · exact (hconnState c').trans (ht.waiting k op' c' round' hold)

/-- A call goes on after its connect promise. -/
theorem Inv.resume {t : Transport} (ht : t.Inv) {j : Nat} (hone : OneInFlight t (.resume j)) :
    (t.resume j).Inv := by
  have hlost : ∀ {op round}, t.calls[j]? = some ⟨op, .ready round⟩ →
      (t.setState j (.settled (.error "relay connection not open"))).Inv := by
    intro op round hcall
    exact ht.move hcall nofun nofun nofun
  rw [Transport.resume]
  split
  · rename_i op round hcall
    split
    · exact hlost hcall
    · rename_i c hws
      split
      · rename_i hopen
        have hsends : t.sends j = true := by
          rw [sends, hcall]
          exact isOpen_iff.mpr ⟨c, hws, hopen⟩
        exact ht.transmit hcall hws hopen (hone hsends)
      · exact hlost hcall
  · exact ht

/-- A connection after one has changed its state. -/
theorem mem_setConn {t : Transport} {c : Nat} {state : ConnState} {conn : Conn} :
    conn ∈ (t.setConn c state).conns ↔
      (∃ old, t.conns[c]? = some old ∧ conn = { old with state }) ∨
        ∃ i, i ≠ c ∧ t.conns[i]? = some conn := by
  rw [List.mem_iff_getElem?]
  constructor
  · rintro ⟨i, hi⟩
    rcases getElem?_modify_eq_some.mp hi with ⟨-, hold⟩ | hother
    · exact .inl hold
    · exact .inr ⟨i, hother⟩
  · rintro (hold | ⟨i, hother⟩)
    · exact ⟨c, getElem?_modify_eq_some.mpr (.inl ⟨rfl, hold⟩)⟩
    · exact ⟨i, getElem?_modify_eq_some.mpr (.inr hother)⟩

/-- One connection changes its state, if it exists; the others keep theirs. -/
theorem connState_setConn {t : Transport} {c i : Nat} {state st : ConnState} :
    (t.setConn c state).connState i = some st ↔
      (i = c ∧ t.connState c ≠ none ∧ st = state) ∨ (i ≠ c ∧ t.connState i = some st) := by
  rw [connState_eq_some, connState_eq_some]
  constructor
  · rintro ⟨conn, hconn, rfl⟩
    rcases getElem?_modify_eq_some.mp hconn with ⟨rfl, old, hold, rfl⟩ | ⟨hne, hold⟩
    · refine .inl ⟨rfl, ?_, rfl⟩
      rw [connState, hold]
      exact Option.some_ne_none _
    · exact .inr ⟨hne, conn, hold, rfl⟩
  · rintro (⟨rfl, hsome, rfl⟩ | ⟨hne, conn, hold, hst⟩)
    · obtain ⟨old, hold⟩ := Option.ne_none_iff_exists'.mp hsome
      obtain ⟨conn, hconn, -⟩ := connState_eq_some.mp hold
      exact ⟨_, getElem?_modify_eq_some.mpr (.inl ⟨rfl, conn, hconn, rfl⟩), rfl⟩
    · exact ⟨conn, getElem?_modify_eq_some.mpr (.inr ⟨hne, hold⟩), hst⟩

/-- The calls after a connect promise has settled: those it concerned have moved on. -/
theorem getElem?_settleWaiting {calls : List Call} {c j : Nat} {next : Round → CallState}
    {op : TransportOp} {state : CallState}
    (h : (calls.map (settleWaiting c next))[j]? = some ⟨op, state⟩) :
    (calls[j]? = some ⟨op, state⟩ ∧ ∀ round, state ≠ .waiting c round) ∨
      ∃ round, calls[j]? = some ⟨op, .waiting c round⟩ ∧ state = next round := by
  rw [List.getElem?_map] at h
  obtain ⟨call, hcall, heq⟩ := Option.map_eq_some_iff.mp h
  unfold settleWaiting at heq
  split at heq
  · rename_i c' round hstate
    split at heq
    · rename_i hc
      obtain ⟨rfl, rfl⟩ := Call.mk.inj heq
      refine .inr ⟨round, ?_, rfl⟩
      rw [hcall, ← hc, ← hstate]
    · rename_i hne
      subst heq
      refine .inl ⟨hcall, ?_⟩
      rintro round' rfl
      obtain ⟨rfl, -⟩ := CallState.waiting.inj hstate
      exact hne rfl
  · rename_i hnot
    subst heq
    refine .inl ⟨hcall, ?_⟩
    rintro round rfl
    exact hnot c round rfl

/-- The connection opens. -/
theorem Inv.onopen {t : Transport} (ht : t.Inv) (c : Nat) : (t.opened c).Inv := by
  rw [Transport.opened]
  split
  case isFalse => exact ht
  rename_i hc
  have hws := ht.current c (.inl hc)
  -- it was the only one opening, and none was open
  have honly : ∀ i, i ≠ c → t.connState i ≠ some .connecting ∧ t.connState i ≠ some .opened := by
    intro i hne
    constructor
    · intro hi
      exact hne (Option.some.inj ((ht.current i (.inl hi)).symm.trans hws))
    · intro hi
      exact hne (Option.some.inj ((ht.current i (.inr hi)).symm.trans hws))
  refine ⟨?_, ?_, ?_, ?_, ?_, ?_, ?_, ht.own⟩
  · rintro i hi
    by_cases hne : i = c
    · rw [hne]
      exact hws
    · rcases hi with hi | hi
      · rcases connState_setConn.mp hi with ⟨hbad, -⟩ | ⟨-, hold⟩
        · exact absurd hbad hne
        · exact absurd hold (honly i hne).1
      · rcases connState_setConn.mp hi with ⟨hbad, -⟩ | ⟨-, hold⟩
        · exact absurd hbad hne
        · exact absurd hold (honly i hne).2
  · intro i
    constructor
    · intro hbad
      cases hbad
    · intro hi
      rcases connState_setConn.mp hi with ⟨-, -, hbad⟩ | ⟨hne, hold⟩
      · cases hbad
      · exact absurd hold (honly i hne).1
  · intro conn hconn hstate
    rcases mem_setConn.mp hconn with ⟨old, -, rfl⟩ | ⟨i, -, hold⟩
    · cases hstate
    · exact ht.fresh conn (List.mem_of_getElem? hold) hstate
  · intro conn hconn hstate
    rcases mem_setConn.mp hconn with ⟨old, hold, rfl⟩ | ⟨i, hne, hold⟩
    · obtain ⟨conn', hconn', hconnecting⟩ := connState_eq_some.mp hc
      obtain rfl := Option.some.inj (hold.symm.trans hconn')
      exact .inl (ht.fresh old (List.mem_of_getElem? hold) hconnecting)
    · exact absurd (connState_eq_some.mpr ⟨conn, hold, hstate⟩) (honly i hne).2
  · intro j hj
    obtain ⟨op, round, i, conn, hsent, hconn, howed, hstate⟩ := ht.inFlight j hj
    have hne : i ≠ c := by
      rintro rfl
      obtain ⟨conn', hconn', hconnecting⟩ := connState_eq_some.mp hc
      obtain rfl := Option.some.inj (hconn.symm.trans hconn')
      rw [hconnecting] at hstate
      rcases hstate with hbad | hbad
      · cases hbad
      · cases hbad
    refine ⟨op, round, i, conn, ?_, getElem?_modify_eq_some.mpr (.inr ⟨hne, hconn⟩), howed, hstate⟩
    show (t.calls.map (wake c))[j]? = some ⟨op, .sent round⟩
    rw [List.getElem?_map, hsent]
    rfl
  · intro j
    refine (ht.sent j).trans ?_
    constructor
    · rintro ⟨op, round, hsent⟩
      refine ⟨op, round, ?_⟩
      show (t.calls.map (wake c))[j]? = some ⟨op, .sent round⟩
      rw [List.getElem?_map, hsent]
      rfl
    · rintro ⟨op, round, hj⟩
      rcases getElem?_settleWaiting hj with ⟨hold, -⟩ | ⟨_, -, hbad⟩
      · exact ⟨op, round, hold⟩
      · cases hbad
  · intro j op c' round hj
    rcases getElem?_settleWaiting hj with ⟨hold, hnot⟩ | ⟨_, -, hbad⟩
    · refine connState_setConn.mpr (.inr ⟨?_, ht.waiting j op c' round hold⟩)
      rintro rfl
      exact hnot round rfl
    · cases hbad

/-- The closing handshake begins. -/
theorem Inv.closing {t : Transport} (ht : t.Inv) {c : Nat} (hc : t.connState c = some .opened) :
    (t.setConn c .closing).Inv := by
  have hconnState : ∀ {i st}, (t.setConn c .closing).connState i = some st → st ≠ .closing →
      i ≠ c ∧ t.connState i = some st := by
    intro i st hi hst
    rcases connState_setConn.mp hi with ⟨-, -, hbad⟩ | hold
    · exact absurd hbad hst
    · exact hold
  have hkept : ∀ {i}, t.connState i = some .connecting →
      (t.setConn c .closing).connState i = some .connecting := by
    intro i hi
    refine connState_setConn.mpr (.inr ⟨?_, hi⟩)
    rintro rfl
    rw [hc] at hi
    cases hi
  refine ⟨?_, ?_, ?_, ?_, ?_, ht.sent, ?_, ht.own⟩
  · rintro i (hi | hi)
    · exact ht.current i (.inl (hconnState hi nofun).2)
    · exact ht.current i (.inr (hconnState hi nofun).2)
  · intro i
    constructor
    · intro hi
      exact hkept ((ht.promise i).mp hi)
    · intro hi
      exact (ht.promise i).mpr (hconnState hi nofun).2
  · intro conn hconn hstate
    rcases mem_setConn.mp hconn with ⟨old, -, rfl⟩ | ⟨i, -, hold⟩
    · cases hstate
    · exact ht.fresh conn (List.mem_of_getElem? hold) hstate
  · intro conn hconn hstate
    rcases mem_setConn.mp hconn with ⟨old, -, rfl⟩ | ⟨i, -, hold⟩
    · cases hstate
    · exact ht.opened conn (List.mem_of_getElem? hold) hstate
  · intro j hj
    obtain ⟨op, round, i, conn, hsent, hconn, howed, hstate⟩ := ht.inFlight j hj
    by_cases hne : i = c
    · subst hne
      refine ⟨op, round, i, { conn with state := .closing }, hsent, ?_, howed, .inr rfl⟩
      exact getElem?_modify_eq_some.mpr (.inl ⟨rfl, conn, hconn, rfl⟩)
    · exact ⟨op, round, i, conn, hsent, getElem?_modify_eq_some.mpr (.inr ⟨hne, hconn⟩), howed, hstate⟩
  · intro j op c' round hj
    exact hkept (ht.waiting j op c' round hj)

/-- `rejectPending` empties the slot and settles the call in it; nothing else changes. -/
theorem rejectPending_spec (t : Transport) (message : String) :
    (t.rejectPending message).conns = t.conns ∧
      (t.rejectPending message).connectPromise = t.connectPromise ∧
      (t.rejectPending message).pending = none ∧ (t.rejectPending message).log = t.log ∧
      ∀ (j : Nat) (op : TransportOp) (state : CallState),
        (t.rejectPending message).calls[j]? = some ⟨op, state⟩ →
        (t.pending ≠ some j ∧ t.calls[j]? = some ⟨op, state⟩) ∨
          t.pending = some j ∧ (∃ old, t.calls[j]? = some ⟨op, old⟩) ∧ state = .settled (.error message) := by
  unfold rejectPending
  cases hpending : t.pending with
  | none =>
    refine ⟨rfl, rfl, hpending, rfl, ?_⟩
    intro j op state hj
    exact .inl ⟨nofun, hj⟩
  | some i =>
    refine ⟨rfl, rfl, rfl, rfl, ?_⟩
    intro j op state hj
    rcases getElem?_setState.mp hj with ⟨rfl, old, hold, heq⟩ | ⟨hne, hold⟩
    · obtain ⟨rfl, rfl⟩ := Call.mk.inj heq
      exact .inr ⟨rfl, ⟨old.state, hold⟩, rfl⟩
    · exact .inl ⟨fun heq => hne (Option.some.inj heq).symm, hold⟩

/-- All connections are gone: no call waits for one, and the pending one is rejected. -/
theorem Inv.lost {t u : Transport} (ht : t.Inv) (message : String)
    (hgone : ∀ i, u.connState i ≠ some .connecting ∧ u.connState i ≠ some .opened)
    (hpromise : u.connectPromise = none) (hpending : u.pending = t.pending) (hlog : u.log = t.log)
    (hcalls : ∀ (j : Nat) (op : TransportOp) (state : CallState),
      u.calls[j]? = some ⟨op, state⟩ →
      (t.calls[j]? = some ⟨op, state⟩ ∧ ∀ c round, state ≠ .waiting c round) ∨
        ∃ m, state = .settled (.error m)) :
    (u.rejectPending message).Inv := by
  obtain ⟨hconns, hpromise', hpending', hlog', hcalls'⟩ := rejectPending_spec u message
  have hgone' : ∀ i, (u.rejectPending message).connState i ≠ some .connecting ∧
      (u.rejectPending message).connState i ≠ some .opened := by
    intro i
    rw [connState, hconns]
    exact hgone i
  -- every call is as it was and awaits nothing, or it is rejected
  have hcall : ∀ {j op state}, (u.rejectPending message).calls[j]? = some (Call.mk op state) →
      (t.calls[j]? = some ⟨op, state⟩ ∧ t.pending ≠ some j ∧ ∀ c round, state ≠ .waiting c round) ∨
        ∃ m, state = .settled (.error m) := by
    intro j op state hj
    rcases hcalls' j op state hj with ⟨hne, hold⟩ | ⟨-, -, rfl⟩
    · rcases hcalls j op state hold with ⟨hold', hnot⟩ | hsettled
      · exact .inl ⟨hold', hpending ▸ hne, hnot⟩
      · exact .inr hsettled
    · exact .inr ⟨message, rfl⟩
  have hnoConn : ∀ conn ∈ (u.rejectPending message).conns,
      conn.state ≠ .connecting ∧ conn.state ≠ .opened := by
    intro conn hconn
    obtain ⟨i, hi⟩ := List.mem_iff_getElem?.mp hconn
    constructor
    · intro hstate
      exact (hgone' i).1 (connState_eq_some.mpr ⟨conn, hi, hstate⟩)
    · intro hstate
      exact (hgone' i).2 (connState_eq_some.mpr ⟨conn, hi, hstate⟩)
  refine ⟨?_, ?_, ?_, ?_, ?_, ?_, ?_, ?_⟩
  · rintro i (hi | hi)
    · exact absurd hi (hgone' i).1
    · exact absurd hi (hgone' i).2
  · intro i
    rw [hpromise', hpromise]
    constructor
    · intro hbad
      cases hbad
    · intro hi
      exact absurd hi (hgone' i).1
  · intro conn hconn hstate
    exact absurd hstate (hnoConn conn hconn).1
  · intro conn hconn hstate
    exact absurd hstate (hnoConn conn hconn).2
  · intro j hj
    rw [hpending'] at hj
    cases hj
  · intro j
    rw [hpending']
    constructor
    · intro hbad
      cases hbad
    · rintro ⟨op, round, hj⟩
      rcases hcall hj with ⟨hold, hne, -⟩ | ⟨_, hbad⟩
      · exact absurd ((ht.sent j).mpr ⟨op, round, hold⟩) hne
      · cases hbad
  · intro j op c round hj
    rcases hcall hj with ⟨-, -, hnot⟩ | ⟨_, hbad⟩
    · exact absurd rfl (hnot c round)
    · cases hbad
  · rw [hlog', hlog]
    exact ht.own

/-- The current connection ends. -/
theorem Inv.ended {t : Transport} (ht : t.Inv) {c : Nat} {failed : Bool}
    (hone : OneInFlight t (.ended c failed)) : (t.ended c failed).Inv := by
  rw [Transport.ended]
  split
  · exact ht
  · exact ht
  · rename_i state hclosed hc
    have hws : t.ws = some c := by
      refine hone ?_ ?_
      · rw [hc]
        exact Option.some_ne_none _
      · rw [hc]
        exact fun heq => hclosed (Option.some.inj heq)
    have hcurrent : ∀ {i}, t.connState i = some .connecting ∨ t.connState i = some .opened →
        i = c := by
      intro i hi
      exact Option.some.inj ((ht.current i hi).symm.trans hws)
    refine ht.lost _ ?_ rfl rfl rfl ?_
    · intro i
      constructor
      · intro hi
        rcases connState_setConn.mp hi with ⟨-, -, hbad⟩ | ⟨hne, hold⟩
        · cases hbad
        · exact hne (hcurrent (.inl hold))
      · intro hi
        rcases connState_setConn.mp hi with ⟨-, -, hbad⟩ | ⟨hne, hold⟩
        · cases hbad
        · exact hne (hcurrent (.inr hold))
    · intro j op st hj
      -- a call that waits, waits for this connection: then it has failed
      have hwaits : ∀ {c' round}, t.calls[j]? = some ⟨op, .waiting c' round⟩ →
          c' = c ∧ state = .connecting := by
        intro c' round hold
        have hconnecting := ht.waiting j op c' round hold
        obtain rfl := hcurrent (.inl hconnecting)
        exact ⟨rfl, Option.some.inj (hc.symm.trans hconnecting)⟩
      dsimp only at hj
      split at hj
      · rcases getElem?_settleWaiting hj with ⟨hold, hnot⟩ | ⟨_, -, rfl⟩
        · refine .inl ⟨hold, ?_⟩
          rintro c' round rfl
          obtain ⟨rfl, -⟩ := hwaits hold
          exact hnot round rfl
        · exact .inr ⟨_, rfl⟩
      · rename_i hfailed
        refine .inl ⟨hj, ?_⟩
        rintro c' round rfl
        obtain ⟨-, rfl⟩ := hwaits hj
        simp at hfailed

/-- A response settles its call, or leaves it with a challenge to solve. -/
theorem afterReply_cases (P : Platform) (op : TransportOp) (round : Round) (frame : ReplyFrame) :
    (∃ result, afterReply P op round frame = .settled result) ∨
      ∃ challengeId challenge, afterReply P op round frame = .solving challengeId challenge := by
  unfold afterReply
  split
  · exact .inl ⟨_, rfl⟩
  · split
    · exact .inl ⟨_, rfl⟩
    · split
      · exact .inr ⟨_, _, rfl⟩
      · exact .inl ⟨_, rfl⟩

/-- The relay answers: the frame is the pending call's own. -/
theorem Inv.reply {t : Transport} (ht : t.Inv) (c : Nat) (frame : ReplyFrame) :
    (t.reply P c frame).Inv := by
  rw [Transport.reply]
  split
  case h_2 => exact ht
  rename_i request rest hconn
  -- the one unanswered frame of the open connection is that of the pending call
  obtain hbad | ⟨j, op, round, hone, hpending, hcall⟩ :=
    ht.opened _ (List.mem_of_getElem? hconn) rfl
  · cases hbad
  obtain ⟨rfl, rfl⟩ := List.cons.inj hone
  rw [handleMessage]
  dsimp only
  simp only [hpending, hcall]
  have hconnState := connState_modify_unanswered t c fun _ => []
  have hws := ht.current c (.inr (connState_eq_some.mpr ⟨_, hconn, rfl⟩))
  have hnext : ∀ round', afterReply P op round frame ≠ .sent round' ∧
      ∀ c', afterReply P op round frame ≠ .waiting c' round' := by
    intro round'
    rcases afterReply_cases P op round frame with ⟨_, heq⟩ | ⟨_, _, heq⟩
    · rw [heq]
      exact ⟨nofun, nofun⟩
    · rw [heq]
      exact ⟨nofun, nofun⟩
  refine ⟨?_, ?_, ?_, ?_, ?_, ?_, ?_, ?_⟩
  · intro c' hc'
    exact ht.current c' (hconnState c' ▸ hc')
  · intro c'
    exact (ht.promise c').trans (hconnState c' ▸ Iff.rfl)
  · intro conn hmem hstate
    obtain ⟨i, hi⟩ := List.mem_iff_getElem?.mp hmem
    rcases getElem?_modify_eq_some.mp hi with ⟨rfl, old, -, rfl⟩ | ⟨-, hold⟩
    · rfl
    · exact ht.fresh conn (List.mem_of_getElem? hold) hstate
  · intro conn hmem hstate
    obtain ⟨i, hi⟩ := List.mem_iff_getElem?.mp hmem
    rcases getElem?_modify_eq_some.mp hi with ⟨rfl, old, -, rfl⟩ | ⟨hne, hold⟩
    · exact .inl rfl
    · exact absurd (ht.open_unique hws hold hstate) hne
  · intro i hi
    cases hi
  · intro k
    constructor
    · intro hbad
      cases hbad
    · rintro ⟨op', round', hk⟩
      rcases getElem?_setState.mp hk with ⟨-, old, -, heq⟩ | ⟨hne, hold⟩
      · exact absurd (Call.mk.inj heq).2.symm (hnext round').1
      · have hsent := (ht.sent k).mpr ⟨op', round', hold⟩
        exact absurd (Option.some.inj (hsent.symm.trans hpending)) hne
  · intro k op' c' round' hk
    rcases getElem?_setState.mp hk with ⟨-, old, -, heq⟩ | ⟨-, hold⟩
    · exact absurd (Call.mk.inj heq).2.symm ((hnext round').2 c')
    · exact (hconnState c').trans (ht.waiting k op' c' round' hold)
  · intro d hd
    rcases List.mem_append.mp hd with hold | hnew
    · exact ht.own d hold
    · rw [List.mem_singleton.mp hnew]

/-- **One step.** -/
theorem Inv.step {t : Transport} (ht : t.Inv) {e : TransportEvent} (hone : OneInFlight t e) :
    (t.step P e).Inv := by
  cases e with
  | issue op => exact ht.issue op
  | resume j => exact ht.resume hone
  | solved j => exact ht.solved j
  | opened c => exact ht.onopen c
  | closing c =>
    show (if t.connState c = some .opened then t.setConn c .closing else t).Inv
    split
    · rename_i hc
      exact ht.closing hc
    · exact ht
  | ended c failed => exact ht.ended hone
  | reply c frame => exact ht.reply c frame

/-- A transport that has done nothing: no call, no connection, nothing outstanding. -/
theorem Inv.new : Transport.new.Inv := by
  refine ⟨?_, ?_, ?_, ?_, ?_, ?_, ?_, ?_⟩
  · rintro c (hc | hc)
    · cases hc
    · cases hc
  · intro c
    constructor
    · intro hc
      cases hc
    · intro hc
      cases hc
  · intro conn hconn
    cases hconn
  · intro conn hconn
    cases hconn
  · intro j hj
    cases hj
  · intro j
    constructor
    · intro hj
      cases hj
    · rintro ⟨op, round, hj⟩
      cases hj
  · intro j op c round hj
    cases hj
  · intro d hd
    cases hd

/-! ## What becomes of a call -/

/-- All that one event may do to a call. -/
inductive Moved (P : Platform) (t : Transport) (e : TransportEvent) (j : Nat) (op : TransportOp) :
    CallState → Prop
  | kept {state : CallState} (before : t.calls[j]? = some ⟨op, state⟩) : Moved P t e j op state
  | waits (c : Nat) (round : Round) : Moved P t e j op (.waiting c round)
  | sent (round : Round) : Moved P t e j op (.sent round)
  | letThrough {c : Nat} (round : Round) (opened : (t.step P e).connState c = some .opened) :
      Moved P t e j op (.ready round)
  | answered {state : CallState} (own : (t.step P e).Answered P j op state) : Moved P t e j op state
  | uncreated {error : String} (bad : P.createError = some error) :
      Moved P t e j op (.settled (.error ("failed to create WebSocket: " ++ error)))
  | unsolved {challengeId challenge message : String}
      (asked : t.calls[j]? = some ⟨op, .solving challengeId challenge⟩)
      (failed : P.solve challenge = .error message) : Moved P t e j op (.settled (.error message))
  | refused {c : Nat} {failed : Bool} {round : Round} (event : e = .ended c failed)
      (waiting : t.calls[j]? = some ⟨op, .waiting c round⟩) (opening : t.connState c = some .connecting) :
      Moved P t e j op (.settled (.error "relay connection error"))
  | shut {round : Round} (event : e = .resume j) (ready : t.calls[j]? = some ⟨op, .ready round⟩)
      (closed : t.isOpen = false) : Moved P t e j op (.settled (.error "relay connection not open"))
  | dropped {c c' : Nat} {failed : Bool} {round : Round} {conn : Conn} (event : e = .ended c' failed)
      (sent : t.calls[j]? = some ⟨op, .sent round⟩) (there : t.conns[c]? = some conn)
      (unanswered : ⟨j, round, op.request round⟩ ∈ conn.unanswered) (gone : c' = c ∨ conn.state = .closing) :
      Moved P t e j op (.settled (.error (t.endedMessage c' failed)))

/-- The call that asks for a connection goes on, waits for one or cannot have one; the others stay. -/
theorem calls_ensureConnected {t : Transport} {j k : Nat} {round : Round} {op : TransportOp} {state : CallState}
    (h : (t.ensureConnected P j round).calls[k]? = some ⟨op, state⟩) :
    (k ≠ j ∧ t.calls[k]? = some ⟨op, state⟩) ∨
      k = j ∧ ((state = .ready round ∧ ∃ c, (t.ensureConnected P j round).connState c = some .opened) ∨
        (∃ c, state = .waiting c round) ∨
        ∃ error, P.createError = some error ∧
          state = .settled (.error ("failed to create WebSocket: " ++ error))) := by
  -- whatever state the call is put in
  have hset : ∀ {u : Transport} {next : CallState}, u.calls = t.calls →
      (u.setState j next).calls[k]? = some ⟨op, state⟩ →
      (k ≠ j ∧ t.calls[k]? = some ⟨op, state⟩) ∨ k = j ∧ state = next := by
    intro u next hcalls hk
    rcases getElem?_setState.mp hk with ⟨rfl, old, -, heq⟩ | hother
    · exact .inr ⟨rfl, (Call.mk.inj heq).2⟩
    · exact .inl (hcalls ▸ hother)
  unfold Transport.ensureConnected at h ⊢
  split at h
  · rename_i hopen
    rw [if_pos hopen]
    obtain ⟨c, -, hc⟩ := isOpen_iff.mp hopen
    refine (hset rfl h).imp_right ?_
    rintro ⟨rfl, rfl⟩
    exact ⟨rfl, .inl ⟨rfl, c, hc⟩⟩
  · rename_i hopen
    rw [if_neg hopen]
    refine (?_ : _ ∨ k = j ∧ ((∃ c, state = .waiting c round) ∨ _)).imp_right (And.imp_right .inr)
    split at h
    · rename_i c _
      refine (hset rfl h).imp_right ?_
      rintro ⟨rfl, rfl⟩
      exact ⟨rfl, .inl ⟨c, rfl⟩⟩
    · split at h
      · rename_i error hbad
        refine (hset rfl h).imp_right ?_
        rintro ⟨rfl, rfl⟩
        exact ⟨rfl, .inr ⟨error, hbad, rfl⟩⟩
      · refine (hset (u := t.connect) rfl h).imp_right ?_
        rintro ⟨rfl, rfl⟩
        exact ⟨rfl, .inl ⟨t.conns.length, rfl⟩⟩

/-- A call that asked for a connection, in the words of a step. -/
theorem moved_ensureConnected {t u : Transport} {e : TransportEvent} {i j : Nat} {round : Round}
    {op : TransportOp} {state : CallState} (hstep : t.step P e = u.ensureConnected P i round)
    (hold : j ≠ i → u.calls[j]? = some ⟨op, state⟩ → t.calls[j]? = some ⟨op, state⟩)
    (h : (t.step P e).calls[j]? = some ⟨op, state⟩) : Moved P t e j op state := by
  rw [hstep] at h
  rcases calls_ensureConnected h with
    ⟨hne, hkept⟩ | ⟨-, ⟨rfl, c, hopen⟩ | ⟨c, rfl⟩ | ⟨error, hbad, rfl⟩⟩
  · exact .kept (hold hne hkept)
  · exact .letThrough round (hstep ▸ hopen)
  · exact .waits c round
  · exact .uncreated hbad

/-- A call that goes on to send has its frame out, or finds its connection gone. -/
theorem moved_resume {t : Transport} {i j : Nat} {op : TransportOp} {state : CallState}
    (h : (t.resume i).calls[j]? = some ⟨op, state⟩) : Moved P t (.resume i) j op state := by
  rw [Transport.resume] at h
  split at h
  case h_2 => exact .kept h
  rename_i op' round hcall
  have hshut : t.isOpen = false →
      (t.setState i (.settled (.error "relay connection not open"))).calls[j]? = some ⟨op, state⟩ →
      Moved P t (.resume i) j op state := by
    intro hclosed hj
    rcases getElem?_setState.mp hj with ⟨rfl, old, hold, heq⟩ | ⟨-, hold⟩
    · obtain rfl := Option.some.inj (hcall.symm.trans hold)
      obtain ⟨rfl, rfl⟩ := Call.mk.inj heq
      exact .shut rfl hcall hclosed
    · exact .kept hold
  split at h
  · rename_i hws
    refine hshut ?_ h
    rw [isOpen, hws]
    rfl
  · rename_i c hws
    split at h
    · rcases getElem?_setState.mp h with ⟨rfl, old, -, heq⟩ | ⟨-, hold⟩
      · obtain ⟨-, rfl⟩ := Call.mk.inj heq
        exact .sent round
      · exact .kept hold
    · rename_i hnot
      refine hshut ?_ h
      rw [isOpen, hws]
      exact decide_eq_false hnot

/-- A call that has tried its challenge gives up, or asks for a connection again. -/
theorem moved_solved {t : Transport} {i j : Nat} {op : TransportOp} {state : CallState}
    (h : (t.solved P i).calls[j]? = some ⟨op, state⟩) : Moved P t (.solved i) j op state := by
  have hstep : t.step P (.solved i) = t.solved P i := rfl
  rw [Transport.solved] at h hstep
  split at h
  case h_2 => exact .kept h
  rename_i op' challengeId challenge hcall
  split at h
  · rename_i message hsolve
    rcases getElem?_setState.mp h with ⟨rfl, old, hold, heq⟩ | ⟨-, hold⟩
    · obtain rfl := Option.some.inj (hcall.symm.trans hold)
      obtain ⟨rfl, rfl⟩ := Call.mk.inj heq
      exact .unsolved hcall hsolve
    · exact .kept hold
  · rename_i powSolution hsolve
    simp only [hcall, hsolve] at hstep
    exact moved_ensureConnected hstep (fun _ hold => hold) (hstep ▸ h)

/-- A connection ends: it was opening, and calls have waited for it; or it was open or closing, and takes the pending
    call with it.  That call's frame is on a connection that is open, hence this one, or closing. -/
theorem moved_ended {t : Transport} (ht : t.Inv) {c : Nat} {failed : Bool}
    (hone : t.OneInFlight (.ended c failed)) {j : Nat} {op : TransportOp} {state : CallState}
    (h : (t.ended c failed).calls[j]? = some ⟨op, state⟩) : Moved P t (.ended c failed) j op state := by
  rw [Transport.ended] at h
  split at h
  · exact .kept h
  · exact .kept h
  rename_i st hclosed hc
  have hws : t.ws = some c := by
    refine hone ?_ ?_
    · rw [hc]
      exact Option.some_ne_none _
    · rw [hc]
      exact fun heq => hclosed (Option.some.inj heq)
  obtain ⟨-, -, -, -, hcalls⟩ := rejectPending_spec
    { t.setConn c .closed with
      connectPromise := none
      calls := if (failed || decide (st = .connecting)) = true then t.calls.map (refuse c) else t.calls }
    (if (failed || decide (st = .connecting)) = true then "relay connection error" else "relay connection closed")
  -- the calls whose promise is rejected
  have hrefused : ∀ {st' : CallState}, (if (failed || decide (st = .connecting)) = true then
        t.calls.map (refuse c) else t.calls)[j]? = some ⟨op, st'⟩ →
      t.calls[j]? = some ⟨op, st'⟩ ∨ ∃ round, t.calls[j]? = some ⟨op, .waiting c round⟩ ∧
        st' = .settled (.error "relay connection error") := by
    intro st' hj
    split at hj
    · exact (getElem?_settleWaiting hj).imp_left And.left
    · exact .inl hj
  rcases hcalls j op state h with ⟨-, hold⟩ | ⟨hpending, ⟨old, hold⟩, rfl⟩
  · rcases hrefused hold with hkept | ⟨round, hwaiting, rfl⟩
    · exact .kept hkept
    · exact .refused rfl hwaiting (ht.waiting j op c round hwaiting)
  · obtain ⟨op', round, c', conn, hsent, hconn, howed, hstate⟩ := ht.inFlight j hpending
    obtain rfl : op = op' := by
      rcases hrefused hold with hkept | ⟨_, hwaiting, -⟩
      · exact (Call.mk.inj (Option.some.inj (hkept.symm.trans hsent))).1
      · exact (Call.mk.inj (Option.some.inj (hwaiting.symm.trans hsent))).1
    have hgone : c = c' ∨ conn.state = .closing := by
      refine hstate.imp_left ?_
      intro hopen
      have hcurrent := ht.current c' (.inr (connState_eq_some.mpr ⟨conn, hconn, hopen⟩))
      exact Option.some.inj (hws.symm.trans hcurrent)
    have hmessage : t.endedMessage c failed = if (failed || decide (st = .connecting)) = true then
        "relay connection error" else "relay connection closed" := by
      rw [endedMessage, hc]
      simp only [Option.some.injEq, Bool.or_eq_true, decide_eq_true_iff]
    rw [← hmessage]
    exact .dropped rfl hsent hconn howed hgone

/-- The relay answers: the one frame it can answer is that of the pending call. -/
theorem moved_reply {t : Transport} (ht : t.Inv) {c : Nat} {frame : ReplyFrame} {j : Nat} {op : TransportOp}
    {state : CallState} (h : (t.reply P c frame).calls[j]? = some ⟨op, state⟩) :
    Moved P t (.reply c frame) j op state := by
  cases hconn : t.conns[c]? with
  | none =>
    rw [Transport.reply, hconn] at h
    exact .kept h
  | some conn =>
    rw [Transport.reply, hconn] at h
    split at h
    case h_2 => exact .kept h
    rename_i request rest heq
    obtain rfl := Option.some.inj heq
    obtain hbad | ⟨i, op', round, hone, hpending, hcall⟩ := ht.opened _ (List.mem_of_getElem? hconn) rfl
    · cases hbad
    obtain ⟨rfl, rfl⟩ := List.cons.inj hone
    have hreply : t.reply P c frame = setState { t with
        conns := t.conns.modify c fun conn => { conn with unanswered := [] }
        log := t.log ++ [⟨some i, ⟨i, round, op'.request round⟩, frame⟩]
        pending := none } i (afterReply P op' round frame) := by
      rw [Transport.reply, hconn]
      simp only [handleMessage, hpending, hcall]
    rw [handleMessage] at h
    simp only [hpending, hcall] at h
    rcases getElem?_setState.mp h with ⟨rfl, old, hold, heq⟩ | ⟨-, hold⟩
    · obtain rfl := Option.some.inj (hcall.symm.trans hold)
      obtain ⟨rfl, rfl⟩ := Call.mk.inj heq
      refine .answered ⟨round, frame, ?_, rfl⟩
      show _ ∈ (t.reply P c frame).log
      rw [hreply]
      exact List.mem_append_right _ List.mem_cons_self
    · exact .kept hold

/-- **What one event does to a call.** -/
theorem moved_step {t : Transport} (ht : t.Inv) {e : TransportEvent} (hone : t.OneInFlight e) {j : Nat}
    {op : TransportOp} {state : CallState} (h : (t.step P e).calls[j]? = some ⟨op, state⟩) :
    Moved P t e j op state := by
  cases e with
  | issue op' =>
    refine moved_ensureConnected (i := t.calls.length) rfl ?_ h
    intro hne hj
    rcases getElem?_concat_eq_some.mp hj with hold | ⟨hbad, -⟩
    · exact hold
    · exact absurd hbad hne
  | resume i => exact moved_resume h
  | solved i => exact moved_solved h
  | opened c =>
    have h' : (t.opened c).calls[j]? = some ⟨op, state⟩ := h
    rw [Transport.opened] at h'
    split at h'
    case isFalse => exact .kept h'
    rename_i hc
    rcases getElem?_settleWaiting h' with ⟨hold, -⟩ | ⟨round, -, rfl⟩
    · exact .kept hold
    · refine .letThrough (c := c) round ?_
      show (t.opened c).connState c = some .opened
      rw [Transport.opened, if_pos hc]
      refine (connState_setConn (t := t)).mpr (.inl ⟨rfl, ?_, rfl⟩)
      rw [hc]
      exact Option.some_ne_none _
  | closing c =>
    have h' : (if t.connState c = some .opened then t.setConn c .closing else t).calls[j]? = some ⟨op, state⟩ := h
    split at h'
    · exact .kept h'
    · exact .kept h'
  | ended c failed => exact moved_ended ht hone h
  | reply c frame => exact moved_reply ht h

/-! ## The calls along a run -/

/-- A connection that is no longer opening. -/
def Past (t : Transport) (c : Nat) : Prop := ∃ state, t.connState c = some state ∧ state ≠ .connecting

/-- A connection that has got past `connecting` does not come back to it, whichever connection changes. -/
theorem past_setConn {t : Transport} {c i : Nat} {state : ConnState} (hne : state ≠ .connecting)
    (h : t.Past i) : (t.setConn c state).Past i := by
  obtain ⟨st, hst, hpast⟩ := h
  by_cases hic : i = c
  · subst hic
    refine ⟨state, connState_setConn.mpr (.inl ⟨rfl, ?_, rfl⟩), hne⟩
    rw [hst]
    exact Option.some_ne_none _
  · exact ⟨st, connState_setConn.mpr (.inr ⟨hic, hst⟩), hpast⟩

theorem past_ensureConnected {t : Transport} {j c : Nat} {round : Round} (h : t.Past c) :
    (t.ensureConnected P j round).Past c := by
  unfold Transport.ensureConnected
  split
  · exact h
  · split
    · exact h
    · split
      · exact h
      · obtain ⟨st, hst, hpast⟩ := h
        exact ⟨st, connState_connect.mpr (.inl hst), hpast⟩

/-- No event makes a connection open anew. -/
theorem Past.step {t : Transport} {c : Nat} (h : t.Past c) (e : TransportEvent) : (t.step P e).Past c := by
  cases e with
  | issue op => exact past_ensureConnected h
  | resume j =>
    show (t.resume j).Past c
    unfold Transport.resume
    split
    · rename_i op round _
      split
      · exact h
      · rename_i i _
        split
        · obtain ⟨st, hst, hpast⟩ := h
          have hsame := connState_modify_unanswered t i (· ++ [⟨j, round, op.request round⟩]) c
          exact ⟨st, hsame.trans hst, hpast⟩
        · exact h
    · exact h
  | solved j =>
    show (t.solved P j).Past c
    unfold Transport.solved
    split
    · split
      · exact h
      · exact past_ensureConnected h
    · exact h
  | opened i =>
    show (t.opened i).Past c
    unfold Transport.opened
    split
    · exact past_setConn (by decide) h
    · exact h
  | closing i =>
    show (if t.connState i = some .opened then t.setConn i .closing else t).Past c
    split
    · exact past_setConn (by decide) h
    · exact h
  | ended i failed =>
    show (t.ended i failed).Past c
    unfold Transport.ended
    split
    · exact h
    · exact h
    · obtain ⟨st, hst, hpast⟩ : (t.setConn i .closed).Past c := past_setConn (by decide) h
      refine ⟨st, ?_, hpast⟩
      rw [connState, (rejectPending_spec _ _).1]
      exact hst
  | reply i frame =>
    show (t.reply P i frame).Past c
    unfold Transport.reply
    split
    · rename_i request rest _
      obtain ⟨st, hst, hpast⟩ := h
      refine ⟨st, (?_ : _ = t.connState c).trans hst, hpast⟩
      refine Eq.trans ?_ (connState_modify_unanswered t i (fun _ => rest) c)
      unfold handleMessage
      dsimp only
      split
      · rfl
      · split
        · rfl
        · rfl
    · exact h

theorem log_ensureConnected (t : Transport) (j : Nat) (round : Round) :
    (t.ensureConnected P j round).log = t.log := by
  unfold Transport.ensureConnected
  split
  · rfl
  · split
    · rfl
    · split
      · rfl
      · rfl

/-- What has been given to whom is never taken back. -/
theorem log_step (t : Transport) (e : TransportEvent) : t.log <+: (t.step P e).log := by
  cases e with
  | issue op =>
    show t.log <+: (Transport.ensureConnected P _ _ _).log
    rewrite [log_ensureConnected]
    exact List.prefix_rfl
  | resume j =>
    show t.log <+: (t.resume j).log
    unfold Transport.resume
    split
    · split
      · exact List.prefix_rfl
      · split
        · exact List.prefix_rfl
        · exact List.prefix_rfl
    · exact List.prefix_rfl
  | solved j =>
    show t.log <+: (t.solved P j).log
    unfold Transport.solved
    split
    · split
      · exact List.prefix_rfl
      · rewrite [log_ensureConnected]
        exact List.prefix_rfl
    · exact List.prefix_rfl
  | opened c =>
    show t.log <+: (t.opened c).log
    unfold Transport.opened
    split
    · exact List.prefix_rfl
    · exact List.prefix_rfl
  | closing c =>
    show t.log <+: (if t.connState c = some .opened then t.setConn c .closing else t).log
    split
    · exact List.prefix_rfl
    · exact List.prefix_rfl
  | ended c failed =>
    show t.log <+: (t.ended c failed).log
    unfold Transport.ended
    split
    · exact List.prefix_rfl
    · exact List.prefix_rfl
    · rw [(rejectPending_spec _ _).2.2.2.1]
      exact List.prefix_rfl
  | reply c frame =>
    show t.log <+: (t.reply P c frame).log
    unfold Transport.reply
    split
    · unfold handleMessage
      dsimp only
      split
      · exact List.prefix_append _ _
      · split
        · exact List.prefix_append _ _
        · exact List.prefix_append _ _
    · exact List.prefix_rfl

/-- A property that every step keeps is kept as events come in. -/
theorem after_later {I : Transport → Prop} (hstep : ∀ t e, I t → I (t.step P e))
    {events events' : List TransportEvent} (hp : events <+: events') (h : I (after P events)) :
    I (after P events') := by
  obtain ⟨later, rfl⟩ := hp
  rw [after, run_append]
  exact run_inv hstep h later

/-- That a call was given a response is a fact about the log, and the log only grows. -/
theorem Answered.later {events events' : List TransportEvent} (hp : events <+: events') {j : Nat} {op : TransportOp}
    {next : CallState} (h : (after P events).Answered P j op next) : (after P events').Answered P j op next := by
  refine after_later (I := fun t => t.Answered P j op next) ?_ hp h
  rintro t e ⟨round, frame, hmem, hnext⟩
  exact ⟨round, frame, (log_step t e).subset hmem, hnext⟩

/-- That a call lost its connection before its response is a fact about a moment of the run, and stays one. -/
theorem LostConnection.later {events events' : List TransportEvent} (hp : events <+: events') {j : Nat}
    {op : TransportOp} {message : String} (h : LostConnection P events j op message) :
    LostConnection P events' j op message := by
  cases h with
  | refused happened waiting opening => exact .refused (happened.trans hp) waiting opening
  | shut happened since letThrough opened ready gone =>
    exact .shut (happened.trans hp) since letThrough opened ready gone
  | dropped happened sent there unanswered gone => exact .dropped (happened.trans hp) sent there unanswered gone

/-- How a call has come into its state: what it has been given, or that a connection was open for it. -/
def Justified (P : Platform) (events : List TransportEvent) (j : Nat) (op : TransportOp) : CallState → Prop
  | .settled result => Earned P events j op result
  | .solving challengeId challenge => (after P events).Answered P j op (.solving challengeId challenge)
  | .ready round => ∃ earlier, earlier <+: events ∧ (after P earlier).calls[j]? = some ⟨op, .ready round⟩ ∧
    ∃ c, (after P earlier).connState c = some .opened
  | .waiting _ _ => True
  | .sent _ => True

/-- What a call has been justified by, it is still justified by later in the run. -/
theorem Justified.later {events events' : List TransportEvent} (hp : events <+: events') {j : Nat} {op : TransportOp}
    {state : CallState} (h : Justified P events j op state) : Justified P events' j op state := by
  cases state with
  | waiting c round => trivial
  | sent round => trivial
  | ready round =>
    obtain ⟨earlier, hearlier, hcall, hopen⟩ := h
    exact ⟨earlier, hearlier.trans hp, hcall, hopen⟩
  | solving challengeId challenge => exact Answered.later hp h
  | settled result =>
    rcases h with hown | ⟨message, rfl, hlost | hcreate | ⟨challengeId, challenge, hown, hsolve⟩⟩
    · exact .inl (hown.later hp)
    · exact .inr ⟨message, rfl, .inl (hlost.later hp)⟩
    · exact .inr ⟨message, rfl, .inr (.inl hcreate)⟩
    · exact .inr ⟨message, rfl, .inr (.inr ⟨challengeId, challenge, hown.later hp, hsolve⟩)⟩

/-- A response settles its call or leaves it with a challenge, and is what either rests on. -/
theorem Answered.justified {events : List TransportEvent} {j : Nat} {op : TransportOp} {state : CallState}
    (h : (after P events).Answered P j op state) : Justified P events j op state := by
  obtain ⟨round, frame, hmem, hnext⟩ := h
  rcases afterReply_cases P op round frame with ⟨result, heq⟩ | ⟨challengeId, challenge, heq⟩
  · obtain rfl := heq.symm.trans hnext
    exact .inl ⟨round, frame, hmem, heq⟩
  · obtain rfl := heq.symm.trans hnext
    exact ⟨round, frame, hmem, heq⟩

/-- One event more.  The induction over a run adds events at its end. -/
theorem after_concat (events : List TransportEvent) (e : TransportEvent) :
    after P (events ++ [e]) = (after P events).step P e := run_concat _ _ _ _

/-- A call that finds no connection open, although one was when its promise resolved, has lost that one. -/
theorem shut_of_ready {events : List TransportEvent} (ht : (after P events).Inv) {j : Nat} {op : TransportOp}
    {round : Round} (hsince : Justified P events j op (.ready round))
    (hready : (after P events).calls[j]? = some ⟨op, .ready round⟩) (hclosed : (after P events).isOpen = false) :
    LostConnection P (events ++ [.resume j]) j op "relay connection not open" := by
  obtain ⟨earlier, hearlier, hcall, c, hopen⟩ := hsince
  obtain ⟨state, hstate, hpast⟩ := after_later (I := fun t => t.Past c) (fun t e h => h.step e) hearlier
    ⟨.opened, hopen, by decide⟩
  refine .shut List.prefix_rfl hearlier hcall hopen hready ?_
  cases state with
  | connecting => exact absurd rfl hpast
  | opened =>
    have hcurrent := ht.current c (.inr hstate)
    rw [isOpen_iff.mpr ⟨c, hcurrent, hstate⟩] at hclosed
    cases hclosed
  | closing => exact .inl hstate
  | closed => exact .inr hstate

/-- **Every call of a run is where it is for a reason**: by induction on the events, each of them doing to the call
    no more than `Moved` says. -/
theorem justified_of_meets {events : List TransportEvent} (h : Meets (Transport.step P) OneInFlight .new events) :
    ∀ {j : Nat} {op : TransportOp} {state : CallState}, (after P events).calls[j]? = some ⟨op, state⟩ →
      Justified P events j op state := by
  induction events using List.reverseRecOn with
  | nil =>
    intro j op state hj
    cases hj
  | append_singleton events e ih =>
    obtain ⟨hbefore, hone⟩ := (meets_concat _ _ _ _ _).mp h
    have ht : (after P events).Inv := meets_inv (fun _ _ ht hone => ht.step hone) Inv.new hbefore
    intro j op state hj
    rw [after_concat] at hj
    cases moved_step ht hone hj with
    | kept before => exact (ih hbefore before).later (List.prefix_append _ _)
    | waits c round => trivial
    | sent round => trivial
    | letThrough round opened =>
      rw [← after_concat] at hj opened
      exact ⟨events ++ [e], List.prefix_rfl, hj, _, opened⟩
    | answered own =>
      rw [← after_concat] at own
      exact own.justified
    | uncreated bad => exact .inr ⟨_, rfl, .inr (.inl ⟨_, bad, rfl⟩)⟩
    | unsolved asked failed =>
      have hown : (after P events).Answered P j op (.solving _ _) := ih hbefore asked
      exact .inr ⟨_, rfl, .inr (.inr ⟨_, _, hown.later (List.prefix_append _ _), failed⟩)⟩
    | refused event waiting opening =>
      subst event
      exact .inr ⟨_, rfl, .inl (.refused List.prefix_rfl waiting opening)⟩
    | shut event ready closed =>
      subst event
      exact .inr ⟨_, rfl, .inl (shut_of_ready ht (ih hbefore ready) ready closed)⟩
    | dropped event sent there unanswered gone =>
      subst event
      exact .inr ⟨_, rfl, .inl (.dropped List.prefix_rfl sent there unanswered gone)⟩

/-! ## Callers that await -/

/-- The call has not settled. -/
def Unsettled (t : Transport) (j : Nat) : Prop :=
  ∃ call, t.calls[j]? = some call ∧ ∀ result, call.state ≠ .settled result

/-- A call is issued only after all earlier ones have settled: what the transport asks of its callers.
    A connection that ends is the current one. -/
def Awaited (t : Transport) : TransportEvent → Prop
  | .issue _ => ∀ j, ¬ t.Unsettled j
  | .ended c _ => t.connState c ≠ none → t.connState c ≠ some .closed → t.ws = some c
  | _ => True

/-- A call that has not settled moves on: nothing else is unsettled. -/
theorem unsettled_setState {t : Transport} {j k : Nat} {state : CallState}
    (hj : (∃ result, state = .settled result) ∨ t.Unsettled j)
    (hk : (t.setState j state).Unsettled k) : t.Unsettled k := by
  obtain ⟨call, hcall, hstate⟩ := hk
  rcases getElem?_setState.mp hcall with ⟨rfl, old, -, rfl⟩ | ⟨-, hold⟩
  · rcases hj with ⟨result, rfl⟩ | hj
    · exact absurd rfl (hstate result)
    · exact hj
  · exact ⟨call, hold, hstate⟩

/-- A call that settles does so for good: `ensureConnected` for one call unsettles no other. -/
theorem unsettled_ensureConnected {t : Transport} {j k : Nat} {round : Round}
    (hj : t.Unsettled j) (hk : (t.ensureConnected P j round).Unsettled k) : t.Unsettled k := by
  unfold Transport.ensureConnected at hk
  split at hk
  · exact unsettled_setState (.inr hj) hk
  · split at hk
    · exact unsettled_setState (.inr hj) hk
    · split at hk
      · exact unsettled_setState (.inr hj) hk
      · exact unsettled_setState (t := t.connect) (.inr hj) hk

/-- Nor do the calls that wait for a connection when its promise settles. -/
theorem unsettled_settleWaiting {t t' : Transport} {c k : Nat} {next : Round → CallState}
    (hcalls : t'.calls = t.calls.map (settleWaiting c next)) (hk : t'.Unsettled k) :
    t.Unsettled k := by
  obtain ⟨call, hcall, hstate⟩ := hk
  rw [hcalls, List.getElem?_map] at hcall
  obtain ⟨old, hold, rfl⟩ := Option.map_eq_some_iff.mp hcall
  refine ⟨old, hold, ?_⟩
  intro result hsettled
  refine hstate result ?_
  unfold settleWaiting
  rw [hsettled]
  exact hsettled

theorem unsettled_rejectPending {t : Transport} {k : Nat} {message : String}
    (hk : (t.rejectPending message).Unsettled k) : t.Unsettled k := by
  unfold rejectPending at hk
  split at hk
  · exact hk
  · exact unsettled_setState (.inl ⟨_, rfl⟩) hk

/-- Nothing but a new call becomes unsettled. -/
theorem unsettled_step {t : Transport} {e : TransportEvent} {k : Nat}
    (hk : (t.step P e).Unsettled k) :
    t.Unsettled k ∨ ∃ op, e = .issue op ∧ k = t.calls.length := by
  cases e with
  | issue op =>
    have hnew : Unsettled { t with calls := t.calls ++ [⟨op, .ready op.firstRound⟩] }
        t.calls.length :=
      ⟨_, getElem?_concat_eq_some.mpr (.inr ⟨rfl, rfl⟩), nofun⟩
    obtain ⟨call, hcall, hstate⟩ := unsettled_ensureConnected hnew hk
    rcases getElem?_concat_eq_some.mp hcall with hold | ⟨rfl, -⟩
    · exact .inl ⟨call, hold, hstate⟩
    · exact .inr ⟨op, rfl, rfl⟩
  | resume j =>
    left
    have hk' : (t.resume j).Unsettled k := hk
    unfold Transport.resume at hk'
    split at hk'
    · rename_i op round hcall
      have hj : t.Unsettled j := ⟨_, hcall, nofun⟩
      split at hk'
      · exact unsettled_setState (.inr hj) hk'
      · split at hk'
        · exact unsettled_setState (t := t.transmit _ _) (.inr hj) hk'
        · exact unsettled_setState (.inr hj) hk'
    · exact hk'
  | solved j =>
    left
    have hk' : (t.solved P j).Unsettled k := hk
    unfold Transport.solved at hk'
    split at hk'
    · rename_i op challengeId challenge hcall
      have hj : t.Unsettled j := ⟨_, hcall, nofun⟩
      split at hk'
      · exact unsettled_setState (.inr hj) hk'
      · exact unsettled_ensureConnected hj hk'
    · exact hk'
  | opened c =>
    left
    have hk' : (t.opened c).Unsettled k := hk
    unfold Transport.opened at hk'
    split at hk'
    · exact unsettled_settleWaiting rfl hk'
    · exact hk'
  | closing c =>
    left
    have hk' : (if t.connState c = some .opened then t.setConn c .closing else t).Unsettled k := hk
    split at hk'
    · exact hk'
    · exact hk'
  | ended c failed =>
    left
    have hk' : (t.ended c failed).Unsettled k := hk
    unfold Transport.ended at hk'
    split at hk'
    · exact hk'
    · exact hk'
    · have hrejected := unsettled_rejectPending hk'
      obtain ⟨call, hcall, hstate⟩ := hrejected
      dsimp only at hcall
      split at hcall
      · have hrefused : Unsettled { t with calls := t.calls.map (refuse c) } k :=
          ⟨call, hcall, hstate⟩
        exact unsettled_settleWaiting rfl hrefused
      · exact ⟨call, hcall, hstate⟩
  | reply c frame =>
    left
    have hk' : (t.reply P c frame).Unsettled k := hk
    unfold Transport.reply at hk'
    split at hk'
    · unfold handleMessage at hk'
      dsimp only at hk'
      split at hk'
      · exact hk'
      · split at hk'
        · rename_i op round hcall
          obtain ⟨call, hcall', hstate⟩ := unsettled_setState (.inr ⟨_, hcall, nofun⟩) hk'
          exact ⟨call, hcall', hstate⟩
        · exact hk'
    · exact hk'

/-- At most one call is unsettled. -/
structure Solo (P : Platform) (t : Transport) : Prop where
  inv : t.Inv
  unique : ∀ i j, t.Unsettled i → t.Unsettled j → i = j

/-- A call about to send is the only one under way, so no response is outstanding. -/
theorem Solo.oneInFlight {t : Transport} (ht : t.Solo P) {e : TransportEvent} (he : t.Awaited e) :
    t.OneInFlight e := by
  cases e with
  | resume j =>
    intro hsends
    cases hpending : t.pending with
    | none => rfl
    | some i =>
      obtain ⟨op, round, hsent⟩ := (ht.inv.sent i).mp hpending
      unfold sends at hsends
      split at hsends
      · rename_i op' round' hready
        obtain rfl := ht.unique i j ⟨_, hsent, nofun⟩ ⟨_, hready, nofun⟩
        obtain ⟨-, hbad⟩ := Call.mk.inj (Option.some.inj (hsent.symm.trans hready))
        cases hbad
      · cases hsends
  | ended c failed => exact he
  | issue op => trivial
  | solved j => trivial
  | opened c => trivial
  | closing c => trivial
  | reply c frame => trivial

/-- If a call is issued only when all earlier ones have settled, there is never more than one that has not. -/
theorem Solo.step {t : Transport} (ht : t.Solo P) {e : TransportEvent} (he : t.Awaited e) :
    (t.step P e).Solo P := by
  -- a call is issued only when there is none, so the new one is the only one
  refine ⟨ht.inv.step (ht.oneInFlight he), ?_⟩
  intro i j hi hj
  rcases unsettled_step hi with hold | ⟨op, rfl, rfl⟩
  · rcases unsettled_step hj with hold' | ⟨op, rfl, -⟩
    · exact ht.unique i j hold hold'
    · exact absurd hold (he i)
  · rcases unsettled_step hj with hold' | ⟨-, -, rfl⟩
    · exact absurd hold' (he j)
    · rfl

/-- **Awaiting is enough** for one request in flight. -/
theorem awaited_oneInFlight {events : List TransportEvent}
    (h : Meets (Transport.step P) Awaited .new events) :
    Meets (Transport.step P) OneInFlight .new events := by
  have hnew : Transport.new.Solo P := by
    refine ⟨.new, ?_⟩
    rintro i j ⟨call, hcall, -⟩
    cases hcall
  exact h.imp (fun t e ht he => ⟨ht.step he, ht.oneInFlight he⟩) hnew

end Transport

/-! ## The runs -/

/-- **One request in flight is enough.**  In every run in which frames are sent only while none is in
    flight and only the current connection ends, no response goes to another call than the one whose frame it
    answers, and every call settles: with the response to its own request, or with an error when it could not get
    one — then it has lost its connection, none could be made, or its challenge was not solved. -/
theorem one_in_flight_correct (P : Platform) (events : List TransportEvent)
    (h : Meets (Transport.step P) Transport.OneInFlight .new events) : Transport.Correct P events := by
  have hinv : (Transport.after P events).Inv :=
    meets_inv (fun _ _ ht hone => ht.step hone) Transport.Inv.new h
  exact ⟨hinv.own, hinv.settles, fun j op result hj => Transport.justified_of_meets h hj⟩

/-- Nothing but pickups: the challenge solver is never asked. -/
def atobPlatform : Platform := ⟨none, b64Decode, fun _ => .error "no challenge"⟩

/-- The relay's answer to a pickup. -/
def envelopeReply (envelope : String) : ReplyFrame :=
  .object ⟨some true, none, none, none, none, some envelope⟩

/-- Two pickups one after the other, with a new connection for the second. -/
def awaitedPickups : List TransportEvent :=
  [.issue (.pickupEnvelope "a"), .opened 0, .resume 0, .reply 0 (envelopeReply "QQ=="), .closing 0,
    .ended 0 false, .issue (.pickupEnvelope "b"), .opened 1, .resume 1,
    .reply 1 (envelopeReply "Qg==")]

/-- Two pickups, the second on a new connection after the first was lost: each is given its own envelope. -/
theorem awaited_pickups_correct :
    Transport.Correct atobPlatform awaitedPickups ∧
      (run (Transport.step atobPlatform) .new awaitedPickups).calls =
        [⟨.pickupEnvelope "a", .settled (.ok (some [65]))⟩,
          ⟨.pickupEnvelope "b", .settled (.ok (some [66]))⟩] := by
  constructor
  · apply one_in_flight_correct
    decide +kernel
  · decide +kernel

/-- Two pickups at once. -/
def overlappingPickups : List TransportEvent :=
  [.issue (.pickupEnvelope "a"), .issue (.pickupEnvelope "b"), .opened 0, .resume 0, .resume 1,
    .reply 0 (envelopeReply "QQ=="), .reply 0 (envelopeReply "Qg==")]

/-- Awaited pickups; the first connection ends while the second one is in use. -/
def lateClosePickups : List TransportEvent :=
  [.issue (.pickupEnvelope "a"), .opened 0, .resume 0, .reply 0 (envelopeReply "QQ=="), .closing 0,
    .issue (.pickupEnvelope "b"), .opened 1, .resume 1, .ended 0 false,
    .issue (.pickupEnvelope "c"), .resume 2, .reply 1 (envelopeReply "Qg==")]

/-- **Calls cross.**  With two pickups at once, the second one gets the first one's envelope, its own
    is lost, and the first one is left waiting for a response although nothing is under way.  With a
    late close, an awaited pickup gets the envelope of the one before it. -/
theorem overlapping_calls_cross :
    (run (Transport.step atobPlatform) .new overlappingPickups).calls =
      [⟨.pickupEnvelope "a", .sent (.main "" "")⟩,
        ⟨.pickupEnvelope "b", .settled (.ok (some [65]))⟩] ∧
    (run (Transport.step atobPlatform) .new overlappingPickups).Quiescent ∧
    ¬ Transport.Correct atobPlatform overlappingPickups ∧
    (run (Transport.step atobPlatform) .new lateClosePickups).calls =
      [⟨.pickupEnvelope "a", .settled (.ok (some [65]))⟩,
        ⟨.pickupEnvelope "b", .settled (.error "relay connection closed")⟩,
        ⟨.pickupEnvelope "c", .settled (.ok (some [66]))⟩] ∧
    ¬ Transport.Correct atobPlatform lateClosePickups := by
  have hcalls : (run (Transport.step atobPlatform) .new overlappingPickups).calls =
      [⟨.pickupEnvelope "a", .sent (.main "" "")⟩,
        ⟨.pickupEnvelope "b", .settled (.ok (some [65]))⟩] := by decide +kernel
  refine ⟨hcalls, ⟨by decide +kernel, ?_⟩, ?_, by decide +kernel, ?_⟩
  · intro call hcall
    rw [hcalls] at hcall
    rcases List.mem_pair.mp hcall with rfl | rfl
    · exact ⟨nofun, nofun⟩
    · exact ⟨nofun, nofun⟩
  · intro h
    have hcross : ⟨some 1, ⟨0, .main "" "", .pickupEnvelope "a"⟩, envelopeReply "QQ=="⟩ ∈
        (run (Transport.step atobPlatform) .new overlappingPickups).log := by decide +kernel
    exact absurd (h.own _ hcross) (by decide)
  · intro h
    have hcross : ⟨some 2, ⟨1, .main "" "", .pickupEnvelope "b"⟩, envelopeReply "Qg=="⟩ ∈
        (run (Transport.step atobPlatform) .new lateClosePickups).log := by decide +kernel
    exact absurd (h.own _ hcross) (by decide)

end E2EMessaging.Web
