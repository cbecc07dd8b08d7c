/-
  THE TWO RECEIVE LOOPS (`pollOnce` and the effects around it in `clients/web/src/Conversation.tsx` and
  `clients/web/src/GroupConversation.tsx`).

  An effect polls the relay for the local user, every five seconds and once at its start, for as long as its
  dependencies stay; when they change it is cleaned up and run anew.  A poll has two awaits: the WASM module,
  and the pickup.  `cancelled` is read once, before both, so a poll that has begun goes on under the next run,
  or after the component is gone.  What the runs share are refs: `pollInFlightRef`, the seen envelopes, the
  session.  The relay hands out an envelope once, so a poll that loses one loses a message.  (An envelope is
  known by `Buffer.from(envelope).toString`: that the page has a `Buffer` is assumed.)

  The list on the screen is not the loop's alone.  `send` appends to it as well; and the end of the history load
  and `createGroup` REPLACE it, with all that the loop has appended.

  The loops differ in one thing (`ReceiveComponent.pins`): `Conversation` keeps the first session it finds,
  `GroupConversation` takes the current group and identity at every poll.

  * `envelopes_decrypted_once`: over all runs of the effect, at most one poll is under way; the envelopes
    decrypted are those picked up, each once, in the order in which they came; what the loop appends is what
    decrypted while the component was there, and the warning is up if and only if the last of these did not.
  * `one_stray_pickup`: after the recipient has changed, or the component has gone, at most one pickup more
    asks for anybody else; it comes first, and is that of the poll that was under way at the change.
  * `one_message_lost`: every message that decrypts is appended, but for at most one, the last, of a component that
    is gone; and what is on the screen stays there until the list is replaced.
-/
import E2EMessaging.Lib.Register
import E2EMessaging.Web.RecordText

namespace E2EMessaging.Web.Polling

open E2EMessaging.Lib

variable {H σ : Type}

/-! ## State -/

/-- One of the two components. -/
structure ReceiveComponent (H σ : Type) where
  /-- The first handle is kept in `receiverSessionRef`. -/
  pins : Bool
  /-- `decrypt_message`, `group_decrypt`: the handle changes as it decrypts. -/
  decrypt : H → Bytes → σ → σ × Option Bytes

/-- `Conversation`, with `decrypt_message`. -/
def conversation (decryptMessage : H → Bytes → σ → σ × Option Bytes) : ReceiveComponent H σ :=
  ⟨true, decryptMessage⟩

/-- `GroupConversation`, with `group_decrypt`.  The handle is the group and the identity. -/
def groupConversation {G I : Type} (groupDecrypt : G → I → Bytes → σ → σ × Option Bytes) :
    ReceiveComponent (G × I) σ :=
  ⟨false, fun h => groupDecrypt h.1 h.2⟩

/-- A message on the screen, but for its id and its time, which nothing here reads. -/
structure Message where
  body : JsString
  sentByMe : Bool
  deriving Repr, DecidableEq

/-- The body of a message of somebody else. -/
def Message.received (m : Message) : Option JsString := if m.sentByMe then none else some m.body

/-- A run of the effect. -/
structure EffectRun where
  recipientId : String
  cancelled : Bool
  /-- The interval has not been cleared. -/
  timer : Bool
  deriving Repr, DecidableEq

/-- What a poll awaits. -/
inductive Stage (H : Type) where
  /-- `ensureWasmInit`. -/
  | initializing
  /-- `pickupEnvelope`.  The handle was there before. -/
  | pickingUp (handle : H)
  deriving Repr, DecidableEq

/-- A `pollOnce` that has passed its guards.  Polls are numbered as they begin; nothing reads the number. -/
structure Poll (H : Type) where
  number : Nat
  recipientId : String
  stage : Stage H
  deriving Repr, DecidableEq

/-- A `pickupEnvelope` that has been sent: by which poll, for whom, and with which handle in hand. -/
structure Pickup (H : Type) where
  poll : Nat
  recipientId : String
  handle : H
  deriving Repr, DecidableEq

/-- A call of `decrypt`, and what it returned; `none`, if it threw. -/
structure Decryption (H : Type) where
  handle : H
  envelope : Bytes
  plaintext : Option Bytes
  mounted : Bool
  deriving Repr, DecidableEq

/-- A component with its loop, and a record of what the loop has done. -/
structure State (H σ : Type) where
  runs : List EffectRun
  polls : List (Poll H)
  pollInFlight : Bool
  /-- `receiverSessionPropRef`, or `groupRef` and `selfIdentityRef`. -/
  latest : Option H
  /-- `receiverSessionRef`. -/
  receiverSession : Option H
  seenEnvelopes : List Bytes
  wasm : σ
  messages : List Message
  decryptionWarning : Bool
  mounted : Bool
  /-- How many polls have begun. -/
  begun : Nat
  requests : List (Pickup H)
  /-- The envelopes picked up. -/
  received : List Bytes
  decryptions : List (Decryption H)
  /-- The bodies the loop has appended to `messages`. -/
  appended : List JsString
  deriving Repr, DecidableEq

/-- What can happen. -/
inductive Act (H : Type) where
  /-- The dependencies of the effect have changed: there is a recipient now, or there is none. -/
  | effect (recipientId : Option String)
  /-- The interval of a run fires. -/
  | tick (run : Nat)
  /-- The refs are given the handle of this render. -/
  | render (latest : Option H)
  /-- `ensureWasmInit` settles. -/
  | ready (poll : Nat) (ok : Bool)
  /-- `pickupEnvelope` settles.  `NotFound` and `Expired` are like other errors, but for the log. -/
  | settle (poll : Nat) (envelope : Option Bytes)
  /-- `setMessages(stored)`, `setMessages(persistedMsgs)`: the history has been loaded; `setMessages([])`: a group
      is made. -/
  | replace (messages : List Message)
  /-- `send` has sent a message, and appends it. -/
  | sent (body : JsString)
  | unmount
  deriving Repr, DecidableEq

namespace State

/-- The first render, before the effects. -/
def mount (wasm : σ) : State H σ where
  runs := []
  polls := []
  pollInFlight := false
  latest := none
  receiverSession := none
  seenEnvelopes := []
  wasm := wasm
  messages := []
  decryptionWarning := false
  mounted := true
  begun := 0
  requests := []
  received := []
  decryptions := []
  appended := []

/-! ## Steps -/

/-- The clean-up of the effect.  (The runs before the last have had theirs.) -/
def cleanup (s : State H σ) : State H σ :=
  { s with runs := s.runs.map fun r => { r with cancelled := true, timer := false } }

/-- `pollOnce`, up to its first await. -/
def pollOnce (s : State H σ) (r : EffectRun) : State H σ :=
  if r.cancelled = true ∨ s.pollInFlight = true then s
  else
    { s with
      polls := s.polls ++ [⟨s.begun, r.recipientId, .initializing⟩]
      pollInFlight := true
      begun := s.begun + 1 }

/-- A new run: the interval, and one poll at once. -/
def start (s : State H σ) (recipientId : String) : State H σ :=
  pollOnce { s with runs := s.runs ++ [⟨recipientId, false, true⟩] } ⟨recipientId, false, true⟩

/-- The end of a poll: `finally`. -/
def finish (s : State H σ) (i : Nat) : State H σ :=
  { s with polls := s.polls.eraseIdx i, pollInFlight := false }

/-- The handle a poll goes on with. -/
def handle (C : ReceiveComponent H σ) (s : State H σ) : Option H :=
  if C.pins then s.receiverSession.or s.latest else s.latest

/-- After `ensureWasmInit`: a pickup, if there is a handle. -/
def request (C : ReceiveComponent H σ) (s : State H σ) (i number : Nat) (recipientId : String) : State H σ :=
  match s.handle C with
  | none => s.finish i
  | some h =>
    { s with
      receiverSession := if C.pins then some h else s.receiverSession
      polls := s.polls.set i ⟨number, recipientId, .pickingUp h⟩
      requests := s.requests ++ [⟨number, recipientId, h⟩] }

/-- `setMessages` and `setDecryptionWarning`.  On a component that is gone they do nothing. -/
def report (s : State H σ) (plaintext : Option Bytes) : State H σ :=
  if s.mounted then
    match plaintext with
    | none => { s with decryptionWarning := true }
    | some p =>
      { s with
        decryptionWarning := false
        messages := s.messages ++ [⟨textDecode p, false⟩]
        appended := s.appended ++ [textDecode p] }
  else s

/-- What is done with an envelope: nothing, if it has been seen. -/
def collect (C : ReceiveComponent H σ) (s : State H σ) (h : H) (envelope : Bytes) : State H σ :=
  if s.seenEnvelopes.contains envelope then { s with received := s.received ++ [envelope] }
  else
    report
      { s with
        received := s.received ++ [envelope]
        seenEnvelopes := s.seenEnvelopes ++ [envelope]
        wasm := (C.decrypt h envelope s.wasm).1
        decryptions := s.decryptions ++ [⟨h, envelope, (C.decrypt h envelope s.wasm).2, s.mounted⟩] }
      (C.decrypt h envelope s.wasm).2

/-- The handle `decrypt` is called with: `receiverSessionRef.current`, or what the poll has captured. -/
def decryptHandle (C : ReceiveComponent H σ) (s : State H σ) (captured : H) : H :=
  if C.pins then s.receiverSession.getD captured else captured

/-- The effect runs again: the last run is cleaned up, and there is another if there is a recipient. -/
def effect (s : State H σ) (recipientId : Option String) : State H σ :=
  match s.mounted, recipientId with
  | false, _ => s
  | true, none => s.cleanup
  | true, some id => s.cleanup.start id

/-- The interval of a run fires, if it has not been cleared. -/
def tick (s : State H σ) (k : Nat) : State H σ :=
  match s.runs[k]? with
  | none => s
  | some r => if r.timer then s.pollOnce r else s

/-- `ensureWasmInit` settles. -/
def ready (C : ReceiveComponent H σ) (s : State H σ) (i : Nat) (ok : Bool) : State H σ :=
  match s.polls[i]? with
  | some ⟨number, recipientId, .initializing⟩ => if ok then s.request C i number recipientId else s.finish i
  | _ => s

/-- `pickupEnvelope` settles. -/
def settle (C : ReceiveComponent H σ) (s : State H σ) (i : Nat) (envelope : Option Bytes) : State H σ :=
  match s.polls[i]? with
  | some ⟨_, _, .pickingUp h⟩ =>
    match envelope with
    | none => s.finish i
    | some e => (s.collect C (s.decryptHandle C h) e).finish i
  | _ => s

/-- One step.  What does not apply changes nothing. -/
def step (C : ReceiveComponent H σ) (s : State H σ) : Act H → State H σ
  | .effect recipientId => s.effect recipientId
  | .tick k => s.tick k
  | .render latest => if s.mounted then { s with latest := latest } else s
  | .ready i ok => s.ready C i ok
  | .settle i envelope => s.settle C i envelope
  | .replace messages => if s.mounted then { s with messages := messages } else s
  | .sent body => if s.mounted then { s with messages := s.messages ++ [⟨body, true⟩] } else s
  | .unmount => { s.cleanup with mounted := false }

end State

/-! ## What should hold -/

/-- Decrypting in sequence: the state at the end, and what each call returns. -/
def decryptAll (C : ReceiveComponent H σ) : σ → List (H × Bytes) → σ × List (Option Bytes)
  | w, [] => (w, [])
  | w, (h, e) :: rest =>
    ((decryptAll C (C.decrypt h e w).1 rest).1, (C.decrypt h e w).2 :: (decryptAll C (C.decrypt h e w).1 rest).2)

/-- One call more: the calls before it leave the state it works on, and its answer comes last.  This is how a run of
    the loop extends the list, so every induction below goes by it. -/
theorem decryptAll_concat (C : ReceiveComponent H σ) (w : σ) (calls : List (H × Bytes)) (h : H) (e : Bytes) :
    decryptAll C w (calls ++ [(h, e)]) =
      ((C.decrypt h e (decryptAll C w calls).1).1,
        (decryptAll C w calls).2 ++ [(C.decrypt h e (decryptAll C w calls).1).2]) := by
  induction calls generalizing w with
  | nil => rfl
  | cons c calls ih =>
    rw [List.cons_append, decryptAll, decryptAll, ih]
    rfl

/-- The call. -/
def Decryption.call (d : Decryption H) : H × Bytes := (d.handle, d.envelope)

/-- The body it leads to. -/
def Decryption.message (d : Decryption H) : Option JsString :=
  if d.mounted then d.plaintext.map textDecode else none

/-- What it does to the warning. -/
def Decryption.warning (d : Decryption H) : Option Bool :=
  if d.mounted then some d.plaintext.isNone else none

/-- What is asked of a component with its loop. -/
structure Faithful (C : ReceiveComponent H σ) (w : σ) (s : State H σ) : Prop where
  /-- At most one poll is under way, and the flag says whether one is. -/
  single : s.polls.length = if s.pollInFlight then 1 else 0
  /-- Each envelope is decrypted once, in the order in which they came. -/
  once : s.decryptions.map Decryption.envelope = s.received.eraseDups
  /-- One after the other, on one state. -/
  sequential : decryptAll C w (s.decryptions.map Decryption.call) = (s.wasm, s.decryptions.map Decryption.plaintext)
  /-- What is appended is what decrypted. -/
  appended : s.appended = s.decryptions.filterMap Decryption.message
  /-- The warning is about the last of them. -/
  warning : s.decryptionWarning = (lastOf Decryption.warning s.decryptions).getD false
  /-- The handle was in hand when the pickup was sent. -/
  handles : ∀ d ∈ s.decryptions, d.handle ∈ s.requests.map Pickup.handle
  /-- A component that pins its handle never uses a second. -/
  pinned : C.pins = true → ∀ r ∈ s.requests, s.receiverSession = some r.handle

/-- The invariant: what is asked, with what the refs hold. -/
structure Inv (C : ReceiveComponent H σ) (w : σ) (s : State H σ) : Prop extends Faithful C w s where
  seen : s.seenEnvelopes = s.received.eraseDups
  picking : ∀ p ∈ s.polls, ∀ h, p.stage = .pickingUp h →
    h ∈ s.requests.map Pickup.handle ∧ (C.pins = true → s.receiverSession = some h)
  numbered : ∀ p ∈ s.polls, p.number < s.begun

/-- One element more, without repetitions. -/
theorem eraseDups_concat (l : List Bytes) (e : Bytes) :
    (l ++ [e]).eraseDups = if e ∈ l.eraseDups then l.eraseDups else l.eraseDups ++ [e] := by
  rw [List.eraseDups_append]
  by_cases h : e ∈ l
  · rw [if_pos (List.mem_eraseDups.mpr h)]
    simp [List.removeAll, h]
  · rw [if_neg (mt List.mem_eraseDups.mp h)]
    simp [List.removeAll, h, List.eraseDups_cons]

/-- No envelope is left twice.  (The list keeps the first of each, which is the one the loop decrypted.) -/
theorem nodup_eraseDups (l : List Bytes) : l.eraseDups.Nodup := by
  induction l using List.reverseRecOn with
  | nil => exact List.nodup_nil
  | append_singleton l e ih =>
    rw [eraseDups_concat]
    split
    · exact ih
    · rename_i hnew
      refine List.nodup_append.mpr ⟨ih, List.nodup_singleton e, ?_⟩
      rintro a ha b hb rfl
      exact hnew (List.mem_singleton.mp hb ▸ ha)

/-! ## The invariant, step by step -/

section Steps

variable {C : ReceiveComponent H σ} {w : σ} {s : State H σ}

/-- A component just mounted has picked up nothing and decrypted nothing, and no poll is under way. -/
theorem Inv.mount (C : ReceiveComponent H σ) (w : σ) : Inv C w (.mount w) := by
  refine ⟨⟨rfl, rfl, rfl, rfl, rfl, ?_, ?_⟩, rfl, ?_, ?_⟩
  · intro d hd
    cases hd
  · intro _ r hr
    cases hr
  · intro p hp
    cases hp
  · intro p hp
    cases hp

/-- Only the runs, the handle of the render, the list on the screen or `mounted` have changed: none of them is
    part of what the loop has done. -/
theorem Inv.frame (hs : Inv C w s) (runs : List EffectRun) (latest : Option H) (messages : List Message)
    (mounted : Bool) : Inv C w { s with runs := runs, latest := latest, messages := messages, mounted := mounted } :=
  ⟨⟨hs.single, hs.once, hs.sequential, hs.appended, hs.warning, hs.handles, hs.pinned⟩, hs.seen, hs.picking,
    hs.numbered⟩

/-- A poll that passes the guard is the only one: it sets `pollInFlight`, and nothing else changes. -/
theorem Inv.pollOnce (hs : Inv C w s) (r : EffectRun) : Inv C w (s.pollOnce r) := by
  unfold State.pollOnce
  split
  · exact hs
  · rename_i hguard
    have hidle : s.polls.length = 0 := by
      have hflag : s.pollInFlight ≠ true := fun h => hguard (.inr h)
      rw [hs.single, if_neg hflag]
    refine ⟨⟨?_, hs.once, hs.sequential, hs.appended, hs.warning, hs.handles, hs.pinned⟩, hs.seen, ?_, ?_⟩
    · show (s.polls ++ [_]).length = 1
      rw [List.length_append, hidle]
      rfl
    · intro p hp h hstage
      rcases List.mem_append.mp hp with hold | hnew
      · exact hs.picking p hold h hstage
      · rw [List.mem_singleton.mp hnew] at hstage
        cases hstage
    · intro p hp
      rcases List.mem_append.mp hp with hold | hnew
      · exact Nat.lt_succ_of_lt (hs.numbered p hold)
      · rw [List.mem_singleton.mp hnew]
        exact Nat.lt_succ_self s.begun

/-- The only poll has ended. -/
theorem Inv.finish (hs : Inv C w s) {i : Nat} {p : Poll H} (hi : s.polls[i]? = some p) : Inv C w (s.finish i) := by
  have hlt := (List.getElem?_eq_some_iff.mp hi).1
  refine ⟨⟨?_, hs.once, hs.sequential, hs.appended, hs.warning, hs.handles, hs.pinned⟩, hs.seen, ?_, ?_⟩
  · show (s.polls.eraseIdx i).length = 0
    have hsingle := hs.single
    rw [List.length_eraseIdx_of_lt hlt]
    split at hsingle <;> omega
  · intro q hq
    exact hs.picking q (List.mem_of_mem_eraseIdx hq)
  · intro q hq
    exact hs.numbered q (List.mem_of_mem_eraseIdx hq)

/-- A poll that goes on from the WASM module either sends its pickup, with the handle it has found, or is over.  It
    stays the only one. -/
theorem Inv.request (hs : Inv C w s) {i : Nat} {p : Poll H} (hi : s.polls[i]? = some p) (recipientId : String) :
    Inv C w (s.request C i p.number recipientId) := by
  unfold State.request
  split
  · exact hs.finish hi
  · rename_i h hh
    -- a handle that is pinned already is the one that is taken
    have hkeep : C.pins = true → ∀ h', s.receiverSession = some h' → h' = h := by
      intro hpins h' hh'
      rw [State.handle, if_pos hpins, hh'] at hh
      exact Option.some.inj hh
    refine ⟨⟨?_, hs.once, hs.sequential, hs.appended, hs.warning, ?_, ?_⟩, hs.seen, ?_, ?_⟩
    · show (s.polls.set i _).length = _
      rw [List.length_set]
      exact hs.single
    · intro d hd
      show d.handle ∈ (s.requests ++ [_]).map Pickup.handle
      rw [List.map_append]
      exact List.mem_append_left _ (hs.handles d hd)
    · intro hpins r hr
      show (if C.pins = true then some h else s.receiverSession) = some r.handle
      rw [if_pos hpins]
      rcases List.mem_append.mp hr with hold | hnew
      · rw [hkeep hpins r.handle (hs.pinned hpins r hold)]
      · rw [List.mem_singleton.mp hnew]
    · intro q hq h' hstage
      show h' ∈ (s.requests ++ [_]).map Pickup.handle ∧
        (C.pins = true → (if C.pins = true then some h else s.receiverSession) = some h')
      rw [List.map_append]
      rcases List.mem_or_eq_of_mem_set hq with hold | rfl
      · obtain ⟨hmem, hpinned⟩ := hs.picking q hold h' hstage
        refine ⟨List.mem_append_left _ hmem, ?_⟩
        intro hpins
        rw [if_pos hpins, hkeep hpins h' (hpinned hpins)]
      · cases hstage
        refine ⟨List.mem_append_right _ (List.mem_singleton.mpr rfl), ?_⟩
        intro hpins
        rw [if_pos hpins]
    · intro q hq
      rcases List.mem_or_eq_of_mem_set hq with hold | rfl
      · exact hs.numbered q hold
      · exact hs.numbered p (List.mem_of_getElem? hi)

/-- What `report` changes, read off the decryption it is about: a message that was decrypted while the component was
    there is appended, and decides about the warning. -/
theorem report_eq (s : State H σ) {d : Decryption H} (hmounted : d.mounted = s.mounted) :
    s.report d.plaintext = { s with
      messages := (s.report d.plaintext).messages
      decryptionWarning := d.warning.getD s.decryptionWarning
      appended := s.appended ++ d.message.toList } := by
  rw [Decryption.warning, Decryption.message, hmounted]
  unfold State.report
  split
  · cases d.plaintext with
    | none =>
      show _ = { s with decryptionWarning := true, appended := s.appended ++ [] }
      rw [List.append_nil]
    | some p => rfl
  · show s = { s with appended := s.appended ++ [] }
    rw [List.append_nil]

/-- A new envelope is decrypted, and what comes of it is reported: each record grows by this one decryption. -/
theorem Inv.report {d : Decryption H} (hs : Inv C w s) (hnew : d.envelope ∉ s.seenEnvelopes)
    (hhandle : d.handle ∈ s.requests.map Pickup.handle)
    (hplain : d.plaintext = (C.decrypt d.handle d.envelope s.wasm).2) (hmounted : d.mounted = s.mounted) :
    Inv C w (State.report
      { s with
        received := s.received ++ [d.envelope]
        seenEnvelopes := s.seenEnvelopes ++ [d.envelope]
        wasm := (C.decrypt d.handle d.envelope s.wasm).1
        decryptions := s.decryptions ++ [d] } d.plaintext) := by
  have hreceived : (s.received ++ [d.envelope]).eraseDups = s.seenEnvelopes ++ [d.envelope] := by
    rw [eraseDups_concat, ← hs.seen, if_neg hnew]
  have honce : (s.decryptions ++ [d]).map Decryption.envelope = (s.received ++ [d.envelope]).eraseDups := by
    rw [hreceived, List.map_append, hs.once, ← hs.seen]
    rfl
  have hsequential : decryptAll C w ((s.decryptions ++ [d]).map Decryption.call) =
      ((C.decrypt d.handle d.envelope s.wasm).1, (s.decryptions ++ [d]).map Decryption.plaintext) := by
    rw [List.map_append, List.map_append]
    show decryptAll C w (_ ++ [(d.handle, d.envelope)]) = (_, _ ++ [d.plaintext])
    rw [decryptAll_concat, hs.sequential, hplain]
  have happended : s.appended ++ d.message.toList = (s.decryptions ++ [d]).filterMap Decryption.message := by
    rw [List.filterMap_append, ← hs.appended]
    rfl
  have hwarning : d.warning.getD s.decryptionWarning =
      (lastOf Decryption.warning (s.decryptions ++ [d])).getD false := by
    rw [lastOf_concat, hs.warning, Option.getD_or]
  have hhandles : ∀ d' ∈ s.decryptions ++ [d], d'.handle ∈ s.requests.map Pickup.handle := by
    intro d' hd'
    rcases List.mem_append.mp hd' with hold | hlast
    · exact hs.handles d' hold
    · rw [List.mem_singleton.mp hlast]
      exact hhandle
  rw [report_eq]
  · exact ⟨⟨hs.single, honce, hsequential, happended, hwarning, hhandles, hs.pinned⟩, hreceived.symm, hs.picking,
      hs.numbered⟩
  · exact hmounted

/-- An envelope that has come is decrypted if it is new, and is on record either way.  The handle is one with which a
    pickup was sent. -/
theorem Inv.collect (hs : Inv C w s) {h : H} (hh : h ∈ s.requests.map Pickup.handle) (e : Bytes) :
    Inv C w (s.collect C h e) := by
  unfold State.collect
  split
  · rename_i hseen
    have hreceived : (s.received ++ [e]).eraseDups = s.received.eraseDups := by
      rw [eraseDups_concat, ← hs.seen, if_pos (List.contains_iff_mem.mp hseen)]
    exact ⟨⟨hs.single, hs.once.trans hreceived.symm, hs.sequential, hs.appended, hs.warning, hs.handles, hs.pinned⟩,
      hs.seen.trans hreceived.symm, hs.picking, hs.numbered⟩
  · rename_i hnew
    exact hs.report (d := ⟨h, e, _, _⟩) (mt List.contains_iff_mem.mpr hnew) hh rfl rfl

/-- The poll decrypts with the handle it has captured: a pinned one has not changed. -/
theorem Inv.decryptHandle (hs : Inv C w s) {p : Poll H} (hp : p ∈ s.polls) {h : H} (hstage : p.stage = .pickingUp h) :
    s.decryptHandle C h = h := by
  unfold State.decryptHandle
  split
  · rename_i hpins
    rw [(hs.picking p hp h hstage).2 hpins]
    rfl
  · rfl

/-- What is shown of a decryption does not touch the polls. -/
theorem polls_report (s : State H σ) (plaintext : Option Bytes) : (s.report plaintext).polls = s.polls := by
  unfold State.report
  split
  · split <;> rfl
  · rfl

/-- Nor does the decryption itself, so the poll under way can be ended before or after. -/
theorem polls_collect (s : State H σ) (h : H) (e : Bytes) : (s.collect C h e).polls = s.polls := by
  unfold State.collect
  split
  · rfl
  · rw [polls_report]

/-- **One step.** -/
theorem Inv.step (hs : Inv C w s) (a : Act H) : Inv C w (s.step C a) := by
  cases a with
  | effect recipientId =>
    show Inv C w (s.effect recipientId)
    unfold State.effect
    split
    · exact hs
    · exact hs.frame _ s.latest s.messages s.mounted
    · exact Inv.pollOnce (hs.frame _ s.latest s.messages s.mounted) _
  | tick k =>
    show Inv C w (s.tick k)
    unfold State.tick
    split
    · exact hs
    · split
      · exact hs.pollOnce _
      · exact hs
  | render latest =>
    show Inv C w (if s.mounted = true then _ else s)
    split
    · exact hs.frame s.runs latest s.messages s.mounted
    · exact hs
  | ready i ok =>
    show Inv C w (s.ready C i ok)
    unfold State.ready
    split
    · rename_i number recipientId hi
      split
      · exact hs.request hi recipientId
      · exact hs.finish hi
    · exact hs
  | settle i envelope =>
    show Inv C w (s.settle C i envelope)
    unfold State.settle
    split
    · rename_i number recipientId h hi
      have hmem := List.mem_of_getElem? hi
      split
      · exact hs.finish hi
      · rename_i e
        rw [hs.decryptHandle hmem rfl]
        apply Inv.finish (hs.collect (hs.picking _ hmem h rfl).1 e)
        rw [polls_collect]
        exact hi
    · exact hs
  | replace messages =>
    show Inv C w (if s.mounted = true then _ else s)
    split
    · exact hs.frame s.runs s.latest messages s.mounted
    · exact hs
  | sent body =>
    show Inv C w (if s.mounted = true then _ else s)
    split
    · exact hs.frame s.runs s.latest (s.messages ++ [⟨body, true⟩]) s.mounted
    · exact hs
  | unmount => exact hs.frame _ s.latest s.messages false

end Steps

/-! ## The runs -/

/-- The recipient from here on, after a change: `some none`, if there is none any more. -/
def Act.switchesTo : Act H → Option (Option String)
  | .effect recipientId => some recipientId
  | .unmount => some none
  | _ => none

/-- What may become of the polls and the record while the effect stays. -/
inductive Change (s s' : State H σ) : Prop where
  | quiet (polls : s'.polls = s.polls) (flag : s'.pollInFlight = s.pollInFlight) (begun : s'.begun = s.begun)
    (requests : s'.requests = s.requests) (decryptions : s'.decryptions = s.decryptions)
  /-- A run with an interval begins a poll. -/
  | begins (r : EffectRun) (mem : r ∈ s.runs) (timer : r.timer = true) (idle : ¬ s.pollInFlight = true)
    (polls : s'.polls = [⟨s.begun, r.recipientId, .initializing⟩]) (begun : s'.begun = s.begun + 1)
    (requests : s'.requests = s.requests) (decryptions : s'.decryptions = s.decryptions)
  /-- The poll asks the relay. -/
  | asks (number : Nat) (recipientId : String) (h : H) (mem : ⟨number, recipientId, .initializing⟩ ∈ s.polls)
    (polls : s'.polls = [⟨number, recipientId, .pickingUp h⟩]) (begun : s'.begun = s.begun)
    (requests : s'.requests = s.requests ++ [⟨number, recipientId, h⟩]) (decryptions : s'.decryptions = s.decryptions)
  /-- The poll ends; it may have decrypted an envelope. -/
  | ends (busy : s.polls ≠ []) (polls : s'.polls = []) (begun : s'.begun = s.begun)
    (requests : s'.requests = s.requests)
    (decryptions : s'.decryptions = s.decryptions ∨
      ∃ d : Decryption H, d.mounted = s.mounted ∧ s'.decryptions = s.decryptions ++ [d])

section Changes

variable {C : ReceiveComponent H σ} {w : σ} {s : State H σ}

/-- Without a poll under way, there is none at all. -/
theorem Inv.polls_eq_nil (hs : Inv C w s) (hidle : ¬ s.pollInFlight = true) : s.polls = [] := by
  apply List.eq_nil_of_length_eq_zero
  rw [hs.single, if_neg hidle]

/-- There is but one poll. -/
theorem Inv.polls_eq (hs : Inv C w s) {i : Nat} {p : Poll H} (hi : s.polls[i]? = some p) :
    i = 0 ∧ s.polls = [p] := by
  have hlt := (List.getElem?_eq_some_iff.mp hi).1
  have hsingle := hs.single
  have hlength : s.polls.length = 1 := by
    split at hsingle <;> omega
  obtain ⟨q, hq⟩ := List.length_eq_one_iff.mp hlength
  obtain rfl : i = 0 := by omega
  rw [hq] at hi ⊢
  obtain rfl := Option.some.inj hi
  exact ⟨rfl, rfl⟩

/-- The interval of a run whose timer is there begins a poll for the recipient of that run.  It is new, so it is
    numbered from `begun` on. -/
theorem Inv.change_pollOnce (hs : Inv C w s) {r : EffectRun} (hmem : r ∈ s.runs) (htimer : r.timer = true) :
    Change s (s.pollOnce r) := by
  unfold State.pollOnce
  split
  · exact .quiet rfl rfl rfl rfl rfl
  · rename_i hguard
    refine .begins r hmem htimer (fun h => hguard (.inr h)) ?_ rfl rfl rfl
    show s.polls ++ [_] = _
    rw [hs.polls_eq_nil fun h => hguard (.inr h)]
    rfl

/-- A poll that ends was the only one: none is left. -/
theorem Inv.change_finish (hs : Inv C w s) {i : Nat} {p : Poll H} (hi : s.polls[i]? = some p) :
    Change s (s.finish i) := by
  obtain ⟨rfl, hpolls⟩ := hs.polls_eq hi
  refine .ends ?_ ?_ rfl rfl (.inl rfl)
  · rw [hpolls]
    exact List.cons_ne_nil _ _
  · show s.polls.eraseIdx 0 = []
    rw [hpolls]
    rfl

/-- A poll that sends its pickup asks for its own recipient and keeps its number; one without a handle ends. -/
theorem Inv.change_request (hs : Inv C w s) {i number : Nat} {recipientId : String}
    (hi : s.polls[i]? = some ⟨number, recipientId, .initializing⟩) :
    Change s (s.request C i number recipientId) := by
  obtain ⟨rfl, hpolls⟩ := hs.polls_eq hi
  unfold State.request
  split
  · exact hs.change_finish hi
  · rename_i h _
    refine .asks number recipientId h (List.mem_of_getElem? hi) ?_ rfl rfl rfl
    show s.polls.set 0 _ = _
    rw [hpolls]
    rfl

/-- A poll that begins asks for nothing yet, and decrypts nothing. -/
theorem pollOnce_frame (s : State H σ) (r : EffectRun) :
    (s.pollOnce r).runs = s.runs ∧ (s.pollOnce r).mounted = s.mounted ∧
      (s.pollOnce r).requests = s.requests ∧ (s.pollOnce r).decryptions = s.decryptions := by
  unfold State.pollOnce
  split <;> exact ⟨rfl, rfl, rfl, rfl⟩

/-- Sending the pickup leaves the runs of the effect alone. -/
theorem request_frame (s : State H σ) (i number : Nat) (recipientId : String) :
    (s.request C i number recipientId).runs = s.runs ∧ (s.request C i number recipientId).mounted = s.mounted := by
  unfold State.request
  split <;> exact ⟨rfl, rfl⟩

/-- Showing a message, or the warning, leaves the runs of the effect and the records of its polls alone. -/
theorem report_frame (s : State H σ) (plaintext : Option Bytes) :
    (s.report plaintext).runs = s.runs ∧ (s.report plaintext).mounted = s.mounted ∧
      (s.report plaintext).begun = s.begun ∧ (s.report plaintext).requests = s.requests ∧
      (s.report plaintext).decryptions = s.decryptions := by
  unfold State.report
  split
  · split <;> exact ⟨rfl, rfl, rfl, rfl, rfl⟩
  · exact ⟨rfl, rfl, rfl, rfl, rfl⟩

/-- An envelope adds one decryption at most, made while the component was as it is now; the runs and the requests stay
    as they were. -/
theorem collect_frame (s : State H σ) (h : H) (e : Bytes) :
    (s.collect C h e).runs = s.runs ∧ (s.collect C h e).mounted = s.mounted ∧
      (s.collect C h e).begun = s.begun ∧ (s.collect C h e).requests = s.requests ∧
      ((s.collect C h e).decryptions = s.decryptions ∨
        ∃ d : Decryption H, d.mounted = s.mounted ∧ (s.collect C h e).decryptions = s.decryptions ++ [d]) := by
  unfold State.collect
  split
  · exact ⟨rfl, rfl, rfl, rfl, .inl rfl⟩
  · obtain ⟨hruns, hmounted, hbegun, hrequests, hdecryptions⟩ := report_frame
      { s with
        received := s.received ++ [e]
        seenEnvelopes := s.seenEnvelopes ++ [e]
        wasm := (C.decrypt h e s.wasm).1
        decryptions := s.decryptions ++ [⟨h, e, (C.decrypt h e s.wasm).2, s.mounted⟩] } (C.decrypt h e s.wasm).2
    exact ⟨hruns, hmounted, hbegun, hrequests,
      .inr ⟨⟨h, e, (C.decrypt h e s.wasm).2, s.mounted⟩, rfl, hdecryptions⟩⟩

/-- While the effect stays, so do its runs. -/
theorem Inv.change_step (hs : Inv C w s) {a : Act H} (ha : a.switchesTo = none) :
    (s.step C a).runs = s.runs ∧ (s.step C a).mounted = s.mounted ∧ Change s (s.step C a) := by
  have hquiet : s.runs = s.runs ∧ s.mounted = s.mounted ∧ Change s s := ⟨rfl, rfl, .quiet rfl rfl rfl rfl rfl⟩
  cases a with
  | effect recipientId => cases ha
  | tick k =>
    show (s.tick k).runs = _ ∧ (s.tick k).mounted = _ ∧ Change s (s.tick k)
    unfold State.tick
    split
    · exact hquiet
    · rename_i r hr
      split
      · rename_i htimer
        obtain ⟨hruns, hmounted, -, -⟩ := pollOnce_frame s r
        exact ⟨hruns, hmounted, hs.change_pollOnce (List.mem_of_getElem? hr) htimer⟩
      · exact hquiet
  | render latest =>
    show (if s.mounted = true then _ else s).runs = _ ∧ (if s.mounted = true then _ else s).mounted = _ ∧
      Change s (if s.mounted = true then _ else s)
    split
    · exact ⟨rfl, rfl, .quiet rfl rfl rfl rfl rfl⟩
    · exact hquiet
  | ready i ok =>
    show (s.ready C i ok).runs = _ ∧ (s.ready C i ok).mounted = _ ∧ Change s (s.ready C i ok)
    unfold State.ready
    split
    · rename_i number recipientId hi
      split
      · obtain ⟨hruns, hmounted⟩ := request_frame (C := C) s i number recipientId
        exact ⟨hruns, hmounted, hs.change_request hi⟩
      · exact ⟨rfl, rfl, hs.change_finish hi⟩
    · exact hquiet
  | settle i envelope =>
    show (s.settle C i envelope).runs = _ ∧ (s.settle C i envelope).mounted = _ ∧ Change s (s.settle C i envelope)
    unfold State.settle
    split
    · rename_i number recipientId h hi
      obtain ⟨rfl, hpolls⟩ := hs.polls_eq hi
      split
      · exact ⟨rfl, rfl, hs.change_finish hi⟩
      · rename_i e
        obtain ⟨hruns, hmounted, hbegun, hrequests, hdecryptions⟩ :=
          collect_frame (C := C) s (s.decryptHandle C h) e
        refine ⟨hruns, hmounted, .ends ?_ ?_ hbegun hrequests hdecryptions⟩
        · rw [hpolls]
          exact List.cons_ne_nil _ _
        · show (s.collect C (s.decryptHandle C h) e).polls.eraseIdx 0 = []
          rw [polls_collect, hpolls]
          rfl
    · exact hquiet
  | replace messages =>
    show (if s.mounted = true then _ else s).runs = _ ∧ (if s.mounted = true then _ else s).mounted = _ ∧
      Change s (if s.mounted = true then _ else s)
    split
    · exact ⟨rfl, rfl, .quiet rfl rfl rfl rfl rfl⟩
    · exact hquiet
  | sent body =>
    show (if s.mounted = true then _ else s).runs = _ ∧ (if s.mounted = true then _ else s).mounted = _ ∧
      Change s (if s.mounted = true then _ else s)
    split
    · exact ⟨rfl, rfl, .quiet rfl rfl rfl rfl rfl⟩
    · exact hquiet
  | unmount => cases ha

end Changes

/-! ## What a change of the recipient leaves behind -/

namespace State

/-- No interval fires for anybody else. -/
def Live (target : Option String) (s : State H σ) : Prop :=
  ∀ r ∈ s.runs, r.timer = true → some r.recipientId = target

/-- The pickups since the change, which found the component as `u`: none yet, while its poll is under way; or at most
    one, which that poll has sent, and then those of polls begun since, for the recipient. -/
def Stray (target : Option String) (s u : State H σ) : Prop :=
  u.begun ≤ s.begun ∧
    ((s.requests = u.requests ∧ s.pollInFlight = true ∧ s.polls = u.polls) ∨
      ∃ stray own, s.requests = u.requests ++ stray ++ own ∧ stray.length ≤ 1 ∧
        (∀ r ∈ stray, ⟨r.poll, r.recipientId, .initializing⟩ ∈ u.polls) ∧
        (∀ r ∈ own, some r.recipientId = target ∧ u.begun ≤ r.poll) ∧
        ∀ p ∈ s.polls, p.stage = .initializing → some p.recipientId = target ∧ u.begun ≤ p.number)

/-- The messages not shown: there is one at most, the component is gone, and so is the poll. -/
def Lost (s : State H σ) : Prop :=
  (s.mounted = true ∨ s.Live none) ∧
    ((∀ d ∈ s.decryptions, d.mounted = true) ∨
      s.polls = [] ∧ s.mounted = false ∧ ∃ shown d, s.decryptions = shown ++ [d] ∧
        (∀ d' ∈ shown, d'.mounted = true) ∧ ¬ d.mounted = true)

end State

section Switch

variable {C : ReceiveComponent H σ} {w : σ} {s s' u : State H σ} {target : Option String}

/-- A poll goes on, or ends; another is begun for the recipient. -/
theorem State.Stray.change (hstray : s.Stray target u) (hlive : s.Live target)
    (hchange : Change s s') : s'.Stray target u := by
  obtain ⟨hbegun, hstray⟩ := hstray
  cases hchange with
  | quiet hpolls hflag hsame hrequests _ =>
    unfold State.Stray
    rw [hpolls, hflag, hsame, hrequests]
    exact ⟨hbegun, hstray⟩
  | begins r hmem htimer hidle hpolls hnext hrequests _ =>
    -- no poll is under way, so none that could stray is left
    obtain ⟨stray, own, hsplit, hone, hbefore, hown, -⟩ := hstray.resolve_left fun h => hidle h.2.1
    refine ⟨hnext ▸ Nat.le_succ_of_le hbegun, .inr ⟨stray, own, hrequests.trans hsplit, hone, hbefore, hown, ?_⟩⟩
    intro p hp _
    rw [hpolls] at hp
    rw [List.mem_singleton.mp hp]
    exact ⟨hlive r hmem htimer, hbegun⟩
  | asks number recipientId h hmem hpolls hsame hrequests _ =>
    have hpicking : ∀ p ∈ s'.polls, p.stage = .initializing → some p.recipientId = target ∧ u.begun ≤ p.number := by
      intro p hp hstage
      rw [hpolls] at hp
      rw [List.mem_singleton.mp hp] at hstage
      cases hstage
    refine ⟨hsame ▸ hbegun, .inr ?_⟩
    rcases hstray with ⟨hsent, -, hbefore⟩ | ⟨stray, own, hsplit, hone, hbefore, hown, hinitializing⟩
    · -- the poll of before asks: this is the one that strays
      refine ⟨[⟨number, recipientId, h⟩], [], ?_, Nat.le_refl 1, ?_, nofun, hpicking⟩
      · rw [hrequests, hsent, List.append_nil]
      · intro r hr
        rw [List.mem_singleton.mp hr, ← hbefore]
        exact hmem
    · refine ⟨stray, own ++ [⟨number, recipientId, h⟩], ?_, hone, hbefore, ?_, hpicking⟩
      · rw [hrequests, hsplit, List.append_assoc _ own]
      · intro r hr
        rcases List.mem_append.mp hr with hold | hnew
        · exact hown r hold
        · rw [List.mem_singleton.mp hnew]
          exact hinitializing _ hmem rfl
  | ends hbusy hpolls hsame hrequests _ =>
    have hnone : ∀ p ∈ s'.polls, p.stage = .initializing → some p.recipientId = target ∧ u.begun ≤ p.number := by
      intro p hp
      rw [hpolls] at hp
      cases hp
    refine ⟨hsame ▸ hbegun, .inr ?_⟩
    rcases hstray with ⟨hsent, -, -⟩ | ⟨stray, own, hsplit, hone, hbefore, hown, -⟩
    · refine ⟨[], [], ?_, Nat.zero_le 1, nofun, nofun, hnone⟩
      rw [hrequests, hsent, List.append_nil, List.append_nil]
    · exact ⟨stray, own, hrequests.trans hsplit, hone, hbefore, hown, hnone⟩

/-- A component that is gone begins no poll, and the one under way may end with a message. -/
theorem State.Lost.change (hlost : s.Lost) (hruns : s'.runs = s.runs) (hmounted : s'.mounted = s.mounted)
    (hchange : Change s s') : s'.Lost := by
  have hlive : s'.mounted = true ∨ s'.Live none := by
    unfold State.Live
    rw [hmounted, hruns]
    exact hlost.1
  refine ⟨hlive, ?_⟩
  cases hchange with
  | quiet hpolls _ _ _ hdecryptions =>
    rw [hpolls, hmounted, hdecryptions]
    exact hlost.2
  | begins r hmem htimer _ hpolls _ _ hdecryptions =>
    rw [hdecryptions]
    rcases hlost with ⟨hm | hgone, hall | ⟨-, hnot, -⟩⟩
    · exact .inl hall
    · rw [hm] at hnot
      cases hnot
    all_goals exact absurd (hgone r hmem htimer) (Option.some_ne_none _)
  | asks _ _ _ hmem _ _ _ hdecryptions =>
    rw [hdecryptions]
    rcases hlost.2 with hall | ⟨hpolls, -, -⟩
    · exact .inl hall
    · rw [hpolls] at hmem
      cases hmem
  | ends hbusy hpolls _ _ hdecryptions =>
    have hall : ∀ d ∈ s.decryptions, d.mounted = true := by
      rcases hlost.2 with hall | ⟨hnone, -, -⟩
      · exact hall
      · exact absurd hnone hbusy
    rcases hdecryptions with hsame | ⟨d, hd, hnew⟩
    · rw [hsame]
      exact .inl hall
    · rw [hnew]
      by_cases hm : s.mounted = true
      · refine .inl ?_
        intro d' hd'
        rcases List.mem_append.mp hd' with hold | hlast
        · exact hall d' hold
        · rw [List.mem_singleton.mp hlast, hd, hm]
      · refine .inr ⟨hpolls, ?_, s.decryptions, d, rfl, hall, hd ▸ hm⟩
        rw [hmounted]
        exact Bool.not_eq_true _ ▸ hm

/-- After the clean-up no interval is left, so none fires for anybody: whatever the recipient will be. -/
theorem live_cleanup (s : State H σ) (target : Option String) : s.cleanup.Live target := by
  intro r hr htimer
  obtain ⟨r₀, -, rfl⟩ := List.mem_map.mp hr
  cases htimer

/-- **Every step keeps** that one message is lost at most. -/
theorem State.Lost.step (hs : Inv C w s) (hlost : s.Lost) (a : Act H) : (s.step C a).Lost := by
  rcases Option.eq_none_or_eq_some a.switchesTo with ha | ⟨target, ha⟩
  · obtain ⟨hruns, hmounted, hchange⟩ := hs.change_step ha
    exact hlost.change hruns hmounted hchange
  · cases a with
    | effect recipientId =>
      show (s.effect recipientId).Lost
      unfold State.effect
      split
      · exact hlost
      · exact ⟨.inr (live_cleanup s none), hlost.2⟩
      · rename_i id hm
        obtain ⟨-, hmounted, -, hdecryptions⟩ := pollOnce_frame
          { s.cleanup with runs := s.cleanup.runs ++ [⟨id, false, true⟩] } ⟨id, false, true⟩
        refine ⟨.inl (hmounted.trans hm), .inl ?_⟩
        rcases hlost.2 with hall | ⟨-, hnot, -⟩
        · exact hdecryptions.symm ▸ hall
        · rw [hm] at hnot
          cases hnot
    | unmount =>
      refine ⟨.inr (live_cleanup s none), ?_⟩
      rcases hlost.2 with hall | ⟨hpolls, -, hsplit⟩
      · exact .inl hall
      · exact .inr ⟨hpolls, rfl, hsplit⟩
    | tick k => cases ha
    | render latest => cases ha
    | ready i ok => cases ha
    | settle i envelope => cases ha
    | replace messages => cases ha
    | sent body => cases ha

/-- The change itself: the poll of before is under way, or there is none, and the recipient's first is begun. -/
theorem Inv.switch (hs : Inv C w s) (hlost : s.Lost) {a : Act H} (ha : a.switchesTo = some target) :
    (s.step C a).Live target ∧ (s.step C a).Stray target s := by
  have hleft : ∀ s' : State H σ, s'.requests = s.requests → s'.polls = s.polls →
      s'.pollInFlight = s.pollInFlight → s'.begun = s.begun → s'.Stray target s := by
    intro s' hrequests hpolls hflag hbegun
    refine ⟨Nat.le_of_eq hbegun.symm, ?_⟩
    by_cases hbusy : s.pollInFlight = true
    · exact .inl ⟨hrequests, hflag.trans hbusy, hpolls⟩
    · refine .inr ⟨[], [], ?_, Nat.zero_le 1, nofun, nofun, ?_⟩
      · rw [hrequests, List.append_nil, List.append_nil]
      · rw [hpolls, hs.polls_eq_nil hbusy]
        exact nofun
  cases a with
  | effect recipientId =>
    obtain rfl : recipientId = target := Option.some.inj ha
    show (s.effect recipientId).Live recipientId ∧ (s.effect recipientId).Stray recipientId s
    unfold State.effect
    split
    · rename_i hm
      refine ⟨?_, hleft s rfl rfl rfl rfl⟩
      rcases hlost.1 with hmounted | hgone
      · rw [hm] at hmounted
        cases hmounted
      · intro r hr htimer
        exact absurd (hgone r hr htimer) (Option.some_ne_none _)
    · exact ⟨live_cleanup s none, hleft s.cleanup rfl rfl rfl rfl⟩
    · rename_i id hm
      obtain ⟨hruns, -, hrequests, -⟩ := pollOnce_frame
        { s.cleanup with runs := s.cleanup.runs ++ [⟨id, false, true⟩] } ⟨id, false, true⟩
      constructor
      · intro r hr htimer
        rw [show (s.cleanup.start id).runs = s.cleanup.runs ++ [⟨id, false, true⟩] from hruns] at hr
        rcases List.mem_append.mp hr with hold | hnew
        · exact live_cleanup s (some id) r hold htimer
        · rw [List.mem_singleton.mp hnew]
      · by_cases hbusy : s.pollInFlight = true
        · -- the guard of `pollOnce` lets nothing begin
          have hsame : s.cleanup.start id = { s.cleanup with runs := s.cleanup.runs ++ [⟨id, false, true⟩] } :=
            if_pos (.inr hbusy)
          rw [hsame]
          exact hleft _ rfl rfl rfl rfl
        · have hbegun : s.cleanup.start id = { s.cleanup with
              runs := s.cleanup.runs ++ [⟨id, false, true⟩]
              polls := s.polls ++ [⟨s.begun, id, .initializing⟩]
              pollInFlight := true
              begun := s.begun + 1 } :=
            if_neg fun h => hbusy (h.resolve_left Bool.false_ne_true)
          rw [hbegun]
          refine ⟨Nat.le_succ s.begun, .inr ⟨[], [], ?_, Nat.zero_le 1, nofun, nofun, ?_⟩⟩
          · rw [List.append_nil, List.append_nil]
            rfl
          · intro p hp _
            have hp : p ∈ s.polls ++ [⟨s.begun, id, .initializing⟩] := hp
            rw [hs.polls_eq_nil hbusy] at hp
            rw [List.mem_singleton.mp hp]
            exact ⟨rfl, Nat.le_refl s.begun⟩
  | unmount =>
    obtain rfl : none = target := Option.some.inj ha
    exact ⟨live_cleanup s none, hleft { s.cleanup with mounted := false } rfl rfl rfl rfl⟩
  | tick k => cases ha
  | render latest => cases ha
  | ready i ok => cases ha
  | settle i envelope => cases ha
  | replace messages => cases ha
  | sent body => cases ha

end Switch

/-- The two invariants of every run. -/
theorem run_lost (C : ReceiveComponent H σ) (w : σ) (acts : List (Act H)) :
    Inv C w (run (State.step C) (.mount w) acts) ∧ (run (State.step C) (.mount w) acts).Lost := by
  apply run_inv (I := fun s => Inv C w s ∧ s.Lost)
  · exact fun _ a h => ⟨h.1.step a, h.2.step h.1 a⟩
  · exact ⟨Inv.mount C w, .inl rfl, .inl nofun⟩

/-- **One pickup may stray.**  From a change of the recipient to the next one, in any run, at most one pickup is
    sent for anybody else: by the poll that was under way at the change and had not asked yet, for whomever that
    poll is.  All that follow are of polls begun since, and for the recipient; if there is none any more, because
    the identity or the component is gone, none follow. -/
theorem one_stray_pickup (C : ReceiveComponent H σ) (w : σ) (before after : List (Act H)) (a : Act H)
    (target : Option String) (ha : a.switchesTo = some target) (hafter : ∀ a ∈ after, a.switchesTo = none) :
    ∃ stray own, (run (State.step C) (.mount w) (before ++ a :: after)).requests =
        (run (State.step C) (.mount w) before).requests ++ stray ++ own ∧
      stray.length ≤ 1 ∧
      (∀ r ∈ stray, ⟨r.poll, r.recipientId, .initializing⟩ ∈ (run (State.step C) (.mount w) before).polls ∧
        r.poll < (run (State.step C) (.mount w) before).begun) ∧
      ∀ r ∈ own, some r.recipientId = target ∧ (run (State.step C) (.mount w) before).begun ≤ r.poll := by
  obtain ⟨hs, hlost⟩ := run_lost C w before
  obtain ⟨hlive, hstray⟩ := hs.switch hlost ha
  rw [run_append, run_cons]
  have hrun : ∀ acts : List (Act H), (∀ a ∈ acts, a.switchesTo = none) → ∀ s : State H σ, Inv C w s →
      s.Live target → s.Stray target (run (State.step C) (.mount w) before) →
      (run (State.step C) s acts).Stray target (run (State.step C) (.mount w) before) := by
    intro acts
    induction acts with
    | nil => exact fun _ _ _ _ h => h
    | cons b acts ih =>
      intro hacts s hs hlive hstray
      obtain ⟨hruns, -, hchange⟩ := hs.change_step (hacts b (List.mem_cons_self ..))
      apply ih (fun b' hb' => hacts b' (List.mem_cons_of_mem _ hb')) _ (hs.step b)
      · unfold State.Live
        rw [hruns]
        exact hlive
      · exact hstray.change hlive hchange
  obtain ⟨-, ⟨hsent, -, -⟩ | ⟨stray, own, hsplit, hone, hbefore, hown, -⟩⟩ :=
    hrun after hafter _ (hs.step a) hlive hstray
  · refine ⟨[], [], ?_, Nat.zero_le 1, nofun, nofun⟩
    rw [hsent, List.append_nil, List.append_nil]
  · exact ⟨stray, own, hsplit, hone, fun r hr => ⟨hbefore r hr, hs.numbered _ (hbefore r hr)⟩, hown⟩

/-- The identity changes when the second poll for the first has begun, and has not asked. -/
def switchActs : List (Act Nat) :=
  [.effect (some "alice"), .render (some 0), .ready 0 true, .settle 0 none, .tick 0]

/-- A poll that was about to ask still asks, for the identity before; the next asks for the new one. -/
theorem one_stray_pickup_alice : ∃ stray own,
    (run (State.step (conversation fun _ e w => (w, some e))) (.mount ())
      (switchActs ++ .effect (some "bob") :: [.ready 0 true, .settle 0 none, .tick 1, .ready 0 true])).requests =
      (run (State.step (conversation fun _ e w => (w, some e))) (.mount ()) switchActs).requests ++ stray ++ own ∧
    stray.length ≤ 1 ∧
    (∀ r ∈ stray, ⟨r.poll, r.recipientId, .initializing⟩ ∈ [(⟨1, "alice", .initializing⟩ : Poll Nat)] ∧ r.poll < 2) ∧
    ∀ r ∈ own, some r.recipientId = some "bob" ∧ 2 ≤ r.poll := by
  apply one_stray_pickup (conversation fun _ e w => (w, some e)) () switchActs _ _ _ rfl
  decide

example : (run (State.step (conversation fun _ e w => (w, some e))) (.mount ())
    (switchActs ++ .effect (some "bob") :: [.ready 0 true, .settle 0 none, .tick 1, .ready 0 true])).requests =
      [⟨0, "alice", 0⟩, ⟨1, "alice", 0⟩, ⟨2, "bob", 0⟩] := by
  decide

/-! ## What is on the screen -/

/-- The history has been loaded, or a group is made. -/
def Act.replaces : Act H → Bool
  | .replace _ => true
  | _ => false

/-- Messages have been added to the list, and those of others are what the loop has appended. -/
def Grows (s s' : State H σ) : Prop :=
  ∃ added, s'.messages = s.messages ++ added ∧ s'.appended = s.appended ++ added.filterMap Message.received

/-- What touches neither the list nor the record of what was appended to it keeps them together. -/
theorem Grows.of_eq {s s' : State H σ} (hmessages : s'.messages = s.messages) (happended : s'.appended = s.appended) :
    Grows s s' := by
  refine ⟨[], ?_, ?_⟩
  · rw [hmessages, List.append_nil]
  · rw [happended, List.filterMap_nil, List.append_nil]

/-- Growth adds up: what was added first stands before what was added later, in the list and in the record. -/
theorem Grows.trans {s t u : State H σ} (h : Grows s t) (h' : Grows t u) : Grows s u := by
  obtain ⟨added, hmessages, happended⟩ := h
  obtain ⟨added', hmessages', happended'⟩ := h'
  refine ⟨added ++ added', ?_, ?_⟩
  · rw [hmessages', hmessages, List.append_assoc]
  · rw [happended', happended, List.filterMap_append, List.append_assoc]

section Screen

variable {C : ReceiveComponent H σ}

theorem grows_pollOnce (s : State H σ) (r : EffectRun) : Grows s (s.pollOnce r) := by
  unfold State.pollOnce
  split
  · exact .of_eq rfl rfl
  · exact .of_eq rfl rfl

/-- Nor does one that sends its pickup, or gives up without a handle. -/
theorem grows_request (s : State H σ) (i number : Nat) (recipientId : String) :
    Grows s (s.request C i number recipientId) := by
  unfold State.request
  split
  · exact .of_eq rfl rfl
  · exact .of_eq rfl rfl

/-- A message of somebody else is put on the screen, and noted. -/
theorem grows_report (s : State H σ) (plaintext : Option Bytes) : Grows s (s.report plaintext) := by
  unfold State.report
  split
  · split
    · exact .of_eq rfl rfl
    · exact ⟨[⟨_, false⟩], rfl, rfl⟩
  · exact .of_eq rfl rfl

/-- An envelope appends one message at most; it is somebody else's, and is recorded as appended.  On a component that
    is gone, nothing is appended and nothing recorded. -/
theorem grows_collect (s : State H σ) (h : H) (e : Bytes) : Grows s (s.collect C h e) := by
  unfold State.collect
  split
  · exact .of_eq rfl rfl
  · exact grows_report
      { s with
        received := s.received ++ [e]
        seenEnvelopes := s.seenEnvelopes ++ [e]
        wasm := (C.decrypt h e s.wasm).1
        decryptions := s.decryptions ++ [⟨h, e, (C.decrypt h e s.wasm).2, s.mounted⟩] } _

/-- **One step.**  Unless it replaces the list, it only adds to it. -/
theorem grows_step (s : State H σ) {a : Act H} (ha : a.replaces = false) : Grows s (s.step C a) := by
  cases a with
  | effect recipientId =>
    show Grows s (s.effect recipientId)
    unfold State.effect
    split
    · exact .of_eq rfl rfl
    · exact .of_eq rfl rfl
    · exact grows_pollOnce { s.cleanup with runs := s.cleanup.runs ++ [_] } _
  | tick k =>
    show Grows s (s.tick k)
    unfold State.tick
    split
    · exact .of_eq rfl rfl
    · split
      · exact grows_pollOnce s _
      · exact .of_eq rfl rfl
  | render latest =>
    show Grows s (if s.mounted = true then _ else s)
    split
    · exact .of_eq rfl rfl
    · exact .of_eq rfl rfl
  | ready i ok =>
    show Grows s (s.ready C i ok)
    unfold State.ready
    split
    · split
      · exact grows_request s i _ _
      · exact .of_eq rfl rfl
    · exact .of_eq rfl rfl
  | settle i envelope =>
    show Grows s (s.settle C i envelope)
    unfold State.settle
    split
    · split
      · exact .of_eq rfl rfl
      · exact (grows_collect s _ _).trans (.of_eq rfl rfl)
    · exact .of_eq rfl rfl
  | replace messages => cases ha
  | sent body =>
    show Grows s (if s.mounted = true then _ else s)
    split
    · exact ⟨[⟨body, true⟩], rfl, (List.append_nil _).symm⟩
    · exact .of_eq rfl rfl
  | unmount => exact .of_eq rfl rfl

/-- A stretch of a run in which the list is not replaced. -/
theorem grows_run (s : State H σ) {acts : List (Act H)} (hacts : ∀ a ∈ acts, a.replaces = false) :
    Grows s (run (State.step C) s acts) := by
  induction acts generalizing s with
  | nil => exact .of_eq rfl rfl
  | cons a acts ih =>
    have hrest : ∀ b ∈ acts, b.replaces = false := fun b hb => hacts b (List.mem_cons_of_mem _ hb)
    exact (grows_step s (hacts a List.mem_cons_self)).trans (ih _ hrest)

end Screen

/-- What decrypts while the component is there is appended. -/
theorem appended_of_mounted {ds : List (Decryption H)} (h : ∀ d ∈ ds, d.mounted = true) :
    ds.filterMap Decryption.message = ds.filterMap fun d => d.plaintext.map textDecode := by
  apply List.filterMap_congr
  intro d hd
  exact if_pos (h d hd)

/-- What decrypts is appended, but for at most the last message of a component that is gone. -/
theorem Inv.appended_or_lost {C : ReceiveComponent H σ} {w : σ} {s : State H σ} (hs : Inv C w s) (hlost : s.Lost) :
    ∃ lost, s.decryptions.filterMap (fun d => d.plaintext.map textDecode) = s.appended ++ lost ∧
      lost.length ≤ 1 ∧ (lost ≠ [] → s.mounted = false) := by
  rw [hs.appended]
  rcases hlost.2 with hall | ⟨-, hgone, shown, d, hsplit, hall, hd⟩
  · refine ⟨[], ?_, Nat.zero_le 1, fun h => absurd rfl h⟩
    rw [List.append_nil, appended_of_mounted hall]
  · have hnone : d.message = none := if_neg hd
    refine ⟨[d].filterMap fun d => d.plaintext.map textDecode, ?_, List.length_filterMap_le _ [d], fun _ => hgone⟩
    rw [hsplit, List.filterMap_append, List.filterMap_append, appended_of_mounted hall,
      List.filterMap_cons_none hnone, List.filterMap_nil, List.append_nil]

/-- **One message may be lost**, but for those a replacement takes away.  In every run, the messages that decrypt are
    those the loop has appended and at most one more, the last, and that only if the component is gone.  And over
    any stretch of it in which the list on the screen is not replaced, that list only grows: what others have sent
    among the messages added is what the loop has appended meanwhile, in this order, and the others are the
    user's own. -/
theorem one_message_lost (C : ReceiveComponent H σ) (w : σ) (before after : List (Act H))
    (hafter : ∀ a ∈ after, a.replaces = false) :
    ∃ added lost, (run (State.step C) (.mount w) (before ++ after)).messages =
        (run (State.step C) (.mount w) before).messages ++ added ∧
      (run (State.step C) (.mount w) (before ++ after)).appended =
        (run (State.step C) (.mount w) before).appended ++ added.filterMap Message.received ∧
      (run (State.step C) (.mount w) (before ++ after)).decryptions.filterMap (fun d => d.plaintext.map textDecode) =
        (run (State.step C) (.mount w) (before ++ after)).appended ++ lost ∧
      lost.length ≤ 1 ∧ (lost ≠ [] → (run (State.step C) (.mount w) (before ++ after)).mounted = false) := by
  obtain ⟨hs, hlost⟩ := run_lost C w (before ++ after)
  obtain ⟨lost, hdecrypted, hone, hgone⟩ := hs.appended_or_lost hlost
  have hgrows := grows_run (C := C) (run (State.step C) (.mount w) before) hafter
  rw [← run_append] at hgrows
  obtain ⟨added, hmessages, happended⟩ := hgrows
  exact ⟨added, lost, hmessages, happended, hdecrypted, hone, hgone⟩

/-- The loop of a group whose calls all succeed. -/
def echoGroup : ReceiveComponent (Nat × Nat) Unit := groupConversation fun _ _ e w => (w, some e)

/-- A group receives a message; then another group is made. -/
def regroupActs : List (Act (Nat × Nat)) :=
  [.effect (some "alice"), .render (some (0, 7)), .ready 0 true, .settle 0 (some [104, 105]), .replace []]

/-- That one receives a message, too. -/
def regroupedActs : List (Act (Nat × Nat)) :=
  [.render (some (1, 7)), .tick 0, .ready 0 true, .settle 0 (some [98])]

/-- The first message is gone with the group it was for; the second is on the screen of the new one. -/
theorem one_message_lost_regroup : ∃ added lost,
    [⟨textDecode [98], false⟩] = [] ++ added ∧
    (run (State.step echoGroup) (.mount ()) (regroupActs ++ regroupedActs)).appended =
      (run (State.step echoGroup) (.mount ()) regroupActs).appended ++ added.filterMap Message.received ∧
    (run (State.step echoGroup) (.mount ()) (regroupActs ++ regroupedActs)).decryptions.filterMap
        (fun d => d.plaintext.map textDecode) =
      (run (State.step echoGroup) (.mount ()) (regroupActs ++ regroupedActs)).appended ++ lost ∧
    lost.length ≤ 1 ∧
      (lost ≠ [] → (run (State.step echoGroup) (.mount ()) (regroupActs ++ regroupedActs)).mounted = false) := by
  have hmessages : (run (State.step echoGroup) (.mount ()) (regroupActs ++ regroupedActs)).messages =
      [⟨textDecode [98], false⟩] := by decide
  have hreplaced : (run (State.step echoGroup) (.mount ()) regroupActs).messages = [] := by decide
  rw [← hmessages, ← hreplaced]
  exact one_message_lost echoGroup () regroupActs regroupedActs (by decide)

end E2EMessaging.Web.Polling
