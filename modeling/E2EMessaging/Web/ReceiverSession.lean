/-
  WHICH SESSION DECRYPTS?  (`clients/web/src/Conversation.tsx`, the receive loop.)

  Peers encrypt to the bundle the relay holds, so the receive loop has to decrypt with the session
  whose bundle the configured relay accepted last.  The hook (`RelayConnection`) drops its session
  with every change of the URL and every retry, and hands the component the session of the next
  successful publish.  The component mirrors that prop into a ref — and the receive loop copies it,
  ONCE, into another ref that nothing ever resets.

  So after a change of relay the loop goes on with the old session (`stale_session_decrypts`).
  `receive_loop_agrees`: as long as nothing new is accepted, and the URL stays, once the loop has its
  session, and it takes one the hook has not dropped, it decrypts with the right one.
-/
import E2EMessaging.Lib.Bytes
import E2EMessaging.Web.RelayConnection

namespace E2EMessaging.Web

open E2EMessaging.Lib

/-! ## The receive loop -/

/-- Where the poll is that `pollInFlightRef` guards. -/
inductive Poll where
  | idle
  /-- It awaits `ensureWasmInit`. -/
  | starting
  /-- It awaits `pickupEnvelope`. -/
  | pickingUp
  deriving Repr, DecidableEq

/-- A call of `decrypt_message`: the session, the envelope, and the publish whose bundle the configured
    relay had accepted last by then. -/
structure Decrypt where
  session : Option Nat
  envelope : Bytes
  accepted : Option Nat
  deriving Repr, DecidableEq

/-- The client and what its relays have accepted for the user, latest first. -/
structure ReceiveLoop where
  conn : Connection
  accepts : List (String × Nat)
  receiverSessionRef : Option Nat
  poll : Poll
  seenEnvelopes : List Bytes
  decrypts : List Decrypt
  deriving Repr, DecidableEq

/-- What can happen. -/
inductive ReceiveEvent where
  | hook (e : HookEvent)
  /-- A relay accepts the bundle of a publish, if only after the client has given it up. -/
  | accept (publish : Nat)
  /-- `pollOnce` is called. -/
  | poll
  | wasmInit (ok : Bool)
  /-- The pickup returns an envelope, or fails. -/
  | pickup (envelope : Option Bytes)
  deriving Repr, DecidableEq

namespace ReceiveLoop

/-- The first render. -/
def mount (relayUrl : String) : ReceiveLoop := ⟨.mount relayUrl, [], none, .idle, [], []⟩

/-- The relay has accepted the bundle of the publish. -/
def accepted (s : ReceiveLoop) (k : Nat) : Bool := s.accepts.any fun a => decide (a.2 = k)

/-- The publish whose bundle the relay accepted last. -/
def lastAccepted (s : ReceiveLoop) (url : String) : Option Nat :=
  (s.accepts.find? fun a => decide (a.1 = url)).map Prod.snd

/-- `receiverSessionPropRef.current`: every render writes it. -/
def receiverSessionPropRef (s : ReceiveLoop) : Option Nat := s.conn.rendered.receiverSession

/-- The polling effect has run and has not been cleaned up. -/
def polling (s : ReceiveLoop) : Bool :=
  !s.conn.unmounted && s.conn.effectDeps.any fun d => d.identity.isSome

/-- A publish succeeds only if the relay has accepted its bundle. -/
def permits (s : ReceiveLoop) : HookEvent → Bool
  | .resolve k => s.accepted k
  | _ => true

/-- `pollOnce`, after `ensureWasmInit`: it takes the session from the prop if it has none yet. -/
def takeSession (s : ReceiveLoop) : ReceiveLoop :=
  match s.receiverSessionRef with
  | some _ => { s with poll := .pickingUp }
  | none =>
    match s.receiverSessionPropRef with
    | none => { s with poll := .idle }
    | some session => { s with receiverSessionRef := some session, poll := .pickingUp }

/-- `pollOnce`, after `pickupEnvelope`. -/
def decrypt (s : ReceiveLoop) (envelope : Bytes) : ReceiveLoop :=
  if s.seenEnvelopes.any fun seen => decide (seen = envelope) then { s with poll := .idle }
  else
    { s with
      poll := .idle
      seenEnvelopes := s.seenEnvelopes ++ [envelope]
      decrypts := s.decrypts ++
        [⟨s.receiverSessionRef, envelope, s.lastAccepted s.conn.state.relayUrl⟩] }

/-- One event. -/
def step (s : ReceiveLoop) : ReceiveEvent → ReceiveLoop
  | .hook e => if s.permits e then { s with conn := s.conn.step e } else s
  | .accept k =>
    match s.conn.publishes[k]? with
    | none => s
    | some p => if s.accepted k then s else { s with accepts := (p.relayUrl, k) :: s.accepts }
  | .poll => if s.polling = true ∧ s.poll = .idle then { s with poll := .starting } else s
  | .wasmInit ok =>
    if s.poll = .starting then (if ok then s.takeSession else { s with poll := .idle }) else s
  | .pickup envelope =>
    if s.poll = .pickingUp then
      match envelope with
      | none => { s with poll := .idle }
      | some e => s.decrypt e
    else s

/-! ## What should hold, and when it does -/

/-- Every decryption so far was with the session whose bundle the configured relay accepted last. -/
def Agrees (s : ReceiveLoop) : Prop :=
  ∀ d ∈ s.decrypts, ∃ session, d.session = some session ∧ d.accepted = some session

/-- The relay of the last run. -/
def liveUrl (s : ReceiveLoop) : Option String := s.conn.runs.getLast?.map EffectRun.relayUrl

/-- A publish of the last run that has not failed. -/
def live (s : ReceiveLoop) (k : Nat) : Bool :=
  match s.conn.publishes[k]? with
  | none => false
  | some p => decide (p.run + 1 = s.conn.runs.length ∧ p.outcome ≠ .rejected)

/-- The relay of the last run holds the bundle of a publish the run awaits or has completed. -/
def served (s : ReceiveLoop) : Bool := s.accepts.any fun a => s.live a.2

/-- Once the relay has the bundle of the current run, it accepts no abandoned one; once the loop has
    its session, the URL stays and its relay accepts nothing more; and the session it takes is still
    the hook's, from a run against the configured relay. -/
def Steady (s : ReceiveLoop) : ReceiveEvent → Prop
  | .accept k => ∀ p ∈ s.conn.publishes[k]?, s.accepted k = false →
    (s.served = true → s.liveUrl ≠ some p.relayUrl) ∧
      (s.receiverSessionRef ≠ none → p.relayUrl ≠ s.conn.state.relayUrl)
  | .hook (.setUrl url) => s.receiverSessionRef ≠ none → url = s.conn.state.relayUrl
  | .wasmInit true => s.poll = .starting → s.receiverSessionRef = none →
    s.receiverSessionPropRef ≠ none →
    s.conn.state.receiverSession = s.receiverSessionPropRef ∧
      s.liveUrl = some s.conn.state.relayUrl
  | _ => True

instance decidableSteady (s : ReceiveLoop) : (e : ReceiveEvent) → Decidable (s.Steady e)
  | .accept k => inferInstanceAs (Decidable (∀ p ∈ s.conn.publishes[k]?, s.accepted k = false →
    (s.served = true → s.liveUrl ≠ some p.relayUrl) ∧
      (s.receiverSessionRef ≠ none → p.relayUrl ≠ s.conn.state.relayUrl)))
  | .hook (.setUrl url) =>
    inferInstanceAs (Decidable (s.receiverSessionRef ≠ none → url = s.conn.state.relayUrl))
  | .wasmInit true => inferInstanceAs (Decidable (s.poll = .starting →
    s.receiverSessionRef = none → s.receiverSessionPropRef ≠ none →
    s.conn.state.receiverSession = s.receiverSessionPropRef ∧
      s.liveUrl = some s.conn.state.relayUrl))
  | .hook (.load _) | .hook .retry | .hook .render | .hook .effects | .hook .unmount
  | .hook (.timer _) | .hook (.resolve _) | .hook (.reject _ _) => .isTrue trivial
  | .wasmInit false | .poll | .pickup _ => .isTrue trivial

/-! ## The invariant -/

/-- What has succeeded was accepted.  The relay holds the bundle of the current run's publish, once it
    has accepted it; and that of the session the loop has taken. -/
structure Inv (s : ReceiveLoop) : Prop where
  conn : s.conn.Inv
  known : ∀ a ∈ s.accepts, a.2 < s.conn.publishes.length
  resolved : ∀ (k : Nat) (p : Publish), s.conn.publishes[k]? = some p → p.outcome = .resolved →
    s.accepted k = true
  current : ∀ (k : Nat) (p : Publish), s.conn.publishes[k]? = some p →
    p.run + 1 = s.conn.runs.length → p.outcome ≠ .rejected → s.accepted k = true →
    s.lastAccepted p.relayUrl = some k
  taken : ∀ k, s.receiverSessionRef = some k → s.lastAccepted s.conn.state.relayUrl = some k
  picking : s.poll = .pickingUp → s.receiverSessionRef ≠ none
  agrees : s.Agrees

theorem accepted_iff {s : ReceiveLoop} {k : Nat} :
    s.accepted k = true ↔ ∃ url, (url, k) ∈ s.accepts := by
  rw [accepted, List.any_eq_true]
  constructor
  · rintro ⟨⟨url, j⟩, hmem, hj⟩
    obtain rfl : j = k := of_decide_eq_true hj
    exact ⟨url, hmem⟩
  · rintro ⟨url, hmem⟩
    exact ⟨(url, k), hmem, decide_eq_true rfl⟩

/-- Publishes of the last run go to its relay. -/
theorem Inv.liveUrl_eq {s : ReceiveLoop} (hs : s.Inv) {k : Nat} {p : Publish}
    (hk : s.conn.publishes[k]? = some p) (hlast : p.run + 1 = s.conn.runs.length) :
    s.liveUrl = some p.relayUrl := by
  obtain ⟨r, hr, hurl⟩ := hs.conn.owned k p hk
  have hindex : s.conn.runs.length - 1 = p.run := by omega
  rw [liveUrl, List.getLast?_eq_getElem?, hindex, hr, hurl]
  rfl

/-- An event of the hook. -/
theorem Inv.hook {s : ReceiveLoop} (hs : s.Inv) {e : HookEvent} (hsteady : s.Steady (.hook e))
    (hpermits : s.permits e = true) : Inv { s with conn := s.conn.step e } := by
  have hext := s.conn.extends_step e
  refine ⟨hs.conn.step e, ?_, ?_, ?_, ?_, hs.picking, hs.agrees⟩
  · intro a ha
    exact Nat.lt_of_lt_of_le (hs.known a ha) hext.publishes
  · intro k p' hk hresolved
    rcases hext.outcome k p' hk with ⟨-, hbad⟩ | ⟨p, hp, -, -, hsame | ⟨-, hbad | ⟨-, he⟩⟩⟩
    · rw [hresolved] at hbad
      cases hbad
    · exact hs.resolved k p hp (hsame.symm.trans hresolved)
    · rw [hresolved] at hbad
      cases hbad
    · cases e with
      | resolve j =>
        obtain rfl := Option.some.inj he
        exact hpermits
      | _ => cases he
  · intro k p' hk hlast hlive haccepted
    rcases hext.outcome k p' hk with ⟨hfresh, -⟩ | ⟨p, hp, hrun, hurl, hcases⟩
    · -- a new publish has not been accepted
      obtain ⟨url, hmem⟩ := accepted_iff.mp haccepted
      exact absurd (hs.known _ hmem) (Nat.not_lt.mpr hfresh)
    · have hlive' : p.outcome ≠ .rejected := by
        rcases hcases with hsame | ⟨hawaited, -⟩
        · exact hsame ▸ hlive
        · rw [hawaited]
          exact nofun
      -- it is of the last run, so there is no newer one
      have hlast' : p.run + 1 = s.conn.runs.length := by
        have hlt := hs.conn.run_lt hp
        have hle := hext.runs
        have heq : p'.run + 1 = (s.conn.step e).runs.length := hlast
        omega
      rw [hurl]
      exact hs.current k p hp hlast' hlive' haccepted
  · intro k hk
    have hold := hs.taken k hk
    by_cases he : ∃ url, e = .setUrl url
    · obtain ⟨url, rfl⟩ := he
      have hurl : url = s.conn.state.relayUrl := by
        apply hsteady
        rw [hk]
        exact Option.some_ne_none k
      have hsame : (s.conn.step (.setUrl url)).state.relayUrl = s.conn.state.relayUrl := by
        show (s.conn.update fun st => { st with relayUrl := url }).state.relayUrl = _
        unfold Connection.update
        split
        · rfl
        · exact hurl
      show s.lastAccepted (s.conn.step (.setUrl url)).state.relayUrl = some k
      rw [hsame]
      exact hold
    · have hsame := s.conn.relayUrl_step e fun url heq => he ⟨url, heq⟩
      show s.lastAccepted (s.conn.step e).state.relayUrl = some k
      rw [hsame]
      exact hold

/-- A relay accepts a bundle. -/
theorem Inv.accept {s : ReceiveLoop} (hs : s.Inv) {k : Nat} {p : Publish}
    (hk : s.conn.publishes[k]? = some p)
    (hserved : s.served = true → s.liveUrl ≠ some p.relayUrl)
    (htaken : s.receiverSessionRef ≠ none → p.relayUrl ≠ s.conn.state.relayUrl) :
    Inv { s with accepts := (p.relayUrl, k) :: s.accepts } := by
  have hother : ∀ url, p.relayUrl ≠ url →
      lastAccepted { s with accepts := (p.relayUrl, k) :: s.accepts } url = s.lastAccepted url := by
    intro url hne
    show (List.find? _ (_ :: _)).map Prod.snd = _
    rw [List.find?_cons_of_neg (by simpa using hne)]
    rfl
  refine ⟨hs.conn, ?_, ?_, ?_, ?_, hs.picking, hs.agrees⟩
  · intro a ha
    rcases List.mem_cons.mp ha with rfl | ha
    · exact (List.getElem?_eq_some_iff.mp hk).1
    · exact hs.known a ha
  · intro j q hj hresolved
    obtain ⟨url, hmem⟩ := accepted_iff.mp (hs.resolved j q hj hresolved)
    exact accepted_iff.mpr ⟨url, List.mem_cons_of_mem _ hmem⟩
  · intro j q hj hlast hlive haccepted
    by_cases hjk : j = k
    · subst hjk
      obtain rfl := Option.some.inj (hk.symm.trans hj)
      show (List.find? _ (_ :: _)).map Prod.snd = some j
      rw [List.find?_cons_of_pos (by simp)]
      rfl
    · -- the run has its bundle at the relay: this one goes elsewhere
      obtain ⟨url, hmem⟩ := accepted_iff.mp haccepted
      have hmem' : (url, j) ∈ s.accepts := by
        rcases List.mem_cons.mp hmem with heq | hmem
        · exact absurd (Prod.mk.inj heq).2 hjk
        · exact hmem
      have hlive' : s.live j = true := by
        rw [live, hj]
        exact decide_eq_true ⟨hlast, hlive⟩
      have hne := hserved (List.any_eq_true.mpr ⟨(url, j), hmem', hlive'⟩)
      rw [hs.liveUrl_eq hj hlast] at hne
      rw [hother q.relayUrl fun heq => hne (congrArg some heq.symm)]
      exact hs.current j q hj hlast hlive (accepted_iff.mpr ⟨url, hmem'⟩)
  · intro j hj
    have hne : p.relayUrl ≠ s.conn.state.relayUrl := by
      apply htaken
      rw [show s.receiverSessionRef = some j from hj]
      exact Option.some_ne_none j
    rw [hother _ hne]
    exact hs.taken j hj

/-- The loop takes the session the hook still has. -/
theorem Inv.takeSession {s : ReceiveLoop} (hs : s.Inv)
    (hsteady : s.receiverSessionRef = none → s.receiverSessionPropRef ≠ none →
      s.conn.state.receiverSession = s.receiverSessionPropRef ∧
        s.liveUrl = some s.conn.state.relayUrl) : s.takeSession.Inv := by
  unfold ReceiveLoop.takeSession
  split
  · rename_i k href
    refine ⟨hs.conn, hs.known, hs.resolved, hs.current, hs.taken, ?_, hs.agrees⟩
    intro _
    rw [href]
    exact Option.some_ne_none k
  · rename_i href
    split
    · exact ⟨hs.conn, hs.known, hs.resolved, hs.current, hs.taken, nofun, hs.agrees⟩
    · rename_i session hprop
      refine ⟨hs.conn, hs.known, hs.resolved, hs.current, ?_, fun _ => Option.some_ne_none _,
        hs.agrees⟩
      intro k hk
      obtain rfl := Option.some.inj hk
      obtain ⟨hstate, hurl⟩ := hsteady href (by rw [hprop]; exact Option.some_ne_none _)
      obtain ⟨p, hp, hresolved, hlast⟩ := hs.conn.session session (hstate.trans hprop)
      have haccepted := hs.resolved session p hp hresolved
      have hlive : p.outcome ≠ .rejected := by
        rw [hresolved]
        exact nofun
      -- the configured relay is the one its bundle went to
      have hsame := Option.some.inj (hurl.symm.trans (hs.liveUrl_eq hp hlast))
      show s.lastAccepted s.conn.state.relayUrl = some session
      rw [hsame]
      exact hs.current session p hp hlast hlive haccepted

theorem Inv.decrypt {s : ReceiveLoop} (hs : s.Inv) (hpoll : s.poll = .pickingUp)
    (envelope : Bytes) : (s.decrypt envelope).Inv := by
  unfold ReceiveLoop.decrypt
  split
  · exact ⟨hs.conn, hs.known, hs.resolved, hs.current, hs.taken, nofun, hs.agrees⟩
  · refine ⟨hs.conn, hs.known, hs.resolved, hs.current, hs.taken, nofun, ?_⟩
    intro d hd
    rcases List.mem_append.mp hd with hold | hnew
    · exact hs.agrees d hold
    · rw [List.mem_singleton.mp hnew]
      obtain ⟨k, hk⟩ := Option.ne_none_iff_exists'.mp (hs.picking hpoll)
      exact ⟨k, hk, hs.taken k hk⟩

/-- **One step.** -/
theorem Inv.step {s : ReceiveLoop} (hs : s.Inv) {e : ReceiveEvent} (hsteady : s.Steady e) :
    (s.step e).Inv := by
  have hidle : Inv { s with poll := .idle } :=
    ⟨hs.conn, hs.known, hs.resolved, hs.current, hs.taken, nofun, hs.agrees⟩
  unfold ReceiveLoop.step
  split
  · split
    · rename_i e hpermits
      exact hs.hook hsteady hpermits
    · exact hs
  · split
    · exact hs
    · rename_i k p hk
      split
      · exact hs
      · rename_i hnew
        obtain ⟨hserved, htaken⟩ := hsteady p hk (Bool.not_eq_true _ ▸ hnew)
        exact hs.accept hk hserved htaken
  · split
    · exact ⟨hs.conn, hs.known, hs.resolved, hs.current, hs.taken, nofun, hs.agrees⟩
    · exact hs
  · rename_i ok
    split
    · rename_i hpoll
      split
      · rename_i hok
        subst hok
        exact hs.takeSession (hsteady hpoll)
      · exact hidle
    · exact hs
  · split
    · rename_i hpoll
      split
      · exact hidle
      · exact hs.decrypt hpoll _
    · exact hs

theorem inv_mount (relayUrl : String) : (mount relayUrl).Inv := by
  refine ⟨Connection.inv_mount relayUrl, ?_, ?_, ?_, ?_, nofun, ?_⟩
  · intro a ha
    cases ha
  · intro k p hk
    cases hk
  · intro k p hk
    cases hk
  · intro k hk
    cases hk
  · intro d hd
    cases hd

end ReceiveLoop

/-! ## The runs -/

/-- **The receive loop decrypts with the right session** in every run whose steps are all `Steady`:
    every decryption is with the session whose bundle the configured relay accepted last.  `Steady` is
    sufficient, not exact: a run that leaves it is still right while nothing is decrypted. -/
theorem receive_loop_agrees (relayUrl : String) (events : List ReceiveEvent)
    (h : Meets ReceiveLoop.step ReceiveLoop.Steady (.mount relayUrl) events) :
    (run ReceiveLoop.step (.mount relayUrl) events).Agrees := by
  have hinv : (run ReceiveLoop.step (.mount relayUrl) events).Inv :=
    meets_inv (fun _ _ hs hsteady => hs.step hsteady) (ReceiveLoop.inv_mount relayUrl) h
  exact hinv.agrees

/-- The first relay is down, and accepts a publish only after the user has gone to another one.  There
    the publish succeeds, and the loop decrypts; a retry that fails changes nothing. -/
def steadyEvents : List ReceiveEvent :=
  [.hook (.load "id"), .hook .render, .hook .effects, .hook (.reject 0 "relay connection error"),
    .hook (.timer 0), .hook (.setUrl "ws://b"), .hook .render, .hook .effects, .accept 1, .accept 2,
    .hook (.resolve 2), .hook .render, .poll, .wasmInit true, .pickup (some [1]), .hook .retry,
    .hook .render, .hook .effects, .hook (.reject 3 "relay connection error"), .hook .render, .poll,
    .wasmInit true, .pickup (some [2])]

theorem steady_events_agree :
    (run ReceiveLoop.step (.mount "ws://a") steadyEvents).Agrees ∧
      (run ReceiveLoop.step (.mount "ws://a") steadyEvents).decrypts =
        [⟨some 2, [1], some 2⟩, ⟨some 2, [2], some 2⟩] := by
  constructor
  · apply receive_loop_agrees
    decide +kernel
  · decide +kernel

/-- The loop has its session; then the user goes to another relay, which accepts a new bundle. -/
def relayChangeEvents : List ReceiveEvent :=
  [.hook (.load "id"), .hook .render, .hook .effects, .accept 0, .hook (.resolve 0), .hook .render,
    .poll, .wasmInit true, .pickup none, .hook (.setUrl "ws://b"), .hook .render, .hook .effects,
    .accept 1, .hook (.resolve 1), .hook .render, .poll, .wasmInit true, .pickup (some [7])]

/-- **A stale session decrypts.**  The configured relay holds the bundle of session 1, the component
    has it as its prop, and the envelope is decrypted with session 0. -/
theorem stale_session_decrypts :
    (run ReceiveLoop.step (.mount "ws://a") relayChangeEvents).receiverSessionPropRef = some 1 ∧
    (run ReceiveLoop.step (.mount "ws://a") relayChangeEvents).decrypts =
      [⟨some 0, [7], some 1⟩] ∧
    ¬ (run ReceiveLoop.step (.mount "ws://a") relayChangeEvents).Agrees := by
  have hdecrypts : (run ReceiveLoop.step (.mount "ws://a") relayChangeEvents).decrypts =
      [⟨some 0, [7], some 1⟩] := by decide +kernel
  refine ⟨by decide +kernel, hdecrypts, ?_⟩
  intro h
  obtain ⟨session, hsession, haccepted⟩ := h ⟨some 0, [7], some 1⟩ (by rw [hdecrypts]; simp)
  obtain rfl := Option.some.inj hsession
  cases haccepted

end E2EMessaging.Web
