/-
  THE RELAY CONNECTION OF THE WEB CLIENT (`clients/web/src/useRelayConnection.tsx`, and the relay
  state of `App.tsx`).

  Each run of the hook's effect publishes a prekey bundle, with retries: a burst, then a slow cadence.
  EVERY ATTEMPT CREATES A NEW SESSION; the session of the attempt that succeeds becomes
  `receiverSession`.  A change of the URL or of the retry token cancels the run and starts another,
  which drops the session; a cancelled run may still have a publish under way.

  State updates are queued and take effect with the next render; the effect of a commit runs before
  the next render, but other events may come between.

  * `Inv.step`     — a run has at most one publish that has not failed, and none while its timer is
                     armed; the session is that of a successful publish of the last run;
  * `extends_step` — what one event can do to the publishes;
  * `Keeps`        — what timers and publishes leave alone.
-/
import E2EMessaging.Lib.Run

namespace E2EMessaging.Web

open E2EMessaging.Lib

/-! ## The hook -/

/-- `RelayStatus`. -/
inductive RelayStatus where
  | connecting
  | connected
  | unreachable
  deriving Repr, DecidableEq

/-- `INITIAL_BACKOFF_MS`. -/
def initialBackoffMs : List Nat := [100, 200, 400]

/-- `PERIODIC_RETRY_MS`. -/
def periodicRetryMs : Nat := 2000

/-- `INITIAL_ATTEMPTS`. -/
def initialAttempts : Nat := 1 + initialBackoffMs.length

/-- The React state: the recipient ID of the identity, once it is loaded, the relay URL, and what the
    hook keeps.  A session is named by the publish that created it. -/
structure HookState where
  identity : Option String
  relayUrl : String
  retryCount : Nat
  status : RelayStatus
  error : Option String
  receiverSession : Option Nat
  deriving Repr, DecidableEq

/-- The dependencies of the effect. -/
structure Deps where
  identity : Option String
  relayUrl : String
  retryCount : Nat
  deriving Repr, DecidableEq

/-- The dependencies, in a state. -/
def HookState.deps (s : HookState) : Deps := ⟨s.identity, s.relayUrl, s.retryCount⟩

/-- A run of the effect, with the delay of its timer while it is armed. -/
structure EffectRun where
  relayUrl : String
  cancelled : Bool
  attemptIdx : Nat
  timer : Option Nat
  deriving Repr, DecidableEq

/-- What of a run its timer and its attempts leave alone. -/
def EffectRun.header (r : EffectRun) : String × Bool := (r.relayUrl, r.cancelled)

/-- What `publishPrekeyForIdentity` has come to. -/
inductive PublishOutcome where
  | awaited
  | resolved
  | rejected
  deriving Repr, DecidableEq

/-- A call of `publishPrekeyForIdentity`: the run that made it and the relay it went to. -/
structure Publish where
  run : Nat
  relayUrl : String
  outcome : PublishOutcome
  deriving Repr, DecidableEq

/-- The hook in its component: the state with every queued update, the state as last rendered, the
    dependencies the effect last ran with, and all runs and publishes so far. -/
structure Connection where
  state : HookState
  rendered : HookState
  effectDeps : Option Deps
  unmounted : Bool
  runs : List EffectRun
  publishes : List Publish
  deriving Repr, DecidableEq

/-- What can happen. -/
inductive HookEvent where
  /-- The identity is loaded or generated. -/
  | load (recipientId : String)
  | setUrl (url : String)
  | retry
  | render
  /-- The effects of the last commit run. -/
  | effects
  | unmount
  /-- The timer of a run fires. -/
  | timer (run : Nat)
  | resolve (publish : Nat)
  | reject (publish : Nat) (message : String)
  deriving Repr, DecidableEq

/-- The publish that an event resolves. -/
def HookEvent.resolves : HookEvent → Option Nat
  | .resolve k => some k
  | _ => none

namespace Connection

/-- The first render. -/
def mount (relayUrl : String) : Connection :=
  { state := ⟨none, relayUrl, 0, .connecting, none, none⟩
    rendered := ⟨none, relayUrl, 0, .connecting, none, none⟩
    effectDeps := none
    unmounted := false
    runs := []
    publishes := [] }

/-- `tick`: a publish with a new session. -/
def tick (c : Connection) (i : Nat) : Connection :=
  match c.runs[i]? with
  | none => c
  | some r =>
    if r.cancelled then c
    else
      { c with
        -- after the burst an "unreachable" status stays
        state := if r.attemptIdx < initialAttempts then { c.state with status := .connecting }
          else c.state
        publishes := c.publishes ++ [⟨i, r.relayUrl, .awaited⟩] }

/-- The effect's cleanup, for the last run. -/
def cleanup (c : Connection) : Connection :=
  { c with
    runs := c.runs.modify (c.runs.length - 1) fun r => { r with cancelled := true, timer := none } }

/-- The effect: it drops the session and starts a run. -/
def startRun (c : Connection) : Connection :=
  tick { c with
    state := { c.state with receiverSession := none }
    runs := c.runs ++ [⟨c.rendered.relayUrl, false, 0, none⟩] } c.runs.length

/-- The effect runs if its dependencies have changed since it last ran; without an identity it does
    nothing. -/
def flushEffects (c : Connection) : Connection :=
  if c.unmounted = true ∨ c.effectDeps = some c.rendered.deps then c
  else
    let c' := { c.cleanup with effectDeps := some c.rendered.deps }
    match c.rendered.identity with
    | none => c'
    | some _ => c'.startRun

/-- A render applies all queued updates.  The effects of the last commit have run by then. -/
def render (c : Connection) : Connection :=
  if c.unmounted then c
  else { c.flushEffects with rendered := c.flushEffects.state }

/-- A timer that has not been cleared fires. -/
def fire (c : Connection) (i : Nat) : Connection :=
  match c.runs[i]? with
  | some ⟨_, _, _, some _⟩ =>
    tick { c with runs := c.runs.modify i fun r => { r with timer := none } } i
  | _ => c

/-- The publish has settled. -/
def settle (c : Connection) (k : Nat) (outcome : PublishOutcome) : Connection :=
  { c with publishes := c.publishes.modify k fun p => { p with outcome } }

/-- `tick`, after a publish that succeeded. -/
def resolve (c : Connection) (k : Nat) : Connection :=
  match c.publishes[k]? with
  | some ⟨i, _, .awaited⟩ =>
    match c.runs[i]? with
    | some ⟨_, false, _, _⟩ =>
      { c.settle k .resolved with
        state := { c.state with receiverSession := some k, status := .connected, error := none } }
    -- the run was cancelled: its session is dropped
    | _ => c.settle k .resolved
  | _ => c

/-- `tick`, after a publish that failed. -/
def reject (c : Connection) (k : Nat) (message : String) : Connection :=
  match c.publishes[k]? with
  | some ⟨i, _, .awaited⟩ =>
    match c.runs[i]? with
    | some ⟨_, false, n, _⟩ =>
      if n + 1 < initialAttempts then
        { c.settle k .rejected with
          state := { c.state with error := some message }
          runs := c.runs.modify i fun r =>
            { r with attemptIdx := n + 1, timer := some (initialBackoffMs.getD n periodicRetryMs) } }
      else
        { c.settle k .rejected with
          state := { c.state with error := some message, status := .unreachable }
          runs := c.runs.modify i fun r =>
            { r with attemptIdx := n + 1, timer := some periodicRetryMs } }
    -- a cancelled run does not try again
    | _ => c.settle k .rejected
  | _ => c

/-- A queued update, from outside the hook. -/
def update (c : Connection) (f : HookState → HookState) : Connection :=
  if c.unmounted then c else { c with state := f c.state }

/-- One event.  The identity is set once. -/
def step (c : Connection) : HookEvent → Connection
  | .load recipientId =>
    c.update fun s => if s.identity = none then { s with identity := some recipientId } else s
  | .setUrl url => c.update fun s => { s with relayUrl := url }
  | .retry => c.update fun s => { s with retryCount := s.retryCount + 1 }
  | .render => c.render
  | .effects => c.flushEffects
  | .unmount => if c.unmounted then c else { c.flushEffects.cleanup with unmounted := true }
  | .timer i => c.fire i
  | .resolve k => c.resolve k
  | .reject k message => c.reject k message

/-! ## What a continuation does -/

/-- After a publish that succeeded: nothing, if it had settled before; it settles, and, if its run is live,
    its session is shown. -/
theorem resolve_cases (c : Connection) (k : Nat) :
    c.resolve k = c ∨
    ∃ p, c.publishes[k]? = some p ∧ p.outcome = .awaited ∧
      (c.resolve k = c.settle k .resolved ∨
        ∃ r, c.runs[p.run]? = some r ∧ r.cancelled = false ∧
          c.resolve k =
            { c.settle k .resolved with
              state :=
                { c.state with receiverSession := some k, status := .connected, error := none } }) := by
  unfold resolve
  split
  · rename_i i url hk
    refine .inr ⟨_, hk, rfl, ?_⟩
    split
    · rename_i url' n timer hr
      exact .inr ⟨_, hr, rfl, rfl⟩
    · exact .inl rfl
  · exact .inl rfl

/-- After a publish that failed: nothing, if it had settled before; it settles, and, if its run is live, the
    error is shown, after the burst as `unreachable`, and the timer is armed. -/
theorem reject_cases (c : Connection) (k : Nat) (message : String) :
    c.reject k message = c ∨
    ∃ p, c.publishes[k]? = some p ∧ p.outcome = .awaited ∧
      (c.reject k message = c.settle k .rejected ∨
        ∃ r status delay, c.runs[p.run]? = some r ∧ r.cancelled = false ∧
          (status = c.state.status ∨ status = .unreachable) ∧
          c.reject k message =
            { c.settle k .rejected with
              state := { c.state with error := some message, status }
              runs := c.runs.modify p.run fun r' =>
                { r' with attemptIdx := r.attemptIdx + 1, timer := some delay } }) := by
  unfold reject
  split
  · rename_i i url hk
    refine .inr ⟨_, hk, rfl, ?_⟩
    split
    · rename_i url' n timer hr
      split
      · exact .inr ⟨_, c.state.status, _, hr, rfl, .inl rfl, rfl⟩
      · exact .inr ⟨_, .unreachable, _, hr, rfl, .inr rfl, rfl⟩
    · exact .inl rfl
  · exact .inl rfl

/-! ## The invariant -/

/-- Only the last run is not cancelled.  Publishes go to the relay of their run.  A run has at most one
    publish that has not failed, and none while its timer is armed.  The session is that of a
    successful publish of the last run. -/
structure Inv (c : Connection) : Prop where
  last : ∀ (i : Nat) (r : EffectRun), c.runs[i]? = some r → r.cancelled = false →
    i + 1 = c.runs.length
  owned : ∀ (k : Nat) (p : Publish), c.publishes[k]? = some p →
    ∃ r, c.runs[p.run]? = some r ∧ p.relayUrl = r.relayUrl
  single : ∀ (j k : Nat) (p q : Publish), c.publishes[j]? = some p → c.publishes[k]? = some q →
    p.run = q.run → p.outcome ≠ .rejected → q.outcome ≠ .rejected → j = k
  timer : ∀ (i : Nat) (r : EffectRun), c.runs[i]? = some r → r.timer ≠ none →
    ∀ (k : Nat) (p : Publish), c.publishes[k]? = some p → p.run = i → p.outcome = .rejected
  session : ∀ k, c.state.receiverSession = some k →
    ∃ p, c.publishes[k]? = some p ∧ p.outcome = .resolved ∧ p.run + 1 = c.runs.length

/-- A publish belongs to a run of the effect that has been there. -/
theorem Inv.run_lt {c : Connection} (hc : c.Inv) {k : Nat} {p : Publish}
    (hk : c.publishes[k]? = some p) : p.run < c.runs.length := by
  obtain ⟨r, hr, -⟩ := hc.owned k p hk
  exact (List.getElem?_eq_some_iff.mp hr).1

/-- Updates that leave the session alone. -/
theorem Inv.update {c : Connection} (hc : c.Inv) (f : HookState → HookState)
    (hf : (f c.state).receiverSession = c.state.receiverSession) : (c.update f).Inv := by
  unfold Connection.update
  split
  · exact hc
  · refine ⟨hc.last, hc.owned, hc.single, hc.timer, ?_⟩
    intro k hk
    exact hc.session k (hf.symm.trans hk)

/-- A publish of a run whose earlier publishes have all failed. -/
theorem Inv.tick {c : Connection} (hc : c.Inv) {i : Nat}
    (hfailed : ∀ (k : Nat) (p : Publish), c.publishes[k]? = some p → p.run = i →
      p.outcome = .rejected)
    (htimer : ∀ r, c.runs[i]? = some r → r.timer = none) : (c.tick i).Inv := by
  unfold Connection.tick
  split
  · exact hc
  · rename_i r hr
    split
    · exact hc
    · refine ⟨hc.last, ?_, ?_, ?_, ?_⟩
      · intro k p hk
        rcases getElem?_concat_eq_some.mp hk with hold | ⟨-, rfl⟩
        · exact hc.owned k p hold
        · exact ⟨r, hr, rfl⟩
      · intro j k p q hj hk hrun hp hq
        rcases getElem?_concat_eq_some.mp hj with hj | ⟨rfl, rfl⟩
        · rcases getElem?_concat_eq_some.mp hk with hk | ⟨rfl, rfl⟩
          · exact hc.single j k p q hj hk hrun hp hq
          · exact absurd (hfailed j p hj hrun) hp
        · rcases getElem?_concat_eq_some.mp hk with hk | ⟨rfl, rfl⟩
          · exact absurd (hfailed k q hk hrun.symm) hq
          · rfl
      · intro i' r' hr' harmed k p hk hrun
        rcases getElem?_concat_eq_some.mp hk with hold | ⟨-, rfl⟩
        · exact hc.timer i' r' hr' harmed k p hold hrun
        · obtain rfl : i = i' := hrun
          exact absurd (htimer r' hr') harmed
      · intro k hk
        have hsession : c.state.receiverSession = some k := by
          rw [← hk]
          split <;> rfl
        obtain ⟨p, hp, hresolved, hlast⟩ := hc.session k hsession
        exact ⟨p, getElem?_concat_eq_some.mpr (.inl hp), hresolved, hlast⟩

theorem length_cleanup (c : Connection) : c.cleanup.runs.length = c.runs.length :=
  List.length_modify ..

/-- After the cleanup every run is cancelled. -/
theorem Inv.cleanup {c : Connection} (hc : c.Inv) :
    c.cleanup.Inv ∧ ∀ r ∈ c.cleanup.runs, r.cancelled = true := by
  have hcancelled : ∀ (i : Nat) (r : EffectRun), c.cleanup.runs[i]? = some r →
      r.cancelled = true := by
    intro i r hr
    rcases getElem?_modify_eq_some.mp hr with ⟨-, old, -, rfl⟩ | ⟨hne, hold⟩
    · rfl
    · cases hcancelled : r.cancelled with
      | true => rfl
      | false =>
        have hlast := hc.last i r hold hcancelled
        omega
  refine ⟨⟨?_, ?_, hc.single, ?_, ?_⟩, ?_⟩
  · intro i r hr hlive
    rw [hcancelled i r hr] at hlive
    cases hlive
  · intro k p hk
    obtain ⟨r, hr, hurl⟩ := hc.owned k p hk
    by_cases hi : p.run = c.runs.length - 1
    · exact ⟨_, getElem?_modify_eq_some.mpr (.inl ⟨hi, r, hi ▸ hr, rfl⟩), hurl⟩
    · exact ⟨r, getElem?_modify_eq_some.mpr (.inr ⟨hi, hr⟩), hurl⟩
  · intro i r hr harmed
    rcases getElem?_modify_eq_some.mp hr with ⟨-, old, -, rfl⟩ | ⟨-, hold⟩
    · exact absurd rfl harmed
    · exact hc.timer i r hold harmed
  · intro k hk
    rw [length_cleanup]
    exact hc.session k hk
  · intro r hr
    obtain ⟨i, hi⟩ := List.mem_iff_getElem?.mp hr
    exact hcancelled i r hi

/-- A run starts when all others are cancelled. -/
theorem Inv.startRun {c : Connection} (hc : c.Inv) (hcancelled : ∀ r ∈ c.runs, r.cancelled = true) :
    c.startRun.Inv := by
  have hnew : Inv { c with
      state := { c.state with receiverSession := none }
      runs := c.runs ++ [⟨c.rendered.relayUrl, false, 0, none⟩] } := by
    refine ⟨?_, ?_, hc.single, ?_, nofun⟩
    · intro i r hr hlive
      rcases getElem?_concat_eq_some.mp hr with hold | ⟨rfl, -⟩
      · rw [hcancelled r (List.mem_of_getElem? hold)] at hlive
        cases hlive
      · show c.runs.length + 1 = (c.runs ++ [_]).length
        rw [List.length_append, List.length_singleton]
    · intro k p hk
      obtain ⟨r, hr, hurl⟩ := hc.owned k p hk
      exact ⟨r, getElem?_concat_eq_some.mpr (.inl hr), hurl⟩
    · intro i r hr harmed
      rcases getElem?_concat_eq_some.mp hr with hold | ⟨-, rfl⟩
      · exact hc.timer i r hold harmed
      · exact absurd rfl harmed
  -- a run that has just started has no publishes
  refine hnew.tick ?_ ?_
  · intro k p hk hrun
    exact absurd (hc.run_lt hk) (by omega)
  · intro r hr
    rcases getElem?_concat_eq_some.mp hr with hold | ⟨-, rfl⟩
    · exact absurd (List.getElem?_eq_some_iff.mp hold).1 (Nat.lt_irrefl _)
    · rfl

/-- When the dependencies have changed, the last run is cancelled and the new one publishes for the new relay. -/
theorem Inv.flushEffects {c : Connection} (hc : c.Inv) : c.flushEffects.Inv := by
  unfold Connection.flushEffects
  split
  · exact hc
  · obtain ⟨hclean, hcancelled⟩ := hc.cleanup
    have hclean' : Inv { c.cleanup with effectDeps := some c.rendered.deps } :=
      ⟨hclean.last, hclean.owned, hclean.single, hclean.timer, hclean.session⟩
    dsimp only
    split
    · exact hclean'
    · exact hclean'.startRun hcancelled

/-- A render applies the queued updates; the effect it makes due has not run yet. -/
theorem Inv.render {c : Connection} (hc : c.Inv) : c.render.Inv := by
  unfold Connection.render
  split
  · exact hc
  · have hflush := hc.flushEffects
    exact ⟨hflush.last, hflush.owned, hflush.single, hflush.timer, hflush.session⟩

/-- A run's timer is set anew; if it is armed, all its publishes have failed. -/
theorem Inv.setTimer {c : Connection} (hc : c.Inv) {i : Nat} {f : EffectRun → EffectRun}
    (hf : ∀ r, (f r).relayUrl = r.relayUrl ∧ (f r).cancelled = r.cancelled)
    (htimer : (∀ r, (f r).timer = none) ∨ ∀ (k : Nat) (p : Publish), c.publishes[k]? = some p →
      p.run = i → p.outcome = .rejected) :
    Inv { c with runs := c.runs.modify i f } := by
  refine ⟨?_, ?_, hc.single, ?_, ?_⟩
  · intro i' r hr hlive
    rw [List.length_modify]
    rcases getElem?_modify_eq_some.mp hr with ⟨rfl, old, hold, rfl⟩ | ⟨-, hold⟩
    · exact hc.last i' old hold ((hf old).2.symm.trans hlive)
    · exact hc.last i' r hold hlive
  · intro k p hk
    obtain ⟨r, hr, hurl⟩ := hc.owned k p hk
    by_cases hi : p.run = i
    · exact ⟨f r, getElem?_modify_eq_some.mpr (.inl ⟨hi, r, hi ▸ hr, rfl⟩),
        hurl.trans (hf r).1.symm⟩
    · exact ⟨r, getElem?_modify_eq_some.mpr (.inr ⟨hi, hr⟩), hurl⟩
  · intro i' r hr harmed
    rcases getElem?_modify_eq_some.mp hr with ⟨rfl, old, -, rfl⟩ | ⟨-, hold⟩
    · rcases htimer with hnone | hfailed
      · exact absurd (hnone old) harmed
      · exact hfailed
    · exact hc.timer i' r hold harmed
  · intro k hk
    rw [List.length_modify]
    exact hc.session k hk

/-- A timer that fires publishes for its own run, which has not been cancelled. -/
theorem Inv.fire {c : Connection} (hc : c.Inv) (i : Nat) : (c.fire i).Inv := by
  unfold Connection.fire
  split
  · rename_i url cancelled n delay hr
    -- its timer was armed, so all its publishes had failed
    have hoff := hc.setTimer (i := i) (f := fun r => { r with timer := none })
      (fun _ => ⟨rfl, rfl⟩) (.inl fun _ => rfl)
    refine hoff.tick ?_ ?_
    · exact hc.timer i _ hr (Option.some_ne_none delay)
    · intro r hr'
      rcases getElem?_modify_eq_some.mp hr' with ⟨-, old, -, rfl⟩ | ⟨hne, -⟩
      · rfl
      · exact absurd rfl hne
  · exact hc

theorem getElem?_settle {c : Connection} {k j : Nat} {outcome : PublishOutcome} {p : Publish} :
    (c.settle k outcome).publishes[j]? = some p ↔
      (j = k ∧ ∃ old, c.publishes[k]? = some old ∧ p = { old with outcome }) ∨
        (j ≠ k ∧ c.publishes[j]? = some p) :=
  getElem?_modify_eq_some

/-- A publish that was awaited settles. -/
theorem Inv.settle {c : Connection} (hc : c.Inv) {k : Nat} {p : Publish}
    (hk : c.publishes[k]? = some p) (hp : p.outcome = .awaited) (outcome : PublishOutcome) :
    (c.settle k outcome).Inv := by
  -- every publish comes from an old one, which had not failed unless it was settled before
  have hold : ∀ {j q}, (c.settle k outcome).publishes[j]? = some q → ∃ old,
      c.publishes[j]? = some old ∧ q.run = old.run ∧ q.relayUrl = old.relayUrl ∧
        (j ≠ k → q.outcome = old.outcome) := by
    intro j q hj
    rcases getElem?_settle.mp hj with ⟨rfl, old, hold, rfl⟩ | ⟨-, hold⟩
    · exact ⟨old, hold, rfl, rfl, fun hne => absurd rfl hne⟩
    · exact ⟨q, hold, rfl, rfl, fun _ => rfl⟩
  have hlive : ∀ {j : Nat} {q old : Publish}, (c.settle k outcome).publishes[j]? = some q →
      c.publishes[j]? = some old → q.outcome ≠ .rejected → old.outcome ≠ .rejected := by
    intro j q old hj hold' hq
    rcases getElem?_settle.mp hj with ⟨rfl, _, -, -⟩ | ⟨-, hj⟩
    · obtain rfl := Option.some.inj (hk.symm.trans hold')
      rw [hp]
      exact nofun
    · obtain rfl := Option.some.inj (hj.symm.trans hold')
      exact hq
  refine ⟨hc.last, ?_, ?_, ?_, ?_⟩
  · intro j q hj
    obtain ⟨old, hj', hrun, hurl, -⟩ := hold hj
    obtain ⟨r, hr, hurl'⟩ := hc.owned j old hj'
    exact ⟨r, hrun ▸ hr, hurl.trans hurl'⟩
  · intro i j q q' hi hj hrun hq hq'
    obtain ⟨old, hi', hrun₁, -, -⟩ := hold hi
    obtain ⟨old', hj', hrun₂, -, -⟩ := hold hj
    exact hc.single i j old old' hi' hj' (hrun₁.symm.trans (hrun.trans hrun₂)) (hlive hi hi' hq)
      (hlive hj hj' hq')
  · intro i r hr harmed j q hj hrun
    obtain ⟨old, hj', hrun', -, hsame⟩ := hold hj
    have hrejected := hc.timer i r hr harmed j old hj' (hrun'.symm.trans hrun)
    by_cases hne : j = k
    · subst hne
      obtain rfl := Option.some.inj (hk.symm.trans hj')
      rw [hp] at hrejected
      cases hrejected
    · exact (hsame hne).trans hrejected
  · intro j hj
    obtain ⟨q, hq, hresolved, hlast⟩ := hc.session j hj
    refine ⟨q, getElem?_settle.mpr (.inr ⟨?_, hq⟩), hresolved, hlast⟩
    rintro rfl
    obtain rfl := Option.some.inj (hk.symm.trans hq)
    rw [hp] at hresolved
    cases hresolved

/-- A publish that succeeds sets the session and the status only if its run has not been cancelled. -/
theorem Inv.resolve {c : Connection} (hc : c.Inv) (k : Nat) : (c.resolve k).Inv := by
  rcases resolve_cases c k with heq | ⟨p, hk, hp, heq | ⟨r, hr, hlive, heq⟩⟩
  · rw [heq]
    exact hc
  · rw [heq]
    exact hc.settle hk hp .resolved
  · have hsettled := hc.settle hk hp .resolved
    rw [heq]
    refine ⟨hsettled.last, hsettled.owned, hsettled.single, hsettled.timer, ?_⟩
    intro j hj
    obtain rfl := Option.some.inj hj
    exact ⟨_, getElem?_settle.mpr (.inl ⟨rfl, _, hk, rfl⟩), rfl, hc.last p.run r hr hlive⟩

/-- One that fails arms the timer of its run, and only if that has not been cancelled. -/
theorem Inv.reject {c : Connection} (hc : c.Inv) (k : Nat) (message : String) :
    (c.reject k message).Inv := by
  rcases reject_cases c k message with
    heq | ⟨p, hk, hp, heq | ⟨r, status, delay, hr, hlive, -, heq⟩⟩
  · rw [heq]
    exact hc
  · rw [heq]
    exact hc.settle hk hp .rejected
  · have hsettled := hc.settle hk hp .rejected
    -- it was the only publish of its run that had not failed
    have hfailed : ∀ (j : Nat) (q : Publish), (c.settle k .rejected).publishes[j]? = some q →
        q.run = p.run → q.outcome = .rejected := by
      intro j q hj hrun
      rcases getElem?_settle.mp hj with ⟨-, old, -, rfl⟩ | ⟨hne, hold⟩
      · rfl
      · by_contra hq
        have hne' : p.outcome ≠ .rejected := by
          rw [hp]
          exact nofun
        exact hne (hc.single j k q p hold hk hrun hq hne')
    have hrearm : Inv { c.settle k .rejected with
        runs := c.runs.modify p.run fun r' =>
          { r' with attemptIdx := r.attemptIdx + 1, timer := some delay } } :=
      hsettled.setTimer (fun _ => ⟨rfl, rfl⟩) (.inr hfailed)
    rw [heq]
    exact ⟨hrearm.last, hrearm.owned, hrearm.single, hrearm.timer, hrearm.session⟩

/-- **One step.** -/
theorem Inv.step {c : Connection} (hc : c.Inv) (e : HookEvent) : (c.step e).Inv := by
  cases e with
  | load recipientId =>
    refine hc.update
      (fun s => if s.identity = none then { s with identity := some recipientId } else s) ?_
    split
    · rfl
    · rfl
  | setUrl url => exact hc.update (fun s => { s with relayUrl := url }) rfl
  | retry => exact hc.update (fun s => { s with retryCount := s.retryCount + 1 }) rfl
  | render => exact hc.render
  | effects => exact hc.flushEffects
  | unmount =>
    show (if c.unmounted then c else { c.flushEffects.cleanup with unmounted := true }).Inv
    split
    · exact hc
    · obtain ⟨h, -⟩ := hc.flushEffects.cleanup
      exact ⟨h.last, h.owned, h.single, h.timer, h.session⟩
  | timer i => exact hc.fire i
  | resolve k => exact hc.resolve k
  | reject k message => exact hc.reject k message

/-- Before the first effect there is no run and no publish. -/
theorem inv_mount (relayUrl : String) : (mount relayUrl).Inv := by
  refine ⟨?_, ?_, ?_, ?_, ?_⟩
  · intro i r hr
    cases hr
  · intro k p hk
    cases hk
  · intro j k p q hj
    cases hj
  · intro i r hr
    cases hr
  · intro k hk
    cases hk

/-! ## What a step does to the publishes -/

/-- Runs and publishes are only added; a new publish is awaited; one that was awaited may have settled,
    with success only if it is `resolves`. -/
structure Extends (resolves : Option Nat) (c c' : Connection) : Prop where
  runs : c.runs.length ≤ c'.runs.length
  publishes : c.publishes.length ≤ c'.publishes.length
  outcome : ∀ (k : Nat) (p' : Publish), c'.publishes[k]? = some p' →
    (c.publishes.length ≤ k ∧ p'.outcome = .awaited) ∨
    ∃ p, c.publishes[k]? = some p ∧ p'.run = p.run ∧ p'.relayUrl = p.relayUrl ∧
      (p'.outcome = p.outcome ∨ p.outcome = .awaited ∧
        (p'.outcome = .rejected ∨ (p'.outcome = .resolved ∧ resolves = some k)))

/-- What leaves the publishes alone extends the history, whatever else it does. -/
theorem extends_of_eq {c c' : Connection} (hruns : c.runs.length ≤ c'.runs.length)
    (hpublishes : c'.publishes = c.publishes) (resolves : Option Nat) : Extends resolves c c' := by
  refine ⟨hruns, Nat.le_of_eq (congrArg List.length hpublishes).symm, ?_⟩
  · intro k p' hk
    rw [hpublishes] at hk
    exact .inr ⟨p', hk, rfl, rfl, .inl rfl⟩

theorem extends_tick {c c' : Connection} (hruns : c.runs.length ≤ c'.runs.length)
    (hpublishes : c'.publishes = c.publishes) (i : Nat) (resolves : Option Nat) :
    Extends resolves c (c'.tick i) := by
  unfold tick
  split
  · exact extends_of_eq hruns hpublishes resolves
  · split
    · exact extends_of_eq hruns hpublishes resolves
    · refine ⟨hruns, ?_, ?_⟩
      · show c.publishes.length ≤ (c'.publishes ++ [_]).length
        rw [hpublishes, List.length_append]
        exact Nat.le_add_right _ _
      · intro k p' hk
        rcases getElem?_concat_eq_some.mp hk with hold | ⟨rfl, rfl⟩
        · rw [hpublishes] at hold
          exact .inr ⟨p', hold, rfl, rfl, .inl rfl⟩
        · exact .inl ⟨Nat.le_of_eq (congrArg List.length hpublishes).symm, rfl⟩

/-- The effects add a run and its first publish, or nothing. -/
theorem extends_flushEffects (c : Connection) (resolves : Option Nat) :
    Extends resolves c c.flushEffects := by
  unfold flushEffects
  split
  · exact extends_of_eq (Nat.le_refl _) rfl resolves
  · dsimp only
    split
    · apply extends_of_eq
      · exact Nat.le_of_eq (length_cleanup c).symm
      · rfl
    · unfold startRun
      refine extends_tick ?_ (by rfl) _ resolves
      show c.runs.length ≤ (c.cleanup.runs ++ [_]).length
      rw [List.length_append, length_cleanup]
      exact Nat.le_add_right _ _

/-- A publish that settles was awaited until now, and is settled by the event that says so. -/
theorem extends_settle {c c' : Connection} {k : Nat} {p : Publish} {outcome : PublishOutcome}
    (hk : c.publishes[k]? = some p) (hp : p.outcome = .awaited)
    (hruns : c'.runs.length = c.runs.length)
    (hpublishes : c'.publishes = (c.settle k outcome).publishes) {resolves : Option Nat}
    (houtcome : outcome = .rejected ∨ (outcome = .resolved ∧ resolves = some k)) :
    Extends resolves c c' := by
  refine ⟨Nat.le_of_eq hruns.symm, ?_, ?_⟩
  · rw [hpublishes]
    exact Nat.le_of_eq (List.length_modify ..).symm
  · intro j p' hj
    rw [hpublishes] at hj
    rcases getElem?_settle.mp hj with ⟨rfl, old, hold, rfl⟩ | ⟨-, hold⟩
    · obtain rfl := Option.some.inj (hk.symm.trans hold)
      exact .inr ⟨p, hk, rfl, rfl, .inr ⟨hp, houtcome⟩⟩
    · exact .inr ⟨p', hold, rfl, rfl, .inl rfl⟩

/-- **What one event can do.** -/
theorem extends_step (c : Connection) (e : HookEvent) : Extends e.resolves c (c.step e) := by
  have hupdate : ∀ f, Extends none c (c.update f) := by
    intro f
    unfold update
    split
    · exact extends_of_eq (Nat.le_refl _) rfl _
    · apply extends_of_eq
      · exact Nat.le_refl _
      · rfl
  cases e with
  | load recipientId => apply hupdate
  | setUrl url => exact hupdate fun s => { s with relayUrl := url }
  | retry => exact hupdate fun s => { s with retryCount := s.retryCount + 1 }
  | render =>
    show Extends none c c.render
    unfold render
    split
    · exact extends_of_eq (Nat.le_refl _) rfl _
    · have h := extends_flushEffects c none
      exact ⟨h.runs, h.publishes, h.outcome⟩
  | effects => exact extends_flushEffects c none
  | unmount =>
    show Extends none c (if c.unmounted then c else { c.flushEffects.cleanup with unmounted := true })
    split
    · exact extends_of_eq (Nat.le_refl _) rfl _
    · have h := extends_flushEffects c none
      refine ⟨?_, h.publishes, h.outcome⟩
      exact Nat.le_trans h.runs (Nat.le_of_eq (length_cleanup _).symm)
  | timer i =>
    show Extends none c (c.fire i)
    unfold fire
    split
    · refine extends_tick ?_ (by rfl) i none
      exact Nat.le_of_eq (List.length_modify ..).symm
    · exact extends_of_eq (Nat.le_refl _) rfl _
  | resolve k =>
    show Extends (some k) c (c.resolve k)
    rcases resolve_cases c k with heq | ⟨p, hk, hp, heq | ⟨r, -, -, heq⟩⟩
    · rw [heq]
      exact extends_of_eq (Nat.le_refl _) rfl _
    · rw [heq]
      refine extends_settle hk hp ?_ ?_ (.inr ⟨rfl, rfl⟩)
      · rfl
      · rfl
    · rw [heq]
      refine extends_settle hk hp ?_ ?_ (.inr ⟨rfl, rfl⟩)
      · rfl
      · rfl
  | reject k message =>
    show Extends none c (c.reject k message)
    rcases reject_cases c k message with heq | ⟨p, hk, hp, heq | ⟨r, status, delay, -, -, -, heq⟩⟩
    · rw [heq]
      exact extends_of_eq (Nat.le_refl _) rfl _
    · rw [heq]
      refine extends_settle hk hp ?_ ?_ (.inl rfl)
      · rfl
      · rfl
    · rw [heq]
      refine extends_settle hk hp ?_ ?_ (.inl rfl)
      · exact List.length_modify ..
      · rfl

/-! ## What timers and publishes leave alone -/

/-- Everything but the status, the error, the session, the attempts and the publishes is the same. -/
structure Keeps (c c' : Connection) : Prop where
  relayUrl : c'.state.relayUrl = c.state.relayUrl
  identity : c'.state.identity = c.state.identity
  rendered : c'.rendered = c.rendered
  effectDeps : c'.effectDeps = c.effectDeps
  unmounted : c'.unmounted = c.unmounted
  headers : c'.runs.map EffectRun.header = c.runs.map EffectRun.header

theorem keeps_self (c : Connection) : Keeps c c := ⟨rfl, rfl, rfl, rfl, rfl, rfl⟩

theorem map_header_modify (runs : List EffectRun) (i : Nat) {f : EffectRun → EffectRun}
    (hf : ∀ r, (f r).header = r.header) :
    (runs.modify i f).map EffectRun.header = runs.map EffectRun.header := by
  apply List.ext_getElem?
  intro j
  rw [List.getElem?_map, List.getElem?_map, List.getElem?_modify]
  cases runs[j]? with
  | none => rfl
  | some r =>
    by_cases hj : i = j
    · simp [hj, hf]
    · simp [hj]

/-- `tick` touches the attempts and the list of publishes, and of the runs only the timers. -/
theorem keeps_tick {c c' : Connection} (h : Keeps c c') (i : Nat) : Keeps c (c'.tick i) := by
  unfold tick
  split
  · exact h
  · split
    · exact h
    · refine ⟨?_, ?_, h.rendered, h.effectDeps, h.unmounted, h.headers⟩
      · rw [← h.relayUrl]
        dsimp only
        split <;> rfl
      · rw [← h.identity]
        dsimp only
        split <;> rfl

theorem keeps_fire (c : Connection) (i : Nat) : Keeps c (c.fire i) := by
  unfold fire
  split
  · have hoff : Keeps c { c with runs := c.runs.modify i fun r => { r with timer := none } } :=
      ⟨rfl, rfl, rfl, rfl, rfl, map_header_modify c.runs i fun _ => rfl⟩
    exact keeps_tick hoff i
  · exact keeps_self c

/-- A success touches the status, the error, the session and the attempts. -/
theorem keeps_resolve (c : Connection) (k : Nat) : Keeps c (c.resolve k) := by
  rcases resolve_cases c k with heq | ⟨p, -, -, heq | ⟨r, -, -, heq⟩⟩
  · rw [heq]
    exact keeps_self c
  · rw [heq]
    exact ⟨rfl, rfl, rfl, rfl, rfl, rfl⟩
  · rw [heq]
    exact ⟨rfl, rfl, rfl, rfl, rfl, rfl⟩

/-- A failure touches the status, the error and the timer of its run. -/
theorem keeps_reject (c : Connection) (k : Nat) (message : String) :
    Keeps c (c.reject k message) := by
  rcases reject_cases c k message with heq | ⟨p, -, -, heq | ⟨r, status, delay, -, -, -, heq⟩⟩
  · rw [heq]
    exact keeps_self c
  · rw [heq]
    exact ⟨rfl, rfl, rfl, rfl, rfl, rfl⟩
  · rw [heq]
    exact ⟨rfl, rfl, rfl, rfl, rfl, map_header_modify c.runs p.run fun _ => rfl⟩

/-- The effect leaves the configured relay and what is rendered alone. -/
theorem flushEffects_frame (c : Connection) :
    c.flushEffects.state.relayUrl = c.state.relayUrl ∧ c.flushEffects.rendered = c.rendered := by
  unfold flushEffects
  split
  · exact ⟨rfl, rfl⟩
  · dsimp only
    split
    · exact ⟨rfl, rfl⟩
    · have h := keeps_tick (keeps_self { c.cleanup with
        effectDeps := some c.rendered.deps
        state := { c.state with receiverSession := none }
        runs := c.cleanup.runs ++ [⟨c.rendered.relayUrl, false, 0, none⟩] }) c.cleanup.runs.length
      exact ⟨h.relayUrl, h.rendered⟩

/-- Only `setUrl` changes the configured relay. -/
theorem relayUrl_step (c : Connection) (e : HookEvent) (he : ∀ url, e ≠ .setUrl url) :
    (c.step e).state.relayUrl = c.state.relayUrl := by
  have hflush := (flushEffects_frame c).1
  have hupdate : ∀ f : HookState → HookState, (f c.state).relayUrl = c.state.relayUrl →
      (c.update f).state.relayUrl = c.state.relayUrl := by
    intro f hf
    unfold update
    split
    · rfl
    · exact hf
  cases e with
  | load recipientId =>
    refine hupdate
      (fun s => if s.identity = none then { s with identity := some recipientId } else s) ?_
    split
    · rfl
    · rfl
  | setUrl url => exact absurd rfl (he url)
  | retry => exact hupdate (fun s => { s with retryCount := s.retryCount + 1 }) rfl
  | render =>
    show c.render.state.relayUrl = c.state.relayUrl
    unfold render
    split
    · rfl
    · exact hflush
  | effects => exact hflush
  | unmount =>
    show (if c.unmounted then c else
      { c.flushEffects.cleanup with unmounted := true }).state.relayUrl = c.state.relayUrl
    split
    · rfl
    · exact hflush
  | timer i => exact (keeps_fire c i).relayUrl
  | resolve k => exact (keeps_resolve c k).relayUrl
  | reject k message => exact (keeps_reject c k message).relayUrl

end Connection

end E2EMessaging.Web
