/-
  THE STATUS OF THE RELAY CONNECTION (`clients/web/src/useRelayConnection.tsx`).

  The hook of `Web/RelayConnection`, over every order of its events.  A cancelled run may still have a
  publish under way and a timer that fires late; the last run retries by itself; what is rendered lags
  behind what is queued.  All the same

  * a cancelled run changes nothing any more and starts nothing (`Cancelled.step`, `Cancelled.silent`);
  * a run waits for at most one thing, and for nothing once it has succeeded (`outstanding_le_one`);
  * every state the hook queues, and so every state it renders, shows `connected` exactly with a session
    (`Agrees`), and the last run works for the dependencies the effect last ran with (`Current`).

  The events are those of the hook alone: the flag it keeps in `localStorage` is written without failing.
-/
import E2EMessaging.Web.RelayConnection

namespace E2EMessaging.Web

open E2EMessaging.Lib

/-- The events of a run: its timer, and the continuations of its publishes. -/
def HookEvent.OfRun (c : Connection) (i : Nat) : HookEvent → Prop
  | .timer j => j = i
  | .resolve k => ∃ p, c.publishes[k]? = some p ∧ p.run = i
  | .reject k _ => ∃ p, c.publishes[k]? = some p ∧ p.run = i
  | _ => False

namespace Connection

/-- The run has been cleaned up. -/
def Cancelled (c : Connection) (i : Nat) : Prop := ∃ r, c.runs[i]? = some r ∧ r.cancelled = true

/-- How many publishes a run has started. -/
def started (c : Connection) (i : Nat) : Nat := (c.publishes.map (·.run)).count i

/-- How many things a run waits for: publishes, and its timer. -/
def outstanding (c : Connection) (i : Nat) : Nat :=
  c.publishes.countP (fun p => p.run = i ∧ p.outcome = .awaited) +
    (if (c.runs[i]?.bind (·.timer)).isSome then 1 else 0)

/-- No update is pending: all are rendered, and the effect has run for what is rendered. -/
structure Settled (c : Connection) : Prop where
  mounted : c.unmounted = false
  applied : c.rendered = c.state
  flushed : c.effectDeps = some c.rendered.deps

/-! ## Cancelled runs -/

theorem map_run_settle (c : Connection) (k : Nat) (outcome : PublishOutcome) :
    (c.settle k outcome).publishes.map (·.run) = c.publishes.map (·.run) := by
  apply List.ext_getElem?
  intro j
  rw [List.getElem?_map, List.getElem?_map, settle, List.getElem?_modify]
  cases c.publishes[j]? with
  | none => rfl
  | some p =>
    by_cases hj : k = j
    · simp [hj]
    · simp [hj]

theorem started_settle (c : Connection) (k : Nat) (outcome : PublishOutcome) (i : Nat) :
    (c.settle k outcome).started i = c.started i := by
  rw [started, map_run_settle]
  rfl

/-- Runs are changed, but not back from being cancelled. -/
theorem Cancelled.modify {c : Connection} {i : Nat} (hc : c.Cancelled i) (j : Nat)
    {f : EffectRun → EffectRun} (hf : ∀ r, r.cancelled = true → (f r).cancelled = true) :
    ∃ r, (c.runs.modify j f)[i]? = some r ∧ r.cancelled = true := by
  obtain ⟨r, hr, hcancelled⟩ := hc
  by_cases hi : i = j
  · subst hi
    exact ⟨f r, getElem?_modify_eq_some.mpr (.inl ⟨rfl, r, hr, rfl⟩), hf r hcancelled⟩
  · exact ⟨r, getElem?_modify_eq_some.mpr (.inr ⟨hi, hr⟩), hcancelled⟩

/-- A run that has been cancelled is not the one that is alive. -/
theorem Cancelled.not_live {c : Connection} {i : Nat} (hc : c.Cancelled i) {r : EffectRun}
    (hr : c.runs[i]? = some r) : r.cancelled ≠ false := by
  obtain ⟨r', hr', hcancelled⟩ := hc
  obtain rfl := Option.some.inj (hr.symm.trans hr')
  rw [hcancelled]
  exact Bool.true_eq_false.mp

/-- `tick` looks at `cancelled` first. -/
theorem Cancelled.tick_eq {c : Connection} {i : Nat} (hc : c.Cancelled i) : c.tick i = c := by
  obtain ⟨r, hr, hcancelled⟩ := hc
  rw [Connection.tick, hr]
  exact if_pos hcancelled

/-- A publish is that of another run. -/
theorem Cancelled.tick {c : Connection} {i : Nat} (hc : c.Cancelled i) (j : Nat) :
    (c.tick j).Cancelled i ∧ (c.tick j).started i = c.started i := by
  by_cases hne : j = i
  · subst hne
    rw [hc.tick_eq]
    exact ⟨hc, rfl⟩
  · unfold Connection.tick
    split
    · exact ⟨hc, rfl⟩
    · split
      · exact ⟨hc, rfl⟩
      · refine ⟨hc, ?_⟩
        simp [started, List.count_append, hne]

/-- A timer is cleared. -/
theorem Cancelled.clearTimer {c : Connection} {i : Nat} (hc : c.Cancelled i) (j : Nat) :
    Cancelled { c with runs := c.runs.modify j fun r => { r with timer := none } } i :=
  hc.modify j fun _ h => h

/-- A new run does not revive an old one, and publishes for itself. -/
theorem Cancelled.flushEffects {c : Connection} {i : Nat} (hc : c.Cancelled i) :
    c.flushEffects.Cancelled i ∧ c.flushEffects.started i = c.started i := by
  unfold Connection.flushEffects
  split
  · exact ⟨hc, rfl⟩
  · have hclean : c.cleanup.Cancelled i := hc.modify _ fun _ _ => rfl
    dsimp only
    split
    · exact ⟨hclean, rfl⟩
    · -- the new run comes after this one
      refine Cancelled.tick ?_ _
      obtain ⟨r, hr, hcancelled⟩ := hclean
      exact ⟨r, getElem?_concat_eq_some.mpr (.inl hr), hcancelled⟩

/-- **A cancelled run stays so, and starts no publish, whatever happens.** -/
theorem Cancelled.step {c : Connection} {i : Nat} (hc : c.Cancelled i) (e : HookEvent) :
    (c.step e).Cancelled i ∧ (c.step e).started i = c.started i := by
  have hupdate : ∀ f, (c.update f).Cancelled i ∧ (c.update f).started i = c.started i := by
    intro f
    unfold update
    split
    · exact ⟨hc, rfl⟩
    · exact ⟨hc, rfl⟩
  cases e with
  | load recipientId => apply hupdate
  | setUrl url => exact hupdate fun s => { s with relayUrl := url }
  | retry => exact hupdate fun s => { s with retryCount := s.retryCount + 1 }
  | render =>
    show c.render.Cancelled i ∧ c.render.started i = c.started i
    unfold render
    split
    · exact ⟨hc, rfl⟩
    · exact hc.flushEffects
  | effects => exact hc.flushEffects
  | unmount =>
    rw [Connection.step]
    split
    · exact ⟨hc, rfl⟩
    · obtain ⟨hflush, hstarted⟩ := hc.flushEffects
      exact ⟨hflush.modify _ fun _ _ => rfl, hstarted⟩
  | timer j =>
    show (c.fire j).Cancelled i ∧ (c.fire j).started i = c.started i
    unfold fire
    split
    · exact (hc.clearTimer j).tick j
    · exact ⟨hc, rfl⟩
  | resolve k =>
    show (c.resolve k).Cancelled i ∧ (c.resolve k).started i = c.started i
    rcases resolve_cases c k with heq | ⟨p, -, -, heq | ⟨r, -, -, heq⟩⟩
    · rw [heq]
      exact ⟨hc, rfl⟩
    · rw [heq]
      exact ⟨hc, started_settle c k _ i⟩
    · rw [heq]
      exact ⟨hc, started_settle c k _ i⟩
  | reject k message =>
    show (c.reject k message).Cancelled i ∧ (c.reject k message).started i = c.started i
    rcases reject_cases c k message with heq | ⟨p, -, -, heq | ⟨r, status, delay, -, -, -, heq⟩⟩
    · rw [heq]
      exact ⟨hc, rfl⟩
    · rw [heq]
      exact ⟨hc, started_settle c k _ i⟩
    · rw [heq]
      exact ⟨hc.modify _ fun _ h => h, started_settle c k _ i⟩

/-- **The events of a cancelled run change nothing that is shown, and start nothing.** -/
theorem Cancelled.silent {c : Connection} {i : Nat} (hc : c.Cancelled i) {e : HookEvent}
    (he : e.OfRun c i) :
    (c.step e).state = c.state ∧ (c.step e).rendered = c.rendered ∧
      (c.step e).publishes.length = c.publishes.length := by
  cases e with
  | load recipientId => exact he.elim
  | setUrl url => exact he.elim
  | retry => exact he.elim
  | render => exact he.elim
  | effects => exact he.elim
  | unmount => exact he.elim
  | timer j =>
    obtain rfl : j = i := he
    rw [Connection.step]
    unfold fire
    split
    · rw [(hc.clearTimer j).tick_eq]
      exact ⟨rfl, rfl, rfl⟩
    · exact ⟨rfl, rfl, rfl⟩
  | resolve k =>
    obtain ⟨p, hp, rfl⟩ := he
    rw [Connection.step]
    rcases resolve_cases c k with heq | ⟨p', hp', -, heq | ⟨r, hr, hlive, -⟩⟩
    · rw [heq]
      exact ⟨rfl, rfl, rfl⟩
    · rw [heq]
      exact ⟨rfl, rfl, List.length_modify ..⟩
    · obtain rfl := Option.some.inj (hp.symm.trans hp')
      exact absurd hlive (hc.not_live hr)
  | reject k message =>
    obtain ⟨p, hp, rfl⟩ := he
    rw [Connection.step]
    rcases reject_cases c k message with
      heq | ⟨p', hp', -, heq | ⟨r, status, delay, hr, hlive, -, -⟩⟩
    · rw [heq]
      exact ⟨rfl, rfl, rfl⟩
    · rw [heq]
      exact ⟨rfl, rfl, List.length_modify ..⟩
    · obtain rfl := Option.some.inj (hp.symm.trans hp')
      exact absurd hlive (hc.not_live hr)

/-! ## What a run waits for -/

/-- A publish that is awaited is the only one of its run that has not failed. -/
theorem Inv.countP_awaited {c : Connection} (hc : c.Inv) (i : Nat) :
    c.publishes.countP (fun p => p.run = i ∧ p.outcome = .awaited) ≤ 1 := by
  apply countP_le_one
  intro j k p q hj hk hp hq
  obtain ⟨hprun, hpawaited⟩ := of_decide_eq_true hp
  obtain ⟨hqrun, hqawaited⟩ := of_decide_eq_true hq
  apply hc.single j k p q hj hk (hprun.trans hqrun.symm)
  · rw [hpawaited]
    exact nofun
  · rw [hqawaited]
    exact nofun

/-- No publish of the run is awaited: as a count, and one by one. -/
theorem countP_awaited_eq_zero {c : Connection} {i : Nat} :
    c.publishes.countP (fun p => p.run = i ∧ p.outcome = .awaited) = 0 ↔
      ∀ p ∈ c.publishes, p.run = i → p.outcome ≠ .awaited := by
  rw [List.countP_eq_zero]
  simp

/-- A timer that is armed belongs to a run there is. -/
theorem exists_armed {c : Connection} {i : Nat} (h : (c.runs[i]?.bind (·.timer)).isSome) :
    ∃ r, c.runs[i]? = some r ∧ r.timer ≠ none := by
  obtain ⟨delay, hdelay⟩ := Option.isSome_iff_exists.mp h
  obtain ⟨r, hr, hdelay⟩ := Option.bind_eq_some_iff.mp hdelay
  refine ⟨r, hr, ?_⟩
  rw [hdelay]
  exact Option.some_ne_none delay

/-- **A run waits for at most one thing.** -/
theorem Inv.outstanding_le_one {c : Connection} (hc : c.Inv) (i : Nat) : c.outstanding i ≤ 1 := by
  rw [outstanding]
  split
  · rename_i harmed
    obtain ⟨r, hr, hne⟩ := exists_armed harmed
    have hzero := (countP_awaited_eq_zero (c := c) (i := i)).mpr (by
      intro p hp hrun hawaited
      obtain ⟨k, hk⟩ := List.mem_iff_getElem?.mp hp
      have hrejected := hc.timer i r hr hne k p hk hrun
      rw [hawaited] at hrejected
      cases hrejected)
    exact Nat.le_of_eq (by rw [hzero])
  · exact hc.countP_awaited i

/-- **A run that has succeeded waits for nothing.** -/
theorem Inv.outstanding_of_resolved {c : Connection} (hc : c.Inv) {p : Publish}
    (hp : p ∈ c.publishes) (hresolved : p.outcome = .resolved) : c.outstanding p.run = 0 := by
  obtain ⟨k, hk⟩ := List.mem_iff_getElem?.mp hp
  have hrejected : p.outcome ≠ .rejected := by
    rw [hresolved]
    exact nofun
  have hawaited := (countP_awaited_eq_zero (c := c) (i := p.run)).mpr (by
    intro q hq hrun hawaited
    obtain ⟨j, hj⟩ := List.mem_iff_getElem?.mp hq
    have hne : q.outcome ≠ .rejected := by
      rw [hawaited]
      exact nofun
    obtain rfl := hc.single j k q p hj hk hrun hne hrejected
    obtain rfl := Option.some.inj (hj.symm.trans hk)
    rw [hresolved] at hawaited
    cases hawaited)
  rw [outstanding, hawaited]
  split
  · rename_i harmed
    obtain ⟨r, hr, hne⟩ := exists_armed harmed
    exact absurd (hc.timer p.run r hr hne k p hk rfl) hrejected
  · rfl

/-! ## What is shown -/

/-- `connected` is shown exactly with a session. -/
def Agrees (s : HookState) : Prop := s.status = .connected ↔ s.receiverSession ≠ none

/-- The last run works for the dependencies the effect last ran with; before the identity is loaded there is
    none.  An identity that was rendered stays. -/
structure Current (c : Connection) : Prop where
  live : ∀ d, c.effectDeps = some d → d.identity ≠ none → c.unmounted = false →
    (c.runs.map EffectRun.header).getLast? = some (d.relayUrl, false)
  idle : (∀ d, c.effectDeps = some d → d.identity = none) → c.runs.map EffectRun.header = []
  ran : ∀ d, c.effectDeps = some d → d.identity ≠ none → c.rendered.identity ≠ none
  shown : c.rendered.identity ≠ none → c.state.identity ≠ none

/-- What the timers, the attempts and the publishes do is not seen. -/
theorem Current.of_keeps {c c' : Connection} (hc : c.Current) (h : Keeps c c') : c'.Current := by
  refine ⟨?_, ?_, ?_, ?_⟩
  · rw [h.effectDeps, h.unmounted, h.headers]
    exact hc.live
  · rw [h.effectDeps, h.headers]
    exact hc.idle
  · rw [h.effectDeps, h.rendered]
    exact hc.ran
  · rw [h.rendered, h.identity]
    exact hc.shown

/-- `tick` changes the status alone, and only to `connecting`. -/
theorem tick_state (c : Connection) (i : Nat) :
    (c.tick i).state = c.state ∨ (c.tick i).state = { c.state with status := .connecting } := by
  unfold tick
  split
  · exact .inl rfl
  · split
    · exact .inl rfl
    · dsimp only
      split
      · exact .inr rfl
      · exact .inl rfl

/-- A run starts with its first attempt: no session, and `connecting`. -/
theorem startRun_state (c : Connection) :
    c.startRun.state = { c.state with receiverSession := none, status := .connecting } := by
  unfold startRun tick
  dsimp only
  rw [List.getElem?_concat_length]
  dsimp only
  rw [if_neg Bool.false_ne_true, if_pos (by decide)]

/-- The session, if there is one, is not that of a live run that still tries. -/
theorem Inv.session_eq_none {c : Connection} (hc : c.Inv) {i : Nat} {r : EffectRun}
    (hr : c.runs[i]? = some r) (hlive : r.cancelled = false)
    (htries : ∀ (k : Nat) (p : Publish), c.publishes[k]? = some p → p.run = i →
      p.outcome ≠ .resolved) : c.state.receiverSession = none := by
  cases hsession : c.state.receiverSession with
  | none => rfl
  | some k =>
    obtain ⟨p, hp, hresolved, hlast⟩ := hc.session k hsession
    have hi := hc.last i r hr hlive
    exact absurd hresolved (htries k p hp (by omega))

/-- Without a session, every status but `connected` agrees. -/
theorem agrees_of_none {s : HookState} (hsession : s.receiverSession = none)
    (hstatus : s.status ≠ .connected) : Agrees s := by
  constructor
  · intro h
    exact absurd h hstatus
  · intro h
    exact absurd hsession h

theorem Agrees.of_eq {s s' : HookState} (h : Agrees s) (hstatus : s'.status = s.status)
    (hsession : s'.receiverSession = s.receiverSession) : Agrees s' := by
  rw [Agrees, hstatus, hsession]
  exact h

/-- A new run drops the session and is connecting: no session, not connected. -/
theorem Agrees.flushEffects {c : Connection} (hagrees : Agrees c.state) :
    Agrees c.flushEffects.state := by
  unfold Connection.flushEffects
  split
  · exact hagrees
  · dsimp only
    split
    · exact hagrees
    · rw [startRun_state]
      exact agrees_of_none rfl nofun

/-- The timer of a live run fires while all its publishes have failed. -/
theorem Agrees.fire {c : Connection} (hagrees : Agrees c.state) (hc : c.Inv) (i : Nat) :
    Agrees (c.fire i).state := by
  unfold Connection.fire
  split
  · rename_i url cancelled n delay hr
    rcases tick_state { c with runs := c.runs.modify i fun r => { r with timer := none } } i with
      heq | heq
    · rw [heq]
      exact hagrees
    · cases cancelled with
      | true =>
        have hcancelled : c.Cancelled i := ⟨_, hr, rfl⟩
        rw [(hcancelled.clearTimer i).tick_eq]
        exact hagrees
      | false =>
        rw [heq]
        refine agrees_of_none ?_ nofun
        refine hc.session_eq_none hr rfl ?_
        intro k p hk hrun hresolved
        have hrejected := hc.timer i _ hr (Option.some_ne_none delay) k p hk hrun
        rw [hresolved] at hrejected
        cases hrejected
  · exact hagrees

theorem Agrees.resolve {c : Connection} (hagrees : Agrees c.state) (k : Nat) :
    Agrees (c.resolve k).state := by
  rcases resolve_cases c k with heq | ⟨p, -, -, heq | ⟨r, -, -, heq⟩⟩
  · rw [heq]
    exact hagrees
  · rw [heq]
    exact hagrees
  · rw [heq]
    exact ⟨fun _ => Option.some_ne_none k, fun _ => rfl⟩

/-- A publish fails while its run has no other that has not: there is no session. -/
theorem Agrees.reject {c : Connection} (hagrees : Agrees c.state) (hc : c.Inv) (k : Nat)
    (message : String) : Agrees (c.reject k message).state := by
  rcases reject_cases c k message with
    heq | ⟨p, hk, hp, heq | ⟨r, status, delay, hr, hlive, hstatus, heq⟩⟩
  · rw [heq]
    exact hagrees
  · rw [heq]
    exact hagrees
  · rw [heq]
    rcases hstatus with rfl | rfl
    · exact hagrees.of_eq rfl rfl
    · refine agrees_of_none ?_ nofun
      refine hc.session_eq_none hr hlive ?_
      intro j q hj hrun hresolved
      have hq : q.outcome ≠ .rejected := by
        rw [hresolved]
        exact nofun
      have hp' : p.outcome ≠ .rejected := by
        rw [hp]
        exact nofun
      obtain rfl := hc.single j k q p hj hk hrun hq hp'
      obtain rfl := Option.some.inj (hj.symm.trans hk)
      rw [hp] at hresolved
      cases hresolved

/-- The updates from outside the hook touch neither. -/
theorem Agrees.update {c : Connection} (hagrees : Agrees c.state) {f : HookState → HookState}
    (hstatus : (f c.state).status = c.state.status)
    (hsession : (f c.state).receiverSession = c.state.receiverSession) :
    Agrees (c.update f).state := by
  unfold Connection.update
  split
  · exact hagrees
  · exact hagrees.of_eq hstatus hsession

/-- **Every event queues a state that agrees.** -/
theorem Agrees.step {c : Connection} (hagrees : Agrees c.state) (hc : c.Inv) (e : HookEvent) :
    Agrees (c.step e).state := by
  cases e with
  | load recipientId =>
    apply hagrees.update
    · split
      · rfl
      · rfl
    · split
      · rfl
      · rfl
  | setUrl url => exact hagrees.update rfl rfl
  | retry => exact hagrees.update rfl rfl
  | render =>
    show Agrees c.render.state
    unfold render
    split
    · exact hagrees
    · exact hagrees.flushEffects
  | effects => exact hagrees.flushEffects
  | unmount =>
    rw [Connection.step]
    split
    · exact hagrees
    · exact hagrees.flushEffects
  | timer i => exact hagrees.fire hc i
  | resolve k => exact hagrees.resolve k
  | reject k message => exact hagrees.reject hc k message

/-- What is rendered was queued before. -/
theorem rendered_step (c : Connection) (e : HookEvent) :
    (c.step e).rendered = c.rendered ∨ (c.step e).rendered = (c.step e).state := by
  have hflush := (flushEffects_frame c).2
  have hupdate : ∀ f, (c.update f).rendered = c.rendered := by
    intro f
    unfold update
    split
    · rfl
    · rfl
  cases e with
  | load recipientId => exact .inl (hupdate _)
  | setUrl url => exact .inl (hupdate _)
  | retry => exact .inl (hupdate _)
  | render =>
    show c.render.rendered = c.rendered ∨ c.render.rendered = c.render.state
    unfold render
    split
    · exact .inl rfl
    · exact .inr rfl
  | effects => exact .inl hflush
  | unmount =>
    rw [Connection.step]
    split
    · exact .inl rfl
    · exact .inl hflush
  | timer i => exact .inl (keeps_fire c i).rendered
  | resolve k => exact .inl (keeps_resolve c k).rendered
  | reject k message => exact .inl (keeps_reject c k message).rendered

/-! ## The last run -/

/-- An update that does not take the identity away leaves the last run the current one. -/
theorem Current.update {c : Connection} (hc : c.Current) {f : HookState → HookState}
    (hf : c.state.identity ≠ none → (f c.state).identity ≠ none) : (c.update f).Current := by
  unfold Connection.update
  split
  · exact hc
  · exact ⟨hc.live, hc.idle, hc.ran, fun h => hf (hc.shown h)⟩

/-- A run starts for the dependencies of what is rendered. -/
theorem Current.startRun {c : Connection} (hdeps : c.effectDeps = some c.rendered.deps)
    {recipientId : String} (hidentity : c.rendered.identity = some recipientId)
    (hshown : c.rendered.identity ≠ none → c.state.identity ≠ none) : c.startRun.Current := by
  have hnew : Current { c with
      state := { c.state with receiverSession := none }
      runs := c.runs ++ [⟨c.rendered.relayUrl, false, 0, none⟩] } := by
    refine ⟨?_, ?_, ?_, hshown⟩
    · intro d hd _ _
      obtain rfl := Option.some.inj (hdeps.symm.trans hd)
      show ((c.runs ++ [_]).map EffectRun.header).getLast? = _
      rw [List.map_append, List.map_singleton, List.getLast?_concat]
      rfl
    · intro hnone
      have hidentity' : c.rendered.identity = none := hnone _ hdeps
      rw [hidentity] at hidentity'
      cases hidentity'
    · intro d _ _
      show c.rendered.identity ≠ none
      rw [hidentity]
      exact Option.some_ne_none recipientId
  exact hnew.of_keeps (keeps_tick (keeps_self _) _)

/-- The effect starts a run for what is rendered. -/
theorem Current.flushEffects {c : Connection} (hc : c.Current) : c.flushEffects.Current := by
  unfold Connection.flushEffects
  split
  · exact hc
  · dsimp only
    cases hidentity : c.rendered.identity with
    | none =>
      -- no identity was loaded before, so there was no run to clean up
      have hnone : ∀ d, c.effectDeps = some d → d.identity = none := by
        intro d hd
        by_contra hne
        exact hc.ran d hd hne hidentity
      refine ⟨?_, ?_, ?_, hc.shown⟩
      · intro d hd hne
        obtain rfl := Option.some.inj hd
        exact absurd hidentity hne
      · intro _
        have hruns : c.runs = [] := List.map_eq_nil_iff.mp (hc.idle hnone)
        show c.cleanup.runs.map EffectRun.header = []
        rw [cleanup, hruns]
        rfl
      · intro d hd hne
        obtain rfl := Option.some.inj hd
        exact absurd hidentity hne
    | some recipientId => exact Current.startRun rfl hidentity hc.shown

theorem Current.step {c : Connection} (hc : c.Current) (e : HookEvent) : (c.step e).Current := by
  cases e with
  | load recipientId =>
    apply hc.update
    intro hloaded
    rw [if_neg hloaded]
    exact hloaded
  | setUrl url => exact hc.update (f := fun s => { s with relayUrl := url }) id
  | retry => exact hc.update (f := fun s => { s with retryCount := s.retryCount + 1 }) id
  | render =>
    show c.render.Current
    unfold render
    split
    · exact hc
    · -- what is rendered is what was queued, and the identity with it
      have hflush := hc.flushEffects
      refine ⟨hflush.live, hflush.idle, ?_, id⟩
      intro d hd hne
      exact hflush.shown (hflush.ran d hd hne)
  | effects => exact hc.flushEffects
  | unmount =>
    rw [Connection.step]
    split
    · exact hc
    · have hflush := hc.flushEffects
      refine ⟨?_, ?_, hflush.ran, hflush.shown⟩
      · intro d hd hne hmounted
        cases hmounted
      · intro hnone
        have hruns : c.flushEffects.runs = [] := List.map_eq_nil_iff.mp (hflush.idle hnone)
        show c.flushEffects.cleanup.runs.map EffectRun.header = []
        rw [cleanup, hruns]
        rfl
  | timer i => exact hc.of_keeps (keeps_fire c i)
  | resolve k => exact hc.of_keeps (keeps_resolve c k)
  | reject k message => exact hc.of_keeps (keeps_reject c k message)

/-! ## Every order of events -/

/-- All that holds after every event. -/
structure Coherent (c : Connection) : Prop where
  inv : c.Inv
  queued : Agrees c.state
  rendered : Agrees c.rendered
  current : c.Current

theorem Coherent.step {c : Connection} (hc : c.Coherent) (e : HookEvent) : (c.step e).Coherent := by
  have hqueued := hc.queued.step hc.inv e
  refine ⟨hc.inv.step e, hqueued, ?_, hc.current.step e⟩
  rcases rendered_step c e with heq | heq
  · rw [heq]
    exact hc.rendered
  · rw [heq]
    exact hqueued

theorem coherent_mount (relayUrl : String) : (mount relayUrl).Coherent := by
  refine ⟨inv_mount relayUrl, agrees_of_none rfl nofun, agrees_of_none rfl nofun, ?_, ?_, ?_, id⟩
  · intro d hd
    cases hd
  · intro _
    rfl
  · intro d hd
    cases hd

/-- The session that is shown when nothing is pending. -/
theorem Coherent.session {c : Connection} (hc : c.Coherent) (hsettled : c.Settled) {k : Nat}
    (hk : c.rendered.receiverSession = some k) :
    ∃ p r, c.publishes[k]? = some p ∧ p.outcome = .resolved ∧ c.runs[p.run]? = some r ∧
      r.cancelled = false ∧ p.relayUrl = c.rendered.relayUrl := by
  rw [hsettled.applied] at hk
  obtain ⟨p, hp, hresolved, hlast⟩ := hc.inv.session k hk
  obtain ⟨r, hr, hurl⟩ := hc.inv.owned k p hp
  refine ⟨p, r, hp, hresolved, hr, ?_⟩
  -- there is a run, so the effect has run with an identity
  have hloaded : c.rendered.deps.identity ≠ none := by
    intro hnone
    have hruns : c.runs.map EffectRun.header = [] := by
      apply hc.current.idle
      intro d hd
      obtain rfl := Option.some.inj (hsettled.flushed.symm.trans hd)
      exact hnone
    rw [List.map_eq_nil_iff.mp hruns] at hr
    cases hr
  have hlive := hc.current.live _ hsettled.flushed hloaded hsettled.mounted
  rw [List.getLast?_eq_getElem?, List.length_map, ← hlast, Nat.add_sub_cancel, List.getElem?_map,
    hr] at hlive
  obtain ⟨hurl', hcancelled⟩ := Prod.mk.inj (Option.some.inj hlive)
  exact ⟨hcancelled, hurl.trans hurl'⟩

theorem Cancelled.run {c : Connection} {i : Nat} (hc : c.Cancelled i) (later : List HookEvent) :
    (run Connection.step c later).Cancelled i ∧
      (run Connection.step c later).started i = c.started i := by
  induction later using List.reverseRecOn with
  | nil => exact ⟨hc, rfl⟩
  | append_singleton later e ih =>
    rw [run_concat]
    obtain ⟨hcancelled, hstarted⟩ := ih.1.step e
    exact ⟨hcancelled, hstarted.trans ih.2⟩

/-- **The relay connection**, for every order of its events:

    * a run that has been cleaned up stays so, starts no publish any more, and its timer and its publishes
      change neither what is queued nor what is rendered;
    * the live run, which is the last one, waits for at most one thing, and for nothing after a success;
    * when nothing is pending, `connected` is shown exactly with a session, which comes from a publish of the
      live run to the current relay. -/
theorem relay_connection_coherent (relayUrl : String) (events : List HookEvent) :
    let c := run step (mount relayUrl) events
    (∀ i, c.Cancelled i → ∀ later,
      let c' := run step c later
      c'.Cancelled i ∧ c'.started i = c.started i ∧
        ∀ e : HookEvent, e.OfRun c' i →
          (c'.step e).state = c'.state ∧ (c'.step e).rendered = c'.rendered ∧
            (c'.step e).publishes.length = c'.publishes.length) ∧
    (∀ i r, c.runs[i]? = some r → r.cancelled = false →
      i + 1 = c.runs.length ∧ c.outstanding i ≤ 1 ∧
        ∀ p ∈ c.publishes, p.run = i → p.outcome = .resolved → c.outstanding i = 0) ∧
    (c.Settled →
      (c.rendered.status = .connected ↔ c.rendered.receiverSession ≠ none) ∧
        ∀ k, c.rendered.receiverSession = some k →
          ∃ p r, c.publishes[k]? = some p ∧ p.outcome = .resolved ∧ c.runs[p.run]? = some r ∧
            r.cancelled = false ∧ p.relayUrl = c.rendered.relayUrl) := by
  intro c
  have hc : c.Coherent := run_inv (fun _ e h => h.step e) (coherent_mount relayUrl) events
  refine ⟨?_, ?_, ?_⟩
  · intro i hcancelled later c'
    obtain ⟨hcancelled', hstarted⟩ := hcancelled.run later
    exact ⟨hcancelled', hstarted, fun e he => hcancelled'.silent he⟩
  · intro i r hr hlive
    refine ⟨hc.inv.last i r hr hlive, hc.inv.outstanding_le_one i, ?_⟩
    rintro p hp rfl hresolved
    exact hc.inv.outstanding_of_resolved hp hresolved
  · intro hsettled
    exact ⟨hc.rendered, fun k hk => hc.session hsettled hk⟩

/-- The URL changes while the first publish is under way; it succeeds late, the second fails once. -/
theorem relay_connection_coherent_switch :
    let c := run step (mount "ws://a")
      [.effects, .load "me", .render, .effects, .setUrl "ws://b", .render, .effects, .render, .resolve 0,
        .reject 1 "refused", .render, .timer 1, .resolve 2, .render]
    c.Settled ∧ c.Cancelled 0 ∧ c.rendered.receiverSession = some 2 ∧
      (c.rendered.status = .connected ↔ c.rendered.receiverSession ≠ none) := by
  intro c
  have hsettled : c.Settled := ⟨by decide +kernel, by decide +kernel, by decide +kernel⟩
  have hcancelled : c.Cancelled 0 := ⟨⟨"ws://a", true, 0, none⟩, by decide +kernel, rfl⟩
  have hsession : c.rendered.receiverSession = some 2 := by decide +kernel
  exact ⟨hsettled, hcancelled, hsession,
    ((relay_connection_coherent "ws://a" _).2.2 hsettled).1⟩

end Connection

end E2EMessaging.Web
