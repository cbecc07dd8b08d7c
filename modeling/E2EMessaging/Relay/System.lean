/-
  MANY REQUESTS AT ONCE: the relay as a system of tasks over one shared state.

  An action submits a request, lets one task make one move, or lets time pass; any list of actions
  is a run, so every interleaving is.  A completed request is logged at the move that completes it
  — for a request that reaches a store, that is the move in which it holds the store's lock, so the
  LOG ORDER IS THE ORDER IN WHICH THE STORES SAW THEM.

  `System.run_sound` is what every run keeps:

  * each log entry is one the handler can produce (`Completed.Sound`);
  * each store is the replay of the log: the content of a key is what `heldAt` says of the history
    of that key's slot, and a collection answered what the slot said then;
  * log times do not decrease.

  Everything about delivery is then a question about the log alone (`Relay.Delivery`).
-/
import Mathlib.Data.List.Induction
import E2EMessaging.Relay.Server

namespace E2EMessaging.Relay

open E2EMessaging.Lib

/-! ## Tasks, log and runs -/

/-- A request under way. -/
structure Task where
  request : WsRequest
  stage : Stage
  deriving Repr, DecidableEq

/-- A completed request: what it did to a store, its response (none if the task panicked), and the
    `Instant` of its last move. -/
structure Completed where
  task : Nat
  request : WsRequest
  effect : Option Effect
  response : Option WsResponse
  now : Nat
  deriving DecidableEq

/-- The relay: shared state, every request received so far, the clock, the log. -/
structure System where
  state : WsState
  tasks : List Task
  instant : Nat
  log : List Completed

/-- What can happen next. -/
inductive Action where
  | submit (req : WsRequest)
  /-- Task number `task` makes a move; the wall clock says `nowSecs`, the generator `nonce`. -/
  | move (task nowSecs : Nat) (nonce : Bytes)
  | tick (d : Nat)
  deriving Repr, DecidableEq

/-- A relay that has just been started. -/
def System.start (rateLimitPerMinute : Nat) : System := ⟨.new rateLimitPerMinute, [], 0, []⟩

/-- The log entry of a move, if it completes the task. -/
def Move.entry (m : Move) (task : Nat) (req : WsRequest) (now : Nat) : Option Completed :=
  match m.stage with
  | .done response => some ⟨task, req, m.effect, response, now⟩
  | _ => none

/-- The system after a task has made a move. -/
def System.moved (s : System) (i : Nat) (t : Task) (m : Move) : System :=
  ⟨m.state, s.tasks.set i ⟨t.request, m.stage⟩, s.instant,
    s.log ++ (m.entry i t.request s.instant).toList⟩

/-- A task that has answered makes no more moves. -/
def Stage.isDone : Stage → Bool
  | .done _ => true
  | _ => false

/-- One action. -/
def System.step (sha256 : Bytes → Bytes) (s : System) : Action → System
  | .submit req => { s with tasks := s.tasks ++ [⟨req, .received⟩] }
  | .tick d => { s with instant := s.instant + d }
  | .move i nowSecs nonce =>
    match s.tasks[i]? with
    | none => s
    | some t =>
      if t.stage.isDone then s
      else s.moved i t (advance sha256 s.state t.request nowSecs nonce s.instant t.stage)

/-! ## What a move can do -/

/-- The request asks for a deposit of these bytes. -/
def Deposits (req : WsRequest) (box : Mailbox) (key : String) (bytes : Bytes) : Prop :=
  ∃ payload cid sol, req.op = .deposit box key payload cid sol ∧ b64Decode payload = .ok bytes

/-- The ways a request can be answered without having reached a store. -/
inductive Refused (req : WsRequest) : Option WsResponse → Prop where
  | rateLimited : Refused req (logged req.recipientId (.err "RateLimitExceeded"))
  | issued (hop : req.op = .challenge) (cid wire : String) :
      Refused req (some (.okChallenge cid wire))
  | powFailed {box : Mailbox} {key payload cid sol : String}
      (hop : req.op = .deposit box key payload cid sol) (e : String) :
      Refused req (logged req.recipientId (.err ("PowFailed: " ++ e)))
  | invalidBase64 {box : Mailbox} {key payload cid sol : String}
      (hop : req.op = .deposit box key payload cid sol) (e : String) :
      Refused req (some (.err ("InvalidBase64: " ++ e)))

/-- A stage carries the bytes that were decoded, and an expiry computed from a past reading of the
    clock. -/
def Stage.Sound (req : WsRequest) (now : Nat) : Stage → Prop
  | .issuing => req.op = .challenge
  | .stamping bytes => ∃ box key, Deposits req box key bytes
  | .storing bytes expiry =>
    ∃ box key stamp, Deposits req box key bytes ∧ stamp ≤ now ∧ expiry = stamp + box.ttl
  | _ => True

/-- Everything a move of an unfinished task can do: pass the stores by, store, or collect. -/
inductive Moves (σ : WsState) (req : WsRequest) (now : Nat) (stage : Stage) : Move → Prop where
  | pass {σ' : WsState} (stage' : Stage) (hboxes : ∀ box, σ'.mailbox box = σ.mailbox box)
      (hsound : stage'.Sound req now) (hdone : ∀ r, stage' = .done r → Refused req r) :
      Moves σ req now stage (.to σ' stage')
  | stored {box : Mailbox} {key : String} {bytes : Bytes} {stamp : Nat}
      (hstage : stage = .storing bytes (stamp + box.ttl)) (hdep : Deposits req box key bytes)
      (hstamp : stamp ≤ now) :
      Moves σ req now stage
        ⟨σ.setMailbox box ((σ.mailbox box).insert key bytes (stamp + box.ttl)).1,
          .done (logged req.recipientId .okSimple),
          some (.stored box key bytes (stamp + box.ttl))⟩
  | collected {box : Mailbox} {key : String} (hop : req.op = .collect box key) :
      Moves σ req now stage
        ⟨σ.setMailbox box ((σ.mailbox box).pickup key now).1,
          .done (some (collectResponse box ((σ.mailbox box).pickup key now).2)),
          some (.collected box key ((σ.mailbox box).pickup key now).2)⟩

theorem rateLimit_mailbox (σ : WsState) (r : String) (nowSecs : Nat) (box : Mailbox) :
    (σ.rateLimit r nowSecs).1.mailbox box = σ.mailbox box := by
  cases box <;> rfl

theorem issue_mailbox (σ : WsState) (nonce : Bytes) (box : Mailbox) :
    (σ.issue nonce).1.mailbox box = σ.mailbox box := by
  cases box <;> rfl

/-- What `verify_pow` does to the active challenges. -/
theorem verifyPow_cases (sha256 : Bytes → Bytes) (σ : WsState) (cid sol : String) :
    (∃ e, σ.verifyPow sha256 cid sol = (σ, .error e)) ∨
    (∃ challenge solution, σ.challenges cid = some challenge ∧ b64Decode sol = .ok solution ∧
      ((∃ err, powVerify sha256 challenge solution = .error err ∧
          σ.verifyPow sha256 cid sol =
            ({ σ with challenges := Function.update σ.challenges cid none },
              .error err.report)) ∨
        (powVerify sha256 challenge solution = .ok () ∧
          σ.verifyPow sha256 cid sol =
            ({ σ with challenges := Function.update σ.challenges cid none }, .ok ())))) := by
  rw [WsState.verifyPow]
  cases hdec : b64Decode sol with
  | error e => exact .inl ⟨_, rfl⟩
  | ok solution =>
    cases hactive : σ.challenges cid with
    | none => exact .inl ⟨_, rfl⟩
    | some challenge =>
      refine .inr ⟨challenge, solution, rfl, rfl, ?_⟩
      cases hverify : powVerify sha256 challenge solution with
      | error err => exact .inl ⟨err, rfl, by simp only [hverify]⟩
      | ok u => exact .inr ⟨rfl, by simp only [hverify]⟩

/-- It changes nothing else. -/
theorem verifyPow_frame (sha256 : Bytes → Bytes) (σ : WsState) (cid sol : String) :
    ∃ challenges, (σ.verifyPow sha256 cid sol).1 = { σ with challenges := challenges } := by
  rcases verifyPow_cases sha256 σ cid sol with ⟨e, h⟩ | ⟨challenge, solution, -, -, h⟩
  · rw [h]
    exact ⟨σ.challenges, rfl⟩
  · rcases h with ⟨err, -, h⟩ | ⟨-, h⟩ <;> rw [h] <;> exact ⟨_, rfl⟩

theorem verifyPow_mailbox (sha256 : Bytes → Bytes) (σ : WsState) (cid sol : String)
    (box : Mailbox) : (σ.verifyPow sha256 cid sol).1.mailbox box = σ.mailbox box := by
  obtain ⟨challenges, h⟩ := verifyPow_frame sha256 σ cid sol
  rw [h]
  cases box <;> rfl

/-- **What a move can do.** -/
theorem advance_moves (sha256 : Bytes → Bytes) (σ : WsState) (req : WsRequest) (nowSecs : Nat)
    (nonce : Bytes) (now : Nat) {stage : Stage} (hs : stage.Sound req now)
    (hopen : stage.isDone = false) :
    Moves σ req now stage (advance sha256 σ req nowSecs nonce now stage) := by
  cases stage with
  | received => exact .pass _ (fun _ => rfl) trivial (fun r h => by cases h)
  | rateLimiting secs =>
    rw [advance]
    have hboxes := rateLimit_mailbox σ req.recipientId secs
    cases hrl : σ.rateLimit req.recipientId secs with
    | mk σ1 res =>
      rw [hrl] at hboxes
      cases res with
      | error e =>
        refine .pass _ hboxes trivial ?_
        intro r h
        obtain rfl := Stage.done.inj h
        exact .rateLimited
      | ok u =>
        refine .pass _ hboxes ?_ ?_
        · cases hop : req.op with
          | challenge => exact hop
          | deposit box key payload cid sol => trivial
          | collect box key => trivial
        · intro r h
          cases hop : req.op <;> rw [hop] at h <;> cases h
  | issuing =>
    refine .pass _ (issue_mailbox σ nonce) trivial ?_
    intro r h
    obtain rfl := Stage.done.inj h
    exact .issued hs _ _
  | verifying =>
    rw [advance]
    cases hop : req.op with
    | challenge => exact .pass _ (fun _ => rfl) trivial (fun r h => by cases h)
    | collect box key => exact .pass _ (fun _ => rfl) trivial (fun r h => by cases h)
    | deposit box key payload cid sol =>
      dsimp only
      have hboxes := verifyPow_mailbox sha256 σ cid sol
      cases hv : σ.verifyPow sha256 cid sol with
      | mk σ1 res =>
        rw [hv] at hboxes
        cases res with
        | error e =>
          refine .pass _ hboxes trivial ?_
          intro r h
          obtain rfl := Stage.done.inj h
          exact .powFailed hop e
        | ok u =>
          dsimp only
          cases hdec : b64Decode payload with
          | error e =>
            refine .pass _ hboxes trivial ?_
            intro r h
            obtain rfl := Stage.done.inj h
            exact .invalidBase64 hop e
          | ok bytes =>
            exact .pass _ hboxes ⟨box, key, payload, cid, sol, hop, hdec⟩ (fun r h => by cases h)
  | stamping bytes =>
    obtain ⟨box, key, payload, cid, sol, hop, hdec⟩ := hs
    rw [advance, hop]
    exact .pass _ (fun _ => rfl)
      ⟨box, key, now, ⟨payload, cid, sol, hop, hdec⟩, Nat.le_refl _, rfl⟩ (fun r h => by cases h)
  | storing bytes expiry =>
    obtain ⟨box, key, stamp, ⟨payload, cid, sol, hop, hdec⟩, hstamp, rfl⟩ := hs
    rw [advance, hop]
    exact .stored rfl ⟨payload, cid, sol, hop, hdec⟩ hstamp
  | collecting =>
    rw [advance]
    cases hop : req.op with
    | challenge => exact .pass _ (fun _ => rfl) trivial (fun r h => by cases h)
    | deposit box key payload cid sol =>
      exact .pass _ (fun _ => rfl) trivial (fun r h => by cases h)
    | collect box key => exact .collected hop
  | done r => simp [Stage.isDone] at hopen

/-! ## The log as the history of every slot -/

/-- What a completed request did to the slot of a key. -/
def Completed.use (e : Completed) (box : Mailbox) (key : String) : Option (Use Bytes) :=
  match e.effect with
  | some (.stored b k bytes expiry) =>
    if b = box ∧ k = key then some (.put bytes expiry e.now) else none
  | some (.collected b k _) => if b = box ∧ k = key then some (.take e.now) else none
  | none => none

/-- The history of a slot. -/
def history (box : Mailbox) (key : String) (log : List Completed) : History Bytes :=
  log.map (fun e => e.use box key)

theorem history_length (box : Mailbox) (key : String) (log : List Completed) :
    (history box key log).length = log.length := List.length_map _

theorem history_concat (box : Mailbox) (key : String) (log : List Completed) (e : Completed) :
    history box key (log ++ [e]) = history box key log ++ [e.use box key] := by
  simp [history]

theorem history_getElem? (box : Mailbox) (key : String) (log : List Completed) (n : Nat) :
    (history box key log)[n]? = (log[n]?).map (fun e => e.use box key) := List.getElem?_map

/-- The slot of a key after a log. -/
def slot (box : Mailbox) (log : List Completed) (key : String) : Option (Held Bytes) :=
  heldAt (history box key log) log.length

theorem slot_concat (box : Mailbox) (log : List Completed) (e : Completed) (key : String) :
    slot box (log ++ [e]) key =
      match e.use box key with
      | some u => u.leaves log.length
      | none => slot box log key := by
  have h := slotOf_concat (fun e : Completed => e.use box key) log e
  show slotOf (fun e : Completed => e.use box key) (log ++ [e]) = _
  rw [h]
  cases e.use box key <;> rfl

theorem slot_concat_other {box : Mailbox} {log : List Completed} {e : Completed} {key : String}
    (h : e.use box key = none) : slot box (log ++ [e]) key = slot box log key := by
  rw [slot_concat, h]

/-! ## What every run keeps -/

/-- The log entries the handler can produce. -/
inductive Completed.Sound (e : Completed) : Prop where
  | refused (heffect : e.effect = none) (h : Refused e.request e.response)
  | stored {box : Mailbox} {key : String} {bytes : Bytes} {stamp : Nat}
      (hdep : Deposits e.request box key bytes) (hstamp : stamp ≤ e.now)
      (heffect : e.effect = some (.stored box key bytes (stamp + box.ttl)))
      (hresp : e.response = logged e.request.recipientId .okSimple)
  | collected {box : Mailbox} {key : String} {result : Except StoreError Bytes}
      (hop : e.request.op = .collect box key)
      (heffect : e.effect = some (.collected box key result))
      (hresp : e.response = some (collectResponse box result))

/-- What a log says about itself. -/
structure LogSound (log : List Completed) : Prop where
  entries : ∀ e ∈ log, e.Sound
  collected : ∀ (k : Nat) e box key result, log[k]? = some e →
    e.effect = some (.collected box key result) →
    result = ofTaken (taken (heldAt (history box key log) k) e.now)
  ordered : log.Pairwise fun e e' => e.now ≤ e'.now

/-- What every run keeps. -/
structure System.Sound (s : System) : Prop where
  tasks : ∀ t ∈ s.tasks, t.stage.Sound t.request s.instant
  log : LogSound s.log
  past : ∀ e ∈ s.log, e.now ≤ s.instant
  slots : ∀ box, (s.state.mailbox box).Replays (slot box s.log)

theorem System.sound_start (rate : Nat) : (System.start rate).Sound where
  tasks := fun _ h => absurd h List.not_mem_nil
  log := ⟨fun _ h => absurd h List.not_mem_nil, fun k e box key result h => by
    simp [System.start] at h, List.Pairwise.nil⟩
  past := fun _ h => absurd h List.not_mem_nil
  slots := fun box key => by cases box <;> rfl

/-- A sound log with one more sound entry, whose collection answered what the slot says. -/
theorem LogSound.concat {log : List Completed} (hlog : LogSound log) {e : Completed}
    (hpast : ∀ e' ∈ log, e'.now ≤ e.now) (hsound : e.Sound)
    (hcoll : ∀ box key result, e.effect = some (.collected box key result) →
      result = ofTaken (taken (slot box log key) e.now)) : LogSound (log ++ [e]) where
  entries := by
    intro e' he'
    rcases List.mem_append.mp he' with hold | hnew
    · exact hlog.entries e' hold
    · rw [List.mem_singleton.mp hnew]
      exact hsound
  collected := by
    intro k e' box key result hk heff
    -- what is before position `k` is the same in both logs
    have hkeep : k ≤ log.length →
        heldAt (history box key (log ++ [e])) k = heldAt (history box key log) k := by
      intro hle
      rw [history_concat]
      exact heldAt_append _ _ (by rw [history_length]; exact hle)
    rcases Nat.lt_or_ge k log.length with hlt | hge
    · rw [List.getElem?_append_left hlt] at hk
      rw [hkeep (Nat.le_of_lt hlt)]
      exact hlog.collected k e' box key result hk heff
    · have hkn : k = log.length := by
        have := (List.getElem?_eq_some_iff.mp hk).1
        simp at this
        omega
      rw [hkeep (Nat.le_of_eq hkn)]
      rw [hkn, List.getElem?_concat_length] at hk
      obtain rfl := Option.some.inj hk
      rw [hkn]
      exact hcoll box key result heff
  ordered := by
    rw [List.pairwise_append]
    refine ⟨hlog.ordered, List.pairwise_singleton _ _, ?_⟩
    intro e' he' x hx
    rw [List.mem_singleton.mp hx]
    exact hpast e' he'

theorem Stage.Sound.mono {req : WsRequest} {now now' : Nat} (h : now ≤ now') {stage : Stage}
    (hs : stage.Sound req now) : stage.Sound req now' := by
  cases stage with
  | storing bytes expiry =>
    obtain ⟨box, key, stamp, hdep, hstamp, he⟩ := hs
    exact ⟨box, key, stamp, hdep, Nat.le_trans hstamp h, he⟩
  | _ => exact hs

/-- The tasks after a move: the one that moved is at its new stage, the others where they were. -/
theorem tasks_moved {s : System} (hs : s.Sound) {i : Nat} {t : Task} {m : Move}
    (hm : m.stage.Sound t.request s.instant) :
    ∀ t' ∈ (s.moved i t m).tasks, t'.stage.Sound t'.request s.instant := by
  intro t' ht'
  rcases List.mem_or_eq_of_mem_set ht' with hold | rfl
  · exact hs.tasks t' hold
  · exact hm

/-- An entry without effect on a store leaves every slot alone. -/
theorem slots_refused {s : System} (hs : s.Sound) {σ' : WsState}
    (hboxes : ∀ box, σ'.mailbox box = s.state.mailbox box) {e : Completed} (he : e.effect = none)
    (box : Mailbox) : (σ'.mailbox box).Replays (slot box (s.log ++ [e])) := by
  intro key
  have huse : e.use box key = none := by rw [Completed.use, he]
  rw [slot_concat_other huse, hboxes box]
  exact hs.slots box key

/-- A move that passes the stores by. -/
theorem sound_pass {s : System} (hs : s.Sound) {i : Nat} {t : Task} {σ' : WsState}
    {stage' : Stage} (hboxes : ∀ box, σ'.mailbox box = s.state.mailbox box)
    (hsound : stage'.Sound t.request s.instant)
    (hdone : ∀ r, stage' = .done r → Refused t.request r) :
    (s.moved i t (.to σ' stage')).Sound := by
  have htasks := tasks_moved hs (i := i) (t := t) (m := .to σ' stage') hsound
  by_cases hd : ∃ r, stage' = .done r
  · obtain ⟨r, rfl⟩ := hd
    refine ⟨htasks, ?_, ?_, ?_⟩
    · refine hs.log.concat (fun e' he' => hs.past e' he') (.refused rfl (hdone r rfl)) ?_
      intro box key result heff
      simp [Move.to] at heff
    · intro e he
      rcases List.mem_append.mp he with hold | hnew
      · exact hs.past e hold
      · rw [List.mem_singleton.mp hnew]
        exact Nat.le_refl _
    · exact slots_refused hs hboxes rfl
  · have hentry : (Move.to σ' stage').entry i t.request s.instant = none := by
      rw [Move.entry]
      split
      · rename_i r hr
        exact absurd ⟨r, hr⟩ hd
      · rfl
    have hlog : (s.moved i t (.to σ' stage')).log = s.log := by
      rw [System.moved, hentry]
      simp
    refine ⟨htasks, ?_, ?_, ?_⟩
    · rw [hlog]
      exact hs.log
    · rw [hlog]
      exact hs.past
    · intro box
      rw [hlog]
      exact (hboxes box).symm ▸ hs.slots box

/-- A move that reaches a store: the entry is logged, the slot of its key follows. -/
theorem sound_reach {s : System} (hs : s.Sound) {i : Nat} {t : Task} {σ' : WsState}
    {eff : Effect} {r : Option WsResponse}
    (hsound : (⟨i, t.request, some eff, r, s.instant⟩ : Completed).Sound)
    (hcoll : ∀ box key result, some eff = some (.collected box key result) →
      result = ofTaken (taken (slot box s.log key) s.instant))
    (hslots : ∀ box, (σ'.mailbox box).Replays
      (slot box (s.log ++ [⟨i, t.request, some eff, r, s.instant⟩]))) :
    (s.moved i t ⟨σ', .done r, some eff⟩).Sound := by
  refine ⟨tasks_moved hs trivial, hs.log.concat hs.past hsound hcoll, ?_, hslots⟩
  intro e he
  rcases List.mem_append.mp he with hold | hnew
  · exact hs.past e hold
  · rw [List.mem_singleton.mp hnew]
    exact Nat.le_refl _

theorem System.Sound.moved {s : System} (hs : s.Sound) {i : Nat} {t : Task} {m : Move}
    (hm : Moves s.state t.request s.instant t.stage m) : (s.moved i t m).Sound := by
  cases hm with
  | pass stage' hboxes hsound hdone => exact sound_pass hs hboxes hsound hdone
  | @stored box key bytes stamp hstage hdep hstamp =>
    refine sound_reach hs (.stored hdep hstamp rfl rfl) (by simp) ?_
    intro box'
    by_cases hb : box' = box
    · subst hb
      rw [mailbox_setMailbox_self]
      refine (hs.slots box').insert (n := s.log.length) ?_ ?_
      · rw [slot_concat]
        simp [Completed.use, Use.leaves]
      · intro key' hk
        exact slot_concat_other (by simp [Completed.use, Ne.symm hk])
    · rw [mailbox_setMailbox_of_ne _ hb]
      intro key'
      rw [slot_concat_other (by simp [Completed.use, Ne.symm hb])]
      exact hs.slots box' key'
  | @collected box key hop =>
    -- the slots after the collection: the key's own is empty, the others as before
    have hself : ∀ r, slot box
        (s.log ++ [⟨i, t.request, some (.collected box key r),
          some (collectResponse box r), s.instant⟩]) key = none := by
      intro r
      rw [slot_concat]
      simp [Completed.use, Use.leaves]
    have hother : ∀ r key', key' ≠ key → slot box
        (s.log ++ [⟨i, t.request, some (.collected box key r),
          some (collectResponse box r), s.instant⟩]) key' = slot box s.log key' :=
      fun r key' hk => slot_concat_other (by simp [Completed.use, Ne.symm hk])
    have hpick := (hs.slots box).pickup s.instant
      (hself ((s.state.mailbox box).pickup key s.instant).2)
      (hother ((s.state.mailbox box).pickup key s.instant).2)
    refine sound_reach hs (.collected hop rfl rfl) ?_ ?_
    · intro box' key' result heq
      obtain ⟨rfl, rfl, rfl⟩ : box = box' ∧ key = key' ∧
          ((s.state.mailbox box).pickup key s.instant).2 = result := by simpa using heq
      exact hpick.2
    · intro box'
      by_cases hb : box' = box
      · subst hb
        rw [mailbox_setMailbox_self]
        exact hpick.1
      · rw [mailbox_setMailbox_of_ne _ hb]
        intro key'
        rw [slot_concat_other (by simp [Completed.use, Ne.symm hb])]
        exact hs.slots box' key'

/-- One action keeps the system sound. -/
theorem System.Sound.step {sha256 : Bytes → Bytes} {s : System} (hs : s.Sound) (a : Action) :
    (s.step sha256 a).Sound := by
  cases a with
  | submit req =>
    refine ⟨?_, hs.log, hs.past, hs.slots⟩
    intro t ht
    rcases List.mem_append.mp ht with hold | hnew
    · exact hs.tasks t hold
    · rw [List.mem_singleton.mp hnew]
      trivial
  | tick d =>
    exact ⟨fun t ht => (hs.tasks t ht).mono (Nat.le_add_right _ _), hs.log,
      fun e he => Nat.le_trans (hs.past e he) (Nat.le_add_right _ _), hs.slots⟩
  | move i nowSecs nonce =>
    rw [System.step]
    cases ht : s.tasks[i]? with
    | none => exact hs
    | some t =>
      dsimp only
      split
      · exact hs
      · rename_i hopen
        exact hs.moved (advance_moves sha256 s.state t.request nowSecs nonce s.instant
          (hs.tasks t (List.mem_of_getElem? ht)) (Bool.eq_false_iff.mpr hopen))

/-- **Every run is sound.** -/
theorem System.run_sound (sha256 : Bytes → Bytes) (rate : Nat) (acts : List Action) :
    (run (System.step sha256) (System.start rate) acts).Sound :=
  run_inv (fun _ a hs => hs.step a) (System.sound_start rate) acts

end E2EMessaging.Relay
