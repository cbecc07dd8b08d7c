/-
  THE PROOF-OF-WORK GATE, under every interleaving: each write is paid for by a challenge of its
  own.

  A request that stores has passed three separate critical sections: it took its challenge out of
  the shared map, it read the clock, it inserted.  Anything may happen in between.  What excludes
  double spending is that a challenge is a ONE-TIME TICKET (`Lib.Ticket`): issued once, if nonces
  do not repeat; then either HELD by the one task whose solution was verified, from that moment
  until its write is logged and ever after, or VOID because a solution for it was rejected (or
  because the request failed after paying).  `Paid` is the simulation between the relay and the
  tickets, and everything is read off the status of a ticket:

  * `pow_gate_sound`   — writes are injected into the challenges issued before them, by the ids
                         they name, with solutions that `pow::verify` accepts; a rejected challenge
                         is never redeemed; there are no more writes than challenges.
-/
import E2EMessaging.Lib.Ticket
import E2EMessaging.Relay.Delivery

namespace E2EMessaging.Relay

open E2EMessaging.Lib

/-! ## Challenge ids -/

/-- The challenge a relay makes of a nonce. -/
def challengeOf (nonce : Bytes) : Challenge := Challenge.new powContext powDifficulty nonce

/-- The response that hands it out. -/
def challengeResponse (nonce : Bytes) : WsResponse :=
  .okChallenge (hexEncode nonce) (b64Encode (challengeOf nonce).toWire)

/-- The challenge id and the solution of a request that has to prove work. -/
def WsRequest.work : WsRequest → Option (String × String)
  | .publishPrekey _ _ cid sol => some (cid, sol)
  | .sendEnvelope _ _ cid sol => some (cid, sol)
  | _ => none

/-- A deposit names the challenge it has solved; no other request does. -/
theorem work_of_deposit {req : WsRequest} {box : Mailbox} {key payload cid sol : String}
    (h : req.op = .deposit box key payload cid sol) : req.work = some (cid, sol) := by
  cases req with
  | publishPrekey r bundle cid' sol' =>
    obtain ⟨-, -, -, rfl, rfl⟩ : _ ∧ _ ∧ _ ∧ cid' = cid ∧ sol' = sol := by
      simpa [WsRequest.op] using h
    rfl
  | sendEnvelope r envelope cid' sol' =>
    obtain ⟨-, -, -, rfl, rfl⟩ : _ ∧ _ ∧ _ ∧ cid' = cid ∧ sol' = sol := by
      simpa [WsRequest.op] using h
    rfl
  | _ => simp [WsRequest.op] at h

theorem deposit_of_work {req : WsRequest} {cid sol : String} (h : req.work = some (cid, sol)) :
    ∃ box key payload, req.op = .deposit box key payload cid sol := by
  cases req with
  | publishPrekey r bundle cid' sol' =>
    obtain ⟨rfl, rfl⟩ : cid' = cid ∧ sol' = sol := by simpa [WsRequest.work] using h
    exact ⟨_, _, _, rfl⟩
  | sendEnvelope r envelope cid' sol' =>
    obtain ⟨rfl, rfl⟩ : cid' = cid ∧ sol' = sol := by simpa [WsRequest.work] using h
    exact ⟨_, _, _, rfl⟩
  | _ => simp [WsRequest.work] at h

/-! ## Challenges and writes in the log -/

/-- The request was answered with the challenge of this nonce. -/
def Completed.Issues (e : Completed) (nonce : Bytes) : Prop :=
  e.response = some (challengeResponse nonce)

/-- The request put something into a store. -/
def Completed.isWrite (e : Completed) : Bool :=
  match e.effect with
  | some (.stored _ _ _ _) => true
  | _ => false

/-- No two challenges of the log have the same nonce. -/
def DistinctNonces (log : List Completed) : Prop :=
  ∀ (j j' : Nat) e e' nonce, log[j]? = some e → log[j']? = some e' → e.Issues nonce →
    e'.Issues nonce → j = j'

/-- The request names the challenge of this nonce, and its solution is accepted. -/
def WsRequest.Proves (sha256 : Bytes → Bytes) (req : WsRequest) (nonce : Bytes) : Prop :=
  ∃ sol solution, req.work = some (hexEncode nonce, sol) ∧ b64Decode sol = .ok solution ∧
    powVerify sha256 (challengeOf nonce) solution = .ok ()

/-! ## What a move does to the challenges -/

/-- A stage that is reached only with proven work. -/
def Stage.paid : Stage → Bool
  | .stamping _ => true
  | .storing _ _ => true
  | _ => false

/-- A stage that hands out no challenge. -/
def Stage.Withholds (stage : Stage) : Prop := ∀ n, stage ≠ .done (some (challengeResponse n))

/-- What a move does to a store, as far as writes go. -/
def Move.writes (m : Move) : Bool :=
  match m.effect with
  | some (.stored _ _ _ _) => true
  | _ => false

/-- Everything a move can do to the active challenges: leave them alone, issue one, burn one, take
    one in exchange for a verified solution; and a write comes from a paid stage. -/
inductive PowMoves (sha256 : Bytes → Bytes) (σ : WsState) (req : WsRequest) (nonce : Bytes)
    (stage : Stage) (m : Move) : Prop where
  | pass (hch : m.state.challenges = σ.challenges)
      (hpaid : m.stage.paid = true → stage.paid = true) (hwrites : m.writes = false)
      (hissue : m.stage.Withholds)
  | issued (hstage : stage = .issuing)
      (hch : m.state.challenges =
        Function.update σ.challenges (hexEncode nonce) (some (challengeOf nonce)))
      (hm : m.stage = .done (some (challengeResponse nonce))) (hwrites : m.writes = false)
  | burnt {cid : String} {challenge : Challenge} (hactive : σ.challenges cid = some challenge)
      (hch : m.state.challenges = Function.update σ.challenges cid none)
      (hpaid : m.stage.paid = false) (hwrites : m.writes = false) (hissue : m.stage.Withholds)
  | paid {cid sol : String} {solution : Bytes} {challenge : Challenge}
      (hstage : stage = .verifying) (hwork : req.work = some (cid, sol))
      (hactive : σ.challenges cid = some challenge) (hdec : b64Decode sol = .ok solution)
      (hverify : powVerify sha256 challenge solution = .ok ())
      (hch : m.state.challenges = Function.update σ.challenges cid none)
      (hm : ∃ bytes, m.stage = .stamping bytes) (hwrites : m.writes = false)
  | wrote (hstage : stage.paid = true) (hch : m.state.challenges = σ.challenges)
      (hwrites : m.writes = true) (hdone : ∃ r, m.stage = .done r) (hissue : m.stage.Withholds)

theorem setMailbox_challenges (σ : WsState) (box : Mailbox) (s : RelayStore) :
    (σ.setMailbox box s).challenges = σ.challenges := by
  cases box <;> rfl

theorem withholds_err (e : String) : (Stage.done (some (.err e))).Withholds := by
  intro n h
  simp [challengeResponse, WsResponse.okChallenge] at h

/-- Only a response with a challenge in it hands one out. -/
theorem withholds_logged {r : String} {x : WsResponse} (hx : ∀ n, x ≠ challengeResponse n) :
    (Stage.done (logged r x)).Withholds := by
  intro n h
  rw [Stage.done.injEq, logged] at h
  cases ht : truncateId r with
  | none => simp [ht] at h
  | some s =>
    rw [ht] at h
    exact hx n (Option.some.inj h)

/-- It does not look like one either, so a challenge in the log was issued. -/
theorem err_ne_challengeResponse (e : String) (n : Bytes) : .err e ≠ challengeResponse n := by
  simp [challengeResponse, WsResponse.okChallenge]

/-- Nor does the answer to a lookup or a pickup. -/
theorem collectResponse_ne_challengeResponse (box : Mailbox) (result : Except StoreError Bytes)
    (n : Bytes) : collectResponse box result ≠ challengeResponse n := by
  cases result with
  | error e => cases e <;> exact err_ne_challengeResponse _ n
  | ok bytes =>
    cases box <;> simp [collectResponse, challengeResponse, WsResponse.okChallenge,
      WsResponse.okBundle, WsResponse.okEnvelope]

/-- **What a move can do to the challenges.** -/
theorem advance_powMoves (sha256 : Bytes → Bytes) (σ : WsState) (req : WsRequest) (nowSecs : Nat)
    (nonce : Bytes) (now : Nat) (stage : Stage) (hopen : stage.isDone = false) :
    PowMoves sha256 σ req nonce stage (advance sha256 σ req nowSecs nonce now stage) := by
  cases stage with
  | received => exact .pass rfl (by simp [advance, Move.to, Stage.paid]) rfl (by intro n h; cases h)
  | rateLimiting secs =>
    rw [advance]
    have hch : (σ.rateLimit req.recipientId secs).1.challenges = σ.challenges := rfl
    cases hrl : σ.rateLimit req.recipientId secs with
    | mk σ1 res =>
      rw [hrl] at hch
      cases res with
      | error e =>
        exact .pass hch (by simp [Move.to, Stage.paid]) rfl
          (withholds_logged (err_ne_challengeResponse _))
      | ok u =>
        refine .pass hch ?_ rfl ?_
        · intro h
          cases hop : req.op <;> simp [Move.to, Op.admitted, Stage.paid, hop] at h
        · intro n h
          cases hop : req.op <;> simp [Move.to, Op.admitted, hop] at h
  | issuing => exact .issued rfl rfl rfl rfl
  | verifying =>
    rw [advance]
    cases hop : req.op with
    | challenge => exact .pass rfl (by simp [Move.to]) rfl (by intro n h; cases h)
    | collect box key => exact .pass rfl (by simp [Move.to]) rfl (by intro n h; cases h)
    | deposit box key payload cid sol =>
      dsimp only
      rcases verifyPow_cases sha256 σ cid sol with ⟨e, hv⟩ | ⟨challenge, solution, hactive, hdec, hv⟩
      · rw [hv]
        exact .pass rfl (by simp [Move.to, Stage.paid]) rfl
          (withholds_logged (err_ne_challengeResponse _))
      · rcases hv with ⟨err, hverify, hv⟩ | ⟨hverify, hv⟩
        · rw [hv]
          exact .burnt hactive rfl rfl rfl (withholds_logged (err_ne_challengeResponse _))
        · rw [hv]
          dsimp only
          cases b64Decode payload with
          -- a payload that does not decode: the challenge is gone, nothing is stored
          | error e => exact .burnt hactive rfl rfl rfl (withholds_err _)
          | ok bytes =>
            exact .paid rfl (work_of_deposit hop) hactive hdec hverify rfl ⟨bytes, rfl⟩ rfl
  | stamping bytes =>
    rw [advance]
    cases req.op <;> exact .pass rfl (fun _ => rfl) rfl (by intro n h; cases h)
  | storing bytes expiry =>
    rw [advance]
    cases hop : req.op with
    | deposit box key payload cid sol =>
      exact .wrote rfl (setMailbox_challenges _ _ _) rfl ⟨_, rfl⟩
        (withholds_logged (by
          intro n
          simp [challengeResponse, WsResponse.okChallenge, WsResponse.okSimple]))
    | _ => exact .pass rfl (fun _ => rfl) rfl (by intro n h; cases h)
  | collecting =>
    rw [advance]
    cases hop : req.op with
    | collect box key =>
      refine .pass (setMailbox_challenges _ _ _) (by simp [Stage.paid]) rfl ?_
      intro n h
      exact collectResponse_ne_challengeResponse box _ n (Option.some.inj (Stage.done.inj h))
    | _ => exact .pass rfl (fun h => h) rfl (by intro n h; cases h)
  | done r => simp [Stage.isDone] at hopen

/-! ## Challenges as tickets -/

/-- Task number `i` is past the gate with this challenge: on its way to the store, or logged as
    having written. -/
def System.Holds (s : System) (i : Nat) (cid : String) : Prop :=
  (∃ t sol, s.tasks[i]? = some t ∧ t.stage.paid = true ∧ t.request.work = some (cid, sol)) ∨
  (∃ e sol, e ∈ s.log ∧ e.task = i ∧ e.isWrite = true ∧ e.request.work = some (cid, sol))

/-- The relay in the state `s` treats every challenge as the ticket whose status `g` gives. -/
structure Paid (sha256 : Bytes → Bytes) (g : String → Status Nat) (s : System) : Prop where
  active : ∀ cid c, s.state.challenges cid = some c →
    g cid = .active ∧ ∃ nonce, cid = hexEncode nonce ∧ c = challengeOf nonce
  holds : ∀ i cid, s.Holds i cid → g cid = .held i
  issued : ∀ cid, g cid ≠ .unissued → ∃ e nonce, e ∈ s.log ∧ e.Issues nonce ∧ cid = hexEncode nonce
  tasks : ∀ t ∈ s.tasks, t.stage.paid = true → ∃ nonce, t.request.Proves sha256 nonce
  writes : ∀ (k : Nat) e, s.log[k]? = some e → e.isWrite = true →
    ∃ nonce, e.request.Proves sha256 nonce ∧
      ∃ (j : Nat) (f : Completed), j < k ∧ s.log[j]? = some f ∧ f.Issues nonce
  answered : ∀ e ∈ s.log, ∃ t, s.tasks[e.task]? = some t ∧ t.stage.isDone = true
  once : (s.log.map Completed.task).Nodup

/-- A relay just started has issued nothing, and nobody has paid. -/
theorem paid_start (sha256 : Bytes → Bytes) (rate : Nat) :
    Paid sha256 (fun _ => .unissued) (System.start rate) where
  active := fun _ _ h => by cases h
  holds := by
    rintro i cid (⟨t, sol, ht, -⟩ | ⟨e, sol, he, -⟩)
    · simp [System.start] at ht
    · simp [System.start] at he
  issued := fun _ h => absurd rfl h
  tasks := fun _ h => absurd h List.not_mem_nil
  writes := fun k e h => by simp [System.start] at h
  answered := fun _ h => absurd h List.not_mem_nil
  once := List.nodup_nil

section Moved

variable {s : System} {i : Nat} {t : Task} {m : Move}

/-- The entry of a move that completes its task. -/
def Move.completed (m : Move) (i : Nat) (req : WsRequest) (r : Option WsResponse) (now : Nat) :
    Completed := ⟨i, req, m.effect, r, now⟩

/-- A move that completes its task puts one entry at the end of the log. -/
theorem moved_log_done {r : Option WsResponse} (h : m.stage = .done r) :
    (s.moved i t m).log = s.log ++ [m.completed i t.request r s.instant] := by
  rw [System.moved, Move.entry, h]
  rfl

/-- A move that does not complete it leaves the log as it was. -/
theorem moved_log_open (h : m.stage.isDone = false) : (s.moved i t m).log = s.log := by
  rw [System.moved, Move.entry]
  cases hst : m.stage with
  | done r => simp [hst, Stage.isDone] at h
  | _ => simp

/-- The log after a move: as before, or with the entry of the move at its end. -/
theorem moved_log_cases (s : System) (i : Nat) (t : Task) (m : Move) :
    (s.moved i t m).log = s.log ∨
      ∃ r, m.stage = .done r ∧
        (s.moved i t m).log = s.log ++ [m.completed i t.request r s.instant] := by
  cases hst : m.stage with
  | done r => exact .inr ⟨r, rfl, moved_log_done hst⟩
  | _ => exact .inl (moved_log_open (by simp [hst, Stage.isDone]))

theorem mem_moved_log {e : Completed} (h : e ∈ (s.moved i t m).log) :
    e ∈ s.log ∨ ∃ r, m.stage = .done r ∧ e = m.completed i t.request r s.instant := by
  rcases moved_log_cases s i t m with hlog | ⟨r, hr, hlog⟩
  · rw [hlog] at h
    exact .inl h
  · rw [hlog] at h
    rcases List.mem_append.mp h with hold | hnew
    · exact .inl hold
    · exact .inr ⟨r, hr, List.mem_singleton.mp hnew⟩

theorem moved_log_grows (s : System) (i : Nat) (t : Task) (m : Move) :
    s.log <+: (s.moved i t m).log := List.prefix_append _ _

/-- The tasks after a move. -/
theorem moved_tasks_getElem? (ht : s.tasks[i]? = some t) (j : Nat) :
    (s.moved i t m).tasks[j]? = if j = i then some ⟨t.request, m.stage⟩ else s.tasks[j]? := by
  have hi : i < s.tasks.length := (List.getElem?_eq_some_iff.mp ht).1
  show (s.tasks.set i ⟨t.request, m.stage⟩)[j]? = _
  by_cases hj : j = i
  · subst hj
    simp [hi]
  · rw [if_neg hj, List.getElem?_set_ne (Ne.symm hj)]

/-- Whoever holds a challenge after a move held it before, or is the task that moved. -/
theorem holds_moved (ht : s.tasks[i]? = some t) {j : Nat} {cid : String}
    (h : (s.moved i t m).Holds j cid) :
    s.Holds j cid ∨
      (j = i ∧ (m.stage.paid = true ∨ m.writes = true) ∧
        ∃ sol, t.request.work = some (cid, sol)) := by
  rcases h with ⟨t', sol, ht', hpaid, hwork⟩ | ⟨e, sol, he, htask, hwrite, hwork⟩
  · rw [moved_tasks_getElem? ht] at ht'
    split at ht'
    · rename_i hj
      obtain rfl := Option.some.inj ht'
      exact .inr ⟨hj, .inl hpaid, sol, hwork⟩
    · exact .inl (.inl ⟨t', sol, ht', hpaid, hwork⟩)
  · rcases mem_moved_log he with hold | ⟨r, hr, rfl⟩
    · exact .inl (.inr ⟨e, sol, hold, htask, hwrite, hwork⟩)
    · exact .inr ⟨htask.symm, .inr hwrite, sol, hwork⟩

/-- A task at a paid stage: it proved work for a challenge in the log. -/
theorem Paid.proved {sha256 : Bytes → Bytes} {g : String → Status Nat} (hs : Paid sha256 g s)
    (ht : s.tasks[i]? = some t) (hpaid : t.stage.paid = true) :
    ∃ nonce, t.request.Proves sha256 nonce ∧
      ∃ (j : Nat) (f : Completed), j < s.log.length ∧ s.log[j]? = some f ∧ f.Issues nonce := by
  obtain ⟨nonce, hproves⟩ := hs.tasks t (List.mem_of_getElem? ht) hpaid
  obtain ⟨sol, solution, hwork, -, -⟩ := id hproves
  have hheld := hs.holds i (hexEncode nonce) (.inl ⟨t, sol, ht, hpaid, hwork⟩)
  obtain ⟨f, nonce', hf, hissues, hid⟩ := hs.issued (hexEncode nonce) (by rw [hheld]; simp)
  obtain rfl := hexEncode_injective hid
  obtain ⟨j, hj, hget⟩ := List.mem_iff_getElem.mp hf
  exact ⟨nonce, hproves, j, f, hj, by rw [List.getElem?_eq_getElem hj, hget], hissues⟩

/-- A move keeps the relay and the tickets in step, whatever it does to the statuses, if the new
    statuses fit the new challenges and the new holders. -/
theorem Paid.moved {sha256 : Bytes → Bytes} {g g' : String → Status Nat} (hs : Paid sha256 g s)
    (ht : s.tasks[i]? = some t) (hopen : t.stage.isDone = false)
    (hactive : ∀ cid c, m.state.challenges cid = some c →
      g' cid = .active ∧ ∃ nonce, cid = hexEncode nonce ∧ c = challengeOf nonce)
    (hholds : ∀ j cid, (s.moved i t m).Holds j cid → g' cid = .held j)
    (hissued : ∀ cid, g' cid ≠ .unissued →
      ∃ e nonce, e ∈ (s.moved i t m).log ∧ e.Issues nonce ∧ cid = hexEncode nonce)
    (hpaid : m.stage.paid = true → ∃ nonce, t.request.Proves sha256 nonce)
    (hwrites : m.writes = true → t.stage.paid = true) : Paid sha256 g' (s.moved i t m) where
  active := hactive
  holds := hholds
  issued := hissued
  tasks := by
    intro t' ht' hp
    rcases List.mem_or_eq_of_mem_set ht' with hold | rfl
    · exact hs.tasks t' hold hp
    · exact hpaid hp
  writes := by
    intro k e hk hw
    rcases moved_log_cases s i t m with hlog | ⟨r, hr, hlog⟩
    · rw [hlog] at hk ⊢
      exact hs.writes k e hk hw
    · rw [hlog] at hk ⊢
      rcases Nat.lt_or_ge k s.log.length with hlt | hge
      · rw [List.getElem?_append_left hlt] at hk
        obtain ⟨nonce, hproves, j, f, hj, hf, hiss⟩ := hs.writes k e hk hw
        exact ⟨nonce, hproves, j, f, hj, by rw [List.getElem?_append_left (by omega)]; exact hf,
          hiss⟩
      · have hkn : k = s.log.length := by
          have hlt := (List.getElem?_eq_some_iff.mp hk).1
          simp at hlt
          omega
        rw [hkn, List.getElem?_concat_length] at hk
        obtain rfl := Option.some.inj hk
        obtain ⟨nonce, hproves, j, f, hj, hf, hiss⟩ := hs.proved ht (hwrites hw)
        exact ⟨nonce, hproves, j, f, by omega, by rw [List.getElem?_append_left hj]; exact hf,
          hiss⟩
  answered := by
    intro e he
    rw [moved_tasks_getElem? ht]
    rcases mem_moved_log he with hold | ⟨r, hr, rfl⟩
    · obtain ⟨t', ht', hdone⟩ := hs.answered e hold
      have hne : e.task ≠ i := by
        intro heq
        rw [heq, ht] at ht'
        obtain rfl := Option.some.inj ht'
        simp [hopen] at hdone
      rw [if_neg hne]
      exact ⟨t', ht', hdone⟩
    · exact ⟨⟨t.request, m.stage⟩, if_pos rfl, by simp [hr, Stage.isDone]⟩
  once := by
    rcases moved_log_cases s i t m with hlog | ⟨r, hr, hlog⟩
    · rw [hlog]
      exact hs.once
    · rw [hlog, List.map_append, List.nodup_append]
      refine ⟨hs.once, by simp, ?_⟩
      intro a ha b hb heq
      obtain ⟨e, he, rfl⟩ := List.mem_map.mp ha
      obtain rfl : b = i := by simpa [Move.completed] using hb
      obtain ⟨t', ht', hdone⟩ := hs.answered e he
      rw [heq, ht] at ht'
      obtain rfl := Option.some.inj ht'
      simp [hopen] at hdone

end Moved

/-! ## The simulation -/

/-- Every ticket is some steps further on. -/
def AllLater (g g' : String → Status Nat) : Prop := ∀ cid, (g cid).Later (g' cid)

/-- If one challenge goes on to its next status, all are as far as they were or further. -/
theorem AllLater.update {g : String → Status Nat} {cid : String} {a : Status Nat}
    (h : (g cid).Next a) : AllLater g (Function.update g cid a) := by
  intro c
  by_cases hc : c = cid
  · subst hc
    rw [Function.update_self]
    exact h.later
  · rw [Function.update_of_ne hc]
    exact .refl _

/-- Being further adds up over the steps of a run. -/
theorem AllLater.trans {g g' g'' : String → Status Nat} (h : AllLater g g')
    (h' : AllLater g' g'') : AllLater g g'' := fun cid => (h cid).trans (h' cid)

section Update

variable {sha256 : Bytes → Bytes} {g : String → Status Nat} {s : System} {cid : String}

/-- Tickets that are held stay so when another one moves. -/
theorem Paid.holds_update (hs : Paid sha256 g s) (hfree : ∀ j, g cid ≠ .held j) (a : Status Nat)
    {j : Nat} {cid' : String} (hj : s.Holds j cid') : Function.update g cid a cid' = .held j := by
  have hheld := hs.holds j cid' hj
  have hne : cid' ≠ cid := by
    rintro rfl
    exact hfree j hheld
  rw [Function.update_of_ne hne]
  exact hheld

/-- The challenges left when one is taken out of the map. -/
theorem Paid.active_removed (hs : Paid sha256 g s) (a : Status Nat) {cid' : String} {c : Challenge}
    (hc : Function.update s.state.challenges cid none cid' = some c) :
    Function.update g cid a cid' = .active ∧
      ∃ nonce, cid' = hexEncode nonce ∧ c = challengeOf nonce := by
  by_cases heq : cid' = cid
  · rw [heq, Function.update_self] at hc
    cases hc
  · rw [Function.update_of_ne heq] at hc ⊢
    exact hs.active cid' c hc

/-- A ticket that moves on had been issued. -/
theorem ne_unissued_of_update (hg : g cid = .active) {a : Status Nat} {cid' : String}
    (h : Function.update g cid a cid' ≠ .unissued) : g cid' ≠ .unissued := by
  by_cases heq : cid' = cid
  · rw [heq, hg]
    exact nofun
  · rw [Function.update_of_ne heq] at h
    exact h

variable {i : Nat} {t : Task} {m : Move}

/-- What was issued stays issued. -/
theorem Paid.issued_moved (hs : Paid sha256 g s) (i : Nat) (t : Task) (m : Move) {cid : String}
    (hcid : g cid ≠ .unissued) :
    ∃ e nonce, e ∈ (s.moved i t m).log ∧ e.Issues nonce ∧ cid = hexEncode nonce := by
  obtain ⟨e, n, he, hiss, hid⟩ := hs.issued cid hcid
  exact ⟨e, n, (moved_log_grows s i t m).subset he, hiss, hid⟩

/-- A task that was paid before held its challenge before. -/
theorem Paid.holds_of_paid (hs : Paid sha256 g s) (ht : s.tasks[i]? = some t)
    (hpaid : t.stage.paid = true) {j : Nat} {cid : String} (hj : (s.moved i t m).Holds j cid) :
    g cid = .held j := by
  rcases holds_moved ht hj with hold | ⟨rfl, -, sol, hwork⟩
  · exact hs.holds j cid hold
  · exact hs.holds j cid (.inl ⟨t, sol, ht, hpaid, hwork⟩)

/-- A task that is neither paid now nor writing holds nothing new. -/
theorem holds_of_unpaid (ht : s.tasks[i]? = some t) (hpaid : m.stage.paid = false)
    (hwrites : m.writes = false) {j : Nat} {cid : String} (hj : (s.moved i t m).Holds j cid) :
    s.Holds j cid := by
  rcases holds_moved ht hj with hold | ⟨-, h | h, -⟩
  · exact hold
  · simp [hpaid] at h
  · simp [hwrites] at h

/-- A challenge is issued: its ticket becomes active. -/
theorem Paid.issue (hs : Paid sha256 g s) (ht : s.tasks[i]? = some t)
    (hopen : t.stage.isDone = false) {nonce : Bytes} (hunissued : g (hexEncode nonce) = .unissued)
    (hch : m.state.challenges =
      Function.update s.state.challenges (hexEncode nonce) (some (challengeOf nonce)))
    (hst : m.stage = .done (some (challengeResponse nonce))) (hwrites : m.writes = false) :
    Paid sha256 (Function.update g (hexEncode nonce) .active) (s.moved i t m) := by
  refine hs.moved ht hopen ?_ ?_ ?_ ?_ ?_
  · intro cid c hc
    rw [hch] at hc
    by_cases hcid : cid = hexEncode nonce
    · rw [hcid, Function.update_self] at hc
      rw [hcid, Function.update_self]
      exact ⟨rfl, nonce, rfl, (Option.some.inj hc).symm⟩
    · rw [Function.update_of_ne hcid] at hc ⊢
      exact hs.active cid c hc
  · intro j cid hj
    refine hs.holds_update ?_ _ (holds_of_unpaid ht (by rw [hst]; rfl) hwrites hj)
    rw [hunissued]
    exact nofun
  · intro cid hcid
    by_cases heq : cid = hexEncode nonce
    · refine ⟨m.completed i t.request (some (challengeResponse nonce)) s.instant, nonce, ?_, rfl,
        heq⟩
      rw [moved_log_done hst]
      exact List.mem_append_right _ List.mem_cons_self
    · rw [Function.update_of_ne heq] at hcid
      exact hs.issued_moved i t m hcid
  · rw [hst]
    intro h
    cases h
  · simp [hwrites]

/-- A challenge is taken out of the map and nothing is proved: its ticket is void. -/
theorem Paid.burn (hs : Paid sha256 g s) (ht : s.tasks[i]? = some t)
    (hopen : t.stage.isDone = false) (hg : g cid = .active)
    (hch : m.state.challenges = Function.update s.state.challenges cid none)
    (hpaid : m.stage.paid = false) (hwrites : m.writes = false) :
    Paid sha256 (Function.update g cid .void) (s.moved i t m) := by
  refine hs.moved ht hopen ?_ ?_ ?_ ?_ ?_
  · intro cid' c hc
    rw [hch] at hc
    exact hs.active_removed _ hc
  · intro j cid' hj
    refine hs.holds_update ?_ _ (holds_of_unpaid ht hpaid hwrites hj)
    rw [hg]
    exact nofun
  · intro cid' hne
    exact hs.issued_moved i t m (ne_unissued_of_update hg hne)
  · simp [hpaid]
  · simp [hwrites]

/-- A challenge is taken out of the map in exchange for a solution: the task holds its ticket. -/
theorem Paid.redeem (hs : Paid sha256 g s) (ht : s.tasks[i]? = some t)
    (hopen : t.stage.isDone = false) (hg : g cid = .active) {sol : String}
    (hwork : t.request.work = some (cid, sol))
    (hproves : ∃ nonce, t.request.Proves sha256 nonce)
    (hch : m.state.challenges = Function.update s.state.challenges cid none)
    (hwrites : m.writes = false) :
    Paid sha256 (Function.update g cid (.held i)) (s.moved i t m) := by
  refine hs.moved ht hopen ?_ ?_ ?_ (fun _ => hproves) ?_
  · intro cid' c hc
    rw [hch] at hc
    exact hs.active_removed _ hc
  · intro j cid' hj
    rcases holds_moved ht hj with hold | ⟨rfl, -, sol', hwork'⟩
    · refine hs.holds_update ?_ _ hold
      rw [hg]
      exact nofun
    · rw [hwork] at hwork'
      obtain ⟨rfl, -⟩ : cid = cid' ∧ sol = sol' := by simpa using hwork'
      rw [Function.update_self]
  · intro cid' hne
    exact hs.issued_moved i t m (ne_unissued_of_update hg hne)
  · simp [hwrites]

end Update

/-- **One move of the relay is at most one step of one ticket**; a challenge that is taken out of the
    map by a task that does not get past the gate is void. -/
theorem Paid.powMoves {sha256 : Bytes → Bytes} {g : String → Status Nat} {s : System}
    (hs : Paid sha256 g s) {i : Nat} {t : Task} {m : Move} {nonce : Bytes}
    (ht : s.tasks[i]? = some t) (hopen : t.stage.isDone = false)
    (hm : PowMoves sha256 s.state t.request nonce t.stage m)
    (hfresh : t.stage = .issuing → ∀ e ∈ s.log, ¬ e.Issues nonce) :
    ∃ g', AllLater g g' ∧ Paid sha256 g' (s.moved i t m) ∧
      ∀ cid c, s.state.challenges cid = some c → m.state.challenges cid = none →
        m.stage.paid = false → g' cid = .void := by
  cases hm with
  | pass hch hpaid hwrites hissue =>
    refine ⟨g, fun _ => .refl _,
      hs.moved ht hopen ?_ ?_ (fun _ => hs.issued_moved i t m) ?_ ?_, ?_⟩
    · intro cid c hc
      rw [hch] at hc
      exact hs.active cid c hc
    · intro j cid hj
      cases hp : m.stage.paid with
      | true => exact hs.holds_of_paid ht (hpaid hp) hj
      | false => exact hs.holds j cid (holds_of_unpaid ht hp hwrites hj)
    · intro hp
      exact hs.tasks t (List.mem_of_getElem? ht) (hpaid hp)
    · simp [hwrites]
    · intro cid c hc hgone
      rw [hch, hc] at hgone
      cases hgone
  | issued hstage hch hst hwrites =>
    have hunissued : g (hexEncode nonce) = .unissued := by
      by_contra hne
      obtain ⟨e, n, he, hiss, hid⟩ := hs.issued _ hne
      rw [← hexEncode_injective hid] at hiss
      exact hfresh hstage e he hiss
    refine ⟨_, .update (hunissued ▸ .issue), hs.issue ht hopen hunissued hch hst hwrites, ?_⟩
    intro cid c hc hgone
    rw [hch] at hgone
    by_cases hcid : cid = hexEncode nonce
    · rw [hcid, Function.update_self] at hgone
      cases hgone
    · rw [Function.update_of_ne hcid, hc] at hgone
      cases hgone
  | @burnt cid challenge hactive hch hpaid hwrites hissue =>
    obtain ⟨hg, -⟩ := hs.active cid challenge hactive
    refine ⟨_, .update (hg ▸ .revoke), hs.burn ht hopen hg hch hpaid hwrites, ?_⟩
    intro cid' c hc hgone _
    rw [hch] at hgone
    by_cases heq : cid' = cid
    · rw [heq, Function.update_self]
    · rw [Function.update_of_ne heq, hc] at hgone
      cases hgone
  | @paid cid sol solution challenge hstage hwork hactive hdec hverify hch hst hwrites =>
    obtain ⟨hg, nonce', hid, rfl⟩ := hs.active cid challenge hactive
    have hproves : ∃ n, t.request.Proves sha256 n :=
      ⟨nonce', sol, solution, hid ▸ hwork, hdec, hverify⟩
    refine ⟨_, .update (hg ▸ .redeem i), hs.redeem ht hopen hg hwork hproves hch hwrites, ?_⟩
    intro cid' c _ _ hpaid
    obtain ⟨bytes, hbytes⟩ := hst
    rw [hbytes] at hpaid
    cases hpaid
  | wrote hstage hch hwrites hdone hissue =>
    refine ⟨g, fun _ => .refl _, hs.moved ht hopen ?_ (fun _ _ => hs.holds_of_paid ht hstage)
      (fun _ => hs.issued_moved i t m) ?_ (fun _ => hstage), ?_⟩
    · intro cid c hc
      rw [hch] at hc
      exact hs.active cid c hc
    · intro _
      exact hs.tasks t (List.mem_of_getElem? ht) hstage
    · intro cid c hc hgone
      rw [hch, hc] at hgone
      cases hgone

/-- The nonce of a challenge about to be issued is not that of an earlier one. -/
def FreshNonce (s : System) : Action → Prop
  | .move i _ nonce =>
    ∀ t, s.tasks[i]? = some t → t.stage = .issuing → ∀ e ∈ s.log, ¬ e.Issues nonce
  | .submit _ => True
  | .tick _ => True

/-- One action keeps the relay and the tickets in step. -/
theorem Paid.step {sha256 : Bytes → Bytes} (g : String → Status Nat) (s : System) (a : Action)
    (hs : Paid sha256 g s) (hfresh : FreshNonce s a) :
    ∃ g', AllLater g g' ∧ Paid sha256 g' (s.step sha256 a) := by
  cases a with
  | tick d =>
    exact ⟨g, fun _ => .refl _,
      ⟨hs.active, hs.holds, hs.issued, hs.tasks, hs.writes, hs.answered, hs.once⟩⟩
  | submit req =>
    refine ⟨g, fun _ => .refl _, ⟨hs.active, ?_, hs.issued, ?_, hs.writes, ?_, hs.once⟩⟩
    · rintro i cid (⟨t, sol, ht, hpaid, hwork⟩ | hlogged)
      · rcases Nat.lt_or_ge i s.tasks.length with hlt | hge
        · have ht' : s.tasks[i]? = some t := by
            rw [← List.getElem?_append_left hlt]
            exact ht
          exact hs.holds i cid (.inl ⟨t, sol, ht', hpaid, hwork⟩)
        · have hmem : t ∈ [(⟨req, .received⟩ : Task)] := by
            have ht' : (s.tasks ++ [⟨req, .received⟩])[i]? = some t := ht
            rw [List.getElem?_append_right hge] at ht'
            exact List.mem_of_getElem? ht'
          rw [List.mem_singleton.mp hmem] at hpaid
          cases hpaid
      · exact hs.holds i cid (.inr hlogged)
    · intro t ht hpaid
      rcases List.mem_append.mp ht with hold | hnew
      · exact hs.tasks t hold hpaid
      · rw [List.mem_singleton.mp hnew] at hpaid
        cases hpaid
    · intro e he
      obtain ⟨t, ht, hdone⟩ := hs.answered e he
      refine ⟨t, ?_, hdone⟩
      show (s.tasks ++ [⟨req, .received⟩])[e.task]? = some t
      rw [List.getElem?_append_left (List.getElem?_eq_some_iff.mp ht).1]
      exact ht
  | move i nowSecs nonce =>
    rw [System.step]
    cases ht : s.tasks[i]? with
    | none => exact ⟨g, fun _ => .refl _, hs⟩
    | some t =>
      dsimp only
      split
      · exact ⟨g, fun _ => .refl _, hs⟩
      · rename_i hopen
        have hopen' : t.stage.isDone = false := Bool.eq_false_iff.mpr hopen
        obtain ⟨g', hlater, hpaid, -⟩ := hs.powMoves ht hopen'
          (advance_powMoves sha256 s.state t.request nowSecs nonce s.instant t.stage hopen')
          (hfresh t ht)
        exact ⟨g', hlater, hpaid⟩

theorem step_log_grows (sha256 : Bytes → Bytes) (s : System) (a : Action) :
    s.log <+: (s.step sha256 a).log := by
  cases a with
  | tick d => exact List.prefix_rfl
  | submit req => exact List.prefix_rfl
  | move i nowSecs nonce =>
    rw [System.step]
    cases s.tasks[i]? with
    | none => exact List.prefix_rfl
    | some t =>
      dsimp only
      split
      · exact List.prefix_rfl
      · exact moved_log_grows s i t _

/-- Nor does a run, so what is proved of a prefix is still there at the end. -/
theorem run_log_grows (sha256 : Bytes → Bytes) (s : System) (acts : List Action) :
    s.log <+: (run (System.step sha256) s acts).log := by
  refine run_inv (I := fun s' : System => s.log <+: s'.log) ?_ List.prefix_rfl acts
  intro s' a h
  exact h.trans (step_log_grows sha256 s' a)

/-- Nonces that differ all along differ up to any point. -/
theorem DistinctNonces.initial {log log' : List Completed} (h : DistinctNonces log')
    (hp : log <+: log') : DistinctNonces log := by
  intro j j' e e' nonce he he' hiss hiss'
  exact h j j' e e' nonce (getElem?_of_initial hp he) (getElem?_of_initial hp he') hiss hiss'

/-- Distinct nonces in the final log: every challenge of the run was fresh when it was issued. -/
theorem meets_freshNonce {sha256 : Bytes → Bytes} {s : System} {acts : List Action}
    (h : DistinctNonces (run (System.step sha256) s acts).log) :
    Meets (System.step sha256) FreshNonce s acts := by
  -- from the end: the log before the last action is a prefix of the log after it
  induction acts using List.reverseRecOn with
  | nil => trivial
  | append_singleton as a ih =>
    rw [run_concat] at h
    refine (meets_concat _ _ _ _ _).mpr ⟨ih (h.initial (step_log_grows sha256 _ a)), ?_⟩
    generalize run (System.step sha256) s as = s' at h
    cases a with
    | tick d => trivial
    | submit req => trivial
    | move i nowSecs nonce =>
      intro t ht hstage e he hiss
      have hlog : (s'.step sha256 (.move i nowSecs nonce)).log =
          s'.log ++ [⟨i, t.request, none, some (challengeResponse nonce), s'.instant⟩] := by
        rw [System.step, ht]
        dsimp only
        rw [hstage]
        exact moved_log_done rfl
      obtain ⟨j, hj, hget⟩ := List.mem_iff_getElem.mp he
      have hold : s'.log[j]? = some e := by rw [List.getElem?_eq_getElem hj, hget]
      have heq : j = s'.log.length :=
        h j s'.log.length e ⟨i, t.request, none, some (challengeResponse nonce), s'.instant⟩ nonce
          (getElem?_of_initial (step_log_grows sha256 s' _) hold)
          (by rw [hlog, List.getElem?_concat_length]) hiss rfl
      omega

/-- **Relay and tickets stay in step along every run with distinct nonces.** -/
theorem run_paid {sha256 : Bytes → Bytes} {g : String → Status Nat} {s : System}
    {acts : List Action} (hs : Paid sha256 g s)
    (h : DistinctNonces (run (System.step sha256) s acts).log) :
    ∃ g', AllLater g g' ∧ Paid sha256 g' (run (System.step sha256) s acts) :=
  meets_sim (T := AllLater) (fun _ _ => .refl _) AllLater.trans Paid.step hs (meets_freshNonce h)

/-! ## The gate -/

/-- `chal` sends each write to the challenge it was paid with: issued before, named by the request,
    its solution accepted; and no two writes to the same one. -/
def EachWritePaid (sha256 : Bytes → Bytes) (log : List Completed) : Prop :=
  ∃ chal : Nat → Nat,
    (∀ (k : Nat) e, log[k]? = some e → e.isWrite = true →
      chal k < k ∧ ∃ f nonce, log[chal k]? = some f ∧ f.Issues nonce ∧
        e.request.Proves sha256 nonce) ∧
    (∀ (k k' : Nat) e e', log[k]? = some e → log[k']? = some e' → e.isWrite = true →
      e'.isWrite = true → chal k = chal k' → k = k')

/-- The response carries a challenge. -/
def Completed.isChallenge (e : Completed) : Bool :=
  match e.response with
  | some (.ok _ _ _ (some _)) => true
  | _ => false

/-- An entry that issues a nonce is an answered challenge request. -/
theorem Completed.Issues.isChallenge {e : Completed} {nonce : Bytes} (h : e.Issues nonce) :
    e.isChallenge = true := by
  rw [Completed.isChallenge, h]
  rfl

/-- In the state `s` the action makes `pow::verify` reject a solution for an active challenge. -/
def System.Rejects (sha256 : Bytes → Bytes) (s : System) (a : Action) (cid : String) : Prop :=
  ∃ i nowSecs nonce t sol solution challenge err, a = .move i nowSecs nonce ∧
    s.tasks[i]? = some t ∧ t.stage = .verifying ∧ t.request.work = some (cid, sol) ∧
    b64Decode sol = .ok solution ∧ s.state.challenges cid = some challenge ∧
    powVerify sha256 challenge solution = .error err

/-- Two writes that name the same challenge are the same. -/
theorem Paid.write_unique {sha256 : Bytes → Bytes} {g : String → Status Nat} {s : System}
    (hs : Paid sha256 g s) {k k' : Nat} {e e' : Completed} {cid sol sol' : String}
    (hk : s.log[k]? = some e) (hk' : s.log[k']? = some e') (hw : e.isWrite = true)
    (hw' : e'.isWrite = true) (hwork : e.request.work = some (cid, sol))
    (hwork' : e'.request.work = some (cid, sol')) : k = k' := by
  have hheld := hs.holds e.task cid (.inr ⟨e, sol, List.mem_of_getElem? hk, rfl, hw, hwork⟩)
  have hheld' := hs.holds e'.task cid
    (.inr ⟨e', sol', List.mem_of_getElem? hk', rfl, hw', hwork'⟩)
  have htask : e.task = e'.task := Status.held.inj (hheld.symm.trans hheld')
  have hlt : k < s.log.length := (List.getElem?_eq_some_iff.mp hk).1
  refine (List.getElem?_inj (by simpa using hlt) hs.once).mp ?_
  rw [List.getElem?_map, List.getElem?_map, hk, hk', Option.map_some, Option.map_some, htask]

/-- A response carries one challenge. -/
theorem Completed.Issues.unique {e : Completed} {n n' : Bytes} (h : e.Issues n)
    (h' : e.Issues n') : n = n' := by
  have heq := Option.some.inj (h.symm.trans h')
  simp only [challengeResponse, WsResponse.okChallenge, WsResponse.ok.injEq,
    Option.some.injEq] at heq
  exact hexEncode_injective heq.2.2.2

/-- Writes are injected into the challenges they were paid with. -/
theorem Paid.eachWritePaid {sha256 : Bytes → Bytes} {g : String → Status Nat} {s : System}
    (hs : Paid sha256 g s) : EachWritePaid sha256 s.log := by
  have hex : ∀ k : Nat, ∃ j : Nat, ∀ e, s.log[k]? = some e → e.isWrite = true →
      j < k ∧ ∃ f nonce, s.log[j]? = some f ∧ f.Issues nonce ∧ e.request.Proves sha256 nonce := by
    intro k
    by_cases hw : ∃ e, s.log[k]? = some e ∧ e.isWrite = true
    · obtain ⟨e, he, hw⟩ := hw
      obtain ⟨nonce, hproves, j, f, hlt, hf, hissues⟩ := hs.writes k e he hw
      refine ⟨j, ?_⟩
      intro e' he' _
      obtain rfl := Option.some.inj (he.symm.trans he')
      exact ⟨hlt, f, nonce, hf, hissues, hproves⟩
    · exact ⟨0, fun e he hwr => absurd ⟨e, he, hwr⟩ hw⟩
  choose chal hchal using hex
  refine ⟨chal, hchal, ?_⟩
  intro k k' e e' hk hk' hw hw' hsame
  obtain ⟨-, f, nonce, hf, hissues, sol, _, hwork, -⟩ := hchal k e hk hw
  obtain ⟨-, f', nonce', hf', hissues', sol', _, hwork', -⟩ := hchal k' e' hk' hw'
  rw [hsame, hf'] at hf
  obtain rfl := Option.some.inj hf
  rw [hissues.unique hissues'] at hwork
  exact hs.write_unique hk hk' hw hw' hwork hwork'

/-- What becomes of a challenge for which a solution is rejected. -/
theorem Paid.rejects {sha256 : Bytes → Bytes} {g : String → Status Nat} {s : System}
    (hs : Paid sha256 g s) {a : Action} {cid : String} (hrej : s.Rejects sha256 a cid) :
    ∃ g', Paid sha256 g' (s.step sha256 a) ∧ g' cid = .void := by
  obtain ⟨i, nowSecs, nonce, t, sol, solution, challenge, err, rfl, ht, hstage, hwork, hdec,
    hactive, hverify⟩ := hrej
  obtain ⟨box, key, payload, hop⟩ := deposit_of_work hwork
  have hopen : t.stage.isDone = false := by rw [hstage]; rfl
  have hmove : advance sha256 s.state t.request nowSecs nonce s.instant t.stage =
      .to { s.state with challenges := Function.update s.state.challenges cid none }
        (.done (logged t.request.recipientId (.err ("PowFailed: " ++ err.report)))) := by
    rw [hstage, advance, hop]
    simp only [WsState.verifyPow, hdec, hactive, hverify]
  have hstep : s.step sha256 (.move i nowSecs nonce) =
      s.moved i t (advance sha256 s.state t.request nowSecs nonce s.instant t.stage) := by
    rw [System.step, ht]
    simp only [hopen, Bool.false_eq_true, if_false]
  obtain ⟨g', -, hpaid, hvoid⟩ := hs.powMoves ht hopen
    (advance_powMoves sha256 s.state t.request nowSecs nonce s.instant t.stage hopen)
    (by rw [hstage]; intro h; cases h)
  refine ⟨g', by rw [hstep]; exact hpaid, hvoid cid challenge hactive ?_ ?_⟩
  · rw [hmove]
    exact Function.update_self ..
  · rw [hmove]
    rfl

/-- **Each write is paid for with a challenge of its own.**  In every run with distinct nonces:
    writes are injected into the challenges issued before them; two writes never name the same
    challenge; a challenge for which a solution was rejected is never written with; and there are at
    most as many writes as challenges. -/
theorem pow_gate_sound (sha256 : Bytes → Bytes) (rate : Nat) (acts : List Action)
    (hdistinct : DistinctNonces (run (System.step sha256) (System.start rate) acts).log) :
    let log := (run (System.step sha256) (System.start rate) acts).log
    EachWritePaid sha256 log ∧
    (∀ (k k' : Nat) e e' cid sol sol', log[k]? = some e → log[k']? = some e' →
      e.isWrite = true → e'.isWrite = true → e.request.work = some (cid, sol) →
      e'.request.work = some (cid, sol') → k = k') ∧
    (∀ as a bs cid, acts = as ++ a :: bs →
      (run (System.step sha256) (System.start rate) as).Rejects sha256 a cid →
      ∀ e ∈ log, e.isWrite = true → ∀ sol, e.request.work ≠ some (cid, sol)) ∧
    log.countP Completed.isWrite ≤ log.countP Completed.isChallenge := by
  intro log
  obtain ⟨g, -, hs⟩ := run_paid (paid_start sha256 rate) hdistinct
  have hpaid := hs.eachWritePaid
  refine ⟨hpaid, ?_, ?_, ?_⟩
  · intro k k' e e' cid sol sol' hk hk' hw hw' hwork hwork'
    exact hs.write_unique hk hk' hw hw' hwork hwork'
  · intro as a bs cid hacts hrej e he hw sol hwork
    -- up to the rejection, at the rejection, and from there to the end
    have hrun : run (System.step sha256) (System.start rate) acts =
        run (System.step sha256)
          ((run (System.step sha256) (System.start rate) as).step sha256 a) bs := by
      rw [hacts, run_append]
      rfl
    have hprefix : (run (System.step sha256) (System.start rate) as).log <+: log := by
      show _ <+: (run (System.step sha256) (System.start rate) acts).log
      rw [hrun]
      exact (step_log_grows sha256 _ a).trans (run_log_grows sha256 _ bs)
    obtain ⟨g₁, -, hs₁⟩ := run_paid (paid_start sha256 rate) (hdistinct.initial hprefix)
    obtain ⟨g₂, hs₂, hvoid⟩ := hs₁.rejects hrej
    obtain ⟨g₃, hlater, hs₃⟩ := run_paid hs₂ (hrun ▸ hdistinct)
    rw [← hrun] at hs₃
    have hheld := hs₃.holds e.task cid (.inr ⟨e, sol, he, rfl, hw, hwork⟩)
    have hfinal := hlater cid
    rw [hvoid] at hfinal
    rw [hfinal.of_void] at hheld
    cases hheld
  · obtain ⟨chal, hchal, hinj⟩ := hpaid
    refine countP_le_of_injection chal ?_ hinj
    intro k e hk hw
    obtain ⟨-, f, nonce, hf, hissues, -⟩ := hchal k e hk hw
    exact ⟨f, hf, hissues.isChallenge⟩

/-- A decidable form of distinctness: no challenge is followed by an equal response. -/
theorem distinctNonces_of_pairwise {log : List Completed}
    (h : log.Pairwise fun e e' => e.isChallenge = true → e.response ≠ e'.response) :
    DistinctNonces log := by
  have hlt : ∀ (j j' : Nat) e e' nonce, log[j]? = some e → log[j']? = some e' → e.Issues nonce →
      e'.Issues nonce → ¬ j < j' := by
    intro j j' e e' nonce he he' hiss hiss' hlt
    obtain ⟨hj, rfl⟩ := List.getElem?_eq_some_iff.mp he
    obtain ⟨hj', rfl⟩ := List.getElem?_eq_some_iff.mp he'
    exact List.pairwise_iff_getElem.mp h j j' hj hj' hlt hiss.isChallenge (hiss.trans hiss'.symm)
  intro j j' e e' nonce he he' hiss hiss'
  have h₁ := hlt j j' e e' nonce he he' hiss hiss'
  have h₂ := hlt j' j e' e nonce he' he hiss' hiss
  omega

/-- Two sends race with one challenge, and a third submits a wrong solution for the other challenge
    before a fourth submits the right one. -/
def racingSends : List Action :=
  twoChallenges ++
  [.submit (.sendEnvelope "bob" "aGk=" "000102030405060708090a0b0c0d0e0f" "pFcgAAAAAAA="),
    .submit (.sendEnvelope "bob" "eW8=" "000102030405060708090a0b0c0d0e0f" "pFcgAAAAAAA="),
    .move 2 0 [], .move 3 0 [], .move 2 0 [], .move 3 0 [], .move 3 0 [], .move 2 0 [],
    .move 3 0 [], .move 3 0 []] ++
  exchange 4 3 (.sendEnvelope "bob" "aGk=" "101112131415161718191a1b1c1d1e1f" "AAAA") [] ++
  exchange 5 5 (.sendEnvelope "bob" "aGk=" "101112131415161718191a1b1c1d1e1f" "7fMNAAAAAAA=") []

/-- One of the four writes. -/
theorem racing_sends_write_once :
    DistinctNonces (run (System.step sampleSha256) (System.start 10) racingSends).log ∧
      EachWritePaid sampleSha256
        (run (System.step sampleSha256) (System.start 10) racingSends).log ∧
      (run (System.step sampleSha256) (System.start 10) racingSends).log.map Completed.isWrite =
        [false, false, false, true, false, false] := by
  have hdistinct : DistinctNonces
      (run (System.step sampleSha256) (System.start 10) racingSends).log :=
    distinctNonces_of_pairwise (by decide +kernel)
  exact ⟨hdistinct, (pow_gate_sound sampleSha256 10 racingSends hdistinct).1, by decide +kernel⟩

end E2EMessaging.Relay
