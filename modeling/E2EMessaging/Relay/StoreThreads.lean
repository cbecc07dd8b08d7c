/-
  THE STORE ON ITS OWN, called by any number of threads (`RelayStore::{store, pickup, purge}`).

  A `store` reads the clock and computes its expiry BEFORE it takes the lock, so between the two
  anything may happen, also another store for the same recipient that read the clock later.  The
  other two calls do all they do under the lock.  The log has the calls in LOCK ORDER.

  `store_delivery_safe`: every successful pickup returns what one earlier store put there for the
  same recipient, with no call for that recipient in between, and not after that store's time plus
  its ttl; and no two pickups — answered with the envelope or with `Expired` — go back to the same
  store.  So an envelope is delivered at most once, to its recipient only, never after its expiry,
  and reported expired at most once.
-/
import E2EMessaging.Lib.Run
import E2EMessaging.Relay.Store

namespace E2EMessaging.Relay

open E2EMessaging.Lib

/-! ## Calls -/

/-- A `store` call that has read the clock and waits for the lock. -/
structure PendingStore where
  recipientId : String
  envelope : Bytes
  ttl : Nat
  stamp : Nat
  deriving Repr, DecidableEq

/-- A call that has had the lock; `now` is the clock while it held it. -/
inductive StoreCall where
  | store (recipientId : String) (envelope : Bytes) (ttl stamp now : Nat)
  | pickup (recipientId : String) (result : Except StoreError Bytes) (now : Nat)
  | purge (recipientId : String) (now : Nat)

/-- The recipient a call is about. -/
def StoreCall.recipientId : StoreCall → String
  | .store r _ _ _ _ => r
  | .pickup r _ _ => r
  | .purge r _ => r

/-- A store and its callers: `store` calls by number (none once they have had the lock), the clock,
    the calls that have had the lock. -/
structure StoreThreads where
  store : RelayStore
  pending : List (Option PendingStore)
  instant : Nat
  log : List StoreCall

/-- What can happen next. -/
inductive StoreAction where
  | tick (d : Nat)
  /-- A thread calls `store`: it reads the clock. -/
  | call (recipientId : String) (envelope : Bytes) (ttl : Nat)
  /-- `store` call number `i` gets the lock. -/
  | lock (i : Nat)
  | pickup (recipientId : String)
  | purge (recipientId : String)
  deriving Repr, DecidableEq

/-- A new store that nobody has called. -/
def StoreThreads.start : StoreThreads := ⟨.new, [], 0, []⟩

/-- One step of one thread, or of the clock. -/
def StoreThreads.step (s : StoreThreads) : StoreAction → StoreThreads
  | .tick d => { s with instant := s.instant + d }
  | .call r envelope ttl => { s with pending := s.pending ++ [some ⟨r, envelope, ttl, s.instant⟩] }
  | .lock i =>
    match s.pending[i]? with
    | some (some p) =>
      { s with
        store := (s.store.insert p.recipientId p.envelope (p.stamp + p.ttl)).1
        pending := s.pending.set i none
        log := s.log ++ [.store p.recipientId p.envelope p.ttl p.stamp s.instant] }
    | _ => s
  | .pickup r =>
    { s with
      store := (s.store.pickup r s.instant).1
      log := s.log ++ [.pickup r (s.store.pickup r s.instant).2 s.instant] }
  | .purge r =>
    { s with
      store := (s.store.purge r).1
      log := s.log ++ [.purge r s.instant] }

/-! ## The log as the history of every recipient's slot -/

/-- What a call did to the slot of a recipient. -/
def StoreCall.use (r : String) : StoreCall → Option (Use Bytes)
  | .store r' envelope ttl stamp now =>
    if r' = r then some (.put envelope (stamp + ttl) now) else none
  | .pickup r' _ now => if r' = r then some (.take now) else none
  | .purge r' now => if r' = r then some (.clear now) else none

theorem use_eq_none {c : StoreCall} {r : String} (h : r ≠ c.recipientId) : c.use r = none := by
  cases c <;> exact if_neg (Ne.symm h)

theorem use_self_isSome (c : StoreCall) : (c.use c.recipientId).isSome = true := by
  cases c <;> simp [StoreCall.use, StoreCall.recipientId]

theorem recipientId_of_use {c : StoreCall} {r : String} {u : Use Bytes} (h : c.use r = some u) :
    c.recipientId = r := by
  by_contra hne
  rw [use_eq_none (Ne.symm hne)] at h
  cases h

/-- A slot is filled by a `store` for its recipient. -/
theorem use_eq_put {c : StoreCall} {r : String} {v : Bytes} {expiry now : Nat}
    (h : c.use r = some (.put v expiry now)) :
    ∃ ttl stamp, c = .store r v ttl stamp now ∧ expiry = stamp + ttl := by
  obtain rfl := recipientId_of_use h
  cases c with
  | store r' envelope ttl stamp now' =>
    obtain ⟨rfl, rfl, rfl⟩ : envelope = v ∧ stamp + ttl = expiry ∧ now' = now := by
      simpa [StoreCall.use, StoreCall.recipientId] using h
    exact ⟨ttl, stamp, rfl, rfl⟩
  | pickup r' result now' => simp [StoreCall.use, StoreCall.recipientId] at h
  | purge r' now' => simp [StoreCall.use, StoreCall.recipientId] at h

/-- What every run keeps: the map is the replay of the log, pickups answered what the slot said,
    and clock readings lie in the past. -/
structure StoreThreads.Sound (s : StoreThreads) : Prop where
  slots : s.store.Replays fun r => slotOf (StoreCall.use r) s.log
  answers : ∀ (k : Nat) r result now, s.log[k]? = some (.pickup r result now) →
    result = ofTaken (taken (heldAt (s.log.map (StoreCall.use r)) k) now)
  pending : ∀ p, some p ∈ s.pending → p.stamp ≤ s.instant
  stamps : ∀ r envelope ttl stamp now, .store r envelope ttl stamp now ∈ s.log → stamp ≤ now

theorem StoreThreads.sound_start : StoreThreads.start.Sound where
  slots := fun _ => rfl
  answers := fun k r result now h => by simp [StoreThreads.start] at h
  pending := fun _ h => absurd h List.not_mem_nil
  stamps := fun _ _ _ _ _ h => absurd h List.not_mem_nil

/-- One more call leaves the slots of other recipients as they were. -/
theorem slotOf_other {log : List StoreCall} {c : StoreCall} {r : String}
    (h : r ≠ c.recipientId) :
    slotOf (StoreCall.use r) (log ++ [c]) = slotOf (StoreCall.use r) log :=
  slotOf_concat_other (use_eq_none h)

/-- The answers in the log after one more call: if it is a pickup, it answered what its slot
    said. -/
theorem answers_concat {log : List StoreCall} {c : StoreCall}
    (hlog : ∀ (k : Nat) r result now, log[k]? = some (.pickup r result now) →
      result = ofTaken (taken (heldAt (log.map (StoreCall.use r)) k) now))
    (hc : ∀ r result now, c = .pickup r result now →
      result = ofTaken (taken (slotOf (StoreCall.use r) log) now)) :
    ∀ (k : Nat) r result now, (log ++ [c])[k]? = some (.pickup r result now) →
      result = ofTaken (taken (heldAt ((log ++ [c]).map (StoreCall.use r)) k) now) := by
  intro k r result now hk
  have hlen : k < (log ++ [c]).length := (List.getElem?_eq_some_iff.mp hk).1
  rw [List.length_append, List.length_singleton] at hlen
  rw [heldAt_map_concat _ _ _ (by omega)]
  rcases Nat.lt_or_ge k log.length with hlt | hge
  · rw [List.getElem?_append_left hlt] at hk
    exact hlog k r result now hk
  · obtain rfl : k = log.length := by omega
    rw [List.getElem?_concat_length] at hk
    exact hc r result now (Option.some.inj hk)

/-- One step keeps the store sound. -/
theorem StoreThreads.Sound.step {s : StoreThreads} (hs : s.Sound) (a : StoreAction) :
    (s.step a).Sound := by
  cases a with
  | tick d =>
    refine ⟨hs.slots, hs.answers, ?_, hs.stamps⟩
    intro p hp
    have hle := hs.pending p hp
    show p.stamp ≤ s.instant + d
    omega
  | call r envelope ttl =>
    refine ⟨hs.slots, hs.answers, ?_, hs.stamps⟩
    intro p hp
    rcases List.mem_append.mp hp with hold | hnew
    · exact hs.pending p hold
    · obtain rfl := Option.some.inj (List.mem_singleton.mp hnew)
      exact Nat.le_refl _
  | lock i =>
    rw [StoreThreads.step]
    split
    · rename_i p hp
      have hmem : some p ∈ s.pending := List.mem_of_getElem? hp
      refine ⟨?_, answers_concat hs.answers (by intro r result now h; cases h), ?_, ?_⟩
      · refine hs.slots.insert (n := s.log.length) ?_ ?_
        · rw [slotOf_concat]
          simp [StoreCall.use, Use.leaves]
        · intro r' hr'
          exact slotOf_other hr'
      · intro p' hp'
        rcases List.mem_or_eq_of_mem_set hp' with hold | hnew
        · exact hs.pending p' hold
        · cases hnew
      · intro r envelope ttl stamp now h
        rcases List.mem_append.mp h with hold | hnew
        · exact hs.stamps r envelope ttl stamp now hold
        · obtain ⟨-, -, -, rfl, rfl⟩ := StoreCall.store.inj (List.mem_singleton.mp hnew)
          exact hs.pending p hmem
    · exact hs
  | pickup r =>
    have hself : ∀ result, slotOf (StoreCall.use r)
        (s.log ++ [.pickup r result s.instant]) = none := by
      intro result
      rw [slotOf_concat]
      simp [StoreCall.use, Use.leaves]
    have hpick : (s.store.pickup r s.instant).1.Replays (fun r' => slotOf (StoreCall.use r')
          (s.log ++ [.pickup r (s.store.pickup r s.instant).2 s.instant])) ∧
        (s.store.pickup r s.instant).2 =
          ofTaken (taken (slotOf (StoreCall.use r) s.log) s.instant) :=
      hs.slots.pickup s.instant (hself _) (fun r' hr' => slotOf_other hr')
    refine ⟨hpick.1, answers_concat hs.answers ?_, hs.pending, ?_⟩
    · intro r' result now h
      obtain ⟨rfl, rfl, rfl⟩ := StoreCall.pickup.inj h
      exact hpick.2
    · intro r' envelope ttl stamp now h
      rcases List.mem_append.mp h with hold | hnew
      · exact hs.stamps r' envelope ttl stamp now hold
      · cases List.mem_singleton.mp hnew
  | purge r =>
    refine ⟨?_, answers_concat hs.answers (by intro r' result now h; cases h), hs.pending, ?_⟩
    · refine hs.slots.remove (r := r) ?_ (fun r' hr' => slotOf_other hr')
      show slotOf (StoreCall.use r) (s.log ++ [.purge r s.instant]) = none
      rw [slotOf_concat]
      simp [StoreCall.use, Use.leaves]
    · intro r' envelope ttl stamp now h
      rcases List.mem_append.mp h with hold | hnew
      · exact hs.stamps r' envelope ttl stamp now hold
      · cases List.mem_singleton.mp hnew

/-- **Every run is sound.** -/
theorem StoreThreads.run_sound (acts : List StoreAction) :
    (run StoreThreads.step StoreThreads.start acts).Sound :=
  run_inv (fun _ a hs => hs.step a) StoreThreads.sound_start acts

/-! ## Delivery -/

/-- Nobody called for recipient `r` strictly between the two positions. -/
def Uncalled (log : List StoreCall) (r : String) (i j : Nat) : Prop :=
  ∀ (m : Nat) c, i < m → m < j → log[m]? = some c → c.recipientId ≠ r

/-- Call number `j` is a pickup that found an envelope, in time or expired. -/
def FoundOne (log : List StoreCall) (j : Nat) : Prop :=
  ∃ r result now, log[j]? = some (.pickup r result now) ∧
    ((∃ envelope, result = .ok envelope) ∨ result = .error .expired)

/-- `src` sends each pickup that found an envelope back to the store call it came from. -/
structure DeliverySafe (log : List StoreCall) (src : Nat → Nat) : Prop where
  delivered : ∀ (j : Nat) r envelope now, log[j]? = some (.pickup r (.ok envelope) now) →
    src j < j ∧ Uncalled log r (src j) j ∧
      ∃ ttl stamp t, log[src j]? = some (.store r envelope ttl stamp t) ∧ stamp ≤ t ∧
        now ≤ stamp + ttl
  expired : ∀ (j : Nat) r now, log[j]? = some (.pickup r (.error .expired) now) →
    src j < j ∧ Uncalled log r (src j) j ∧
      ∃ envelope ttl stamp t, log[src j]? = some (.store r envelope ttl stamp t) ∧ stamp ≤ t ∧
        stamp + ttl < now
  once : ∀ j j', FoundOne log j → FoundOne log j' → src j = src j' → j = j'

/-- The store call behind what pickup number `j` found. -/
def foundSource (log : List StoreCall) (j : Nat) : Nat :=
  match log[j]? with
  | some (.pickup r _ _) =>
    match heldAt (log.map (StoreCall.use r)) j with
    | some x => x.source
    | none => 0
  | _ => 0

theorem foundSource_eq {log : List StoreCall} {j : Nat} {r : String}
    {result : Except StoreError Bytes} {now : Nat} (hj : log[j]? = some (.pickup r result now))
    {x : Held Bytes} (hx : heldAt (log.map (StoreCall.use r)) j = some x) :
    foundSource log j = x.source := by
  rw [foundSource, hj]
  dsimp only
  rw [hx]

/-- What is in a recipient's slot came from a store for that recipient, and nobody has called for
    the recipient since. -/
theorem held_source {log : List StoreCall} {r : String} {j : Nat} {x : Held Bytes}
    (hx : heldAt (log.map (StoreCall.use r)) j = some x) :
    x.source < j ∧ Uncalled log r x.source j ∧
      ∃ ttl stamp t, log[x.source]? = some (.store r x.value ttl stamp t) ∧
        x.expiry = stamp + ttl := by
  obtain ⟨hlt, ⟨now, hput⟩, hunt⟩ := (heldAt_eq_some_iff _ _ _).mp hx
  refine ⟨hlt, ?_, ?_⟩
  · intro m c him hmj hm hr
    obtain ⟨u, hu⟩ := Option.isSome_iff_exists.mp (use_self_isSome c)
    rw [hr] at hu
    refine hunt m him hmj u ?_
    rw [List.getElem?_map, hm, Option.map_some, hu]
  · rw [List.getElem?_map] at hput
    obtain ⟨c, hc, huse⟩ := Option.map_eq_some_iff.mp hput
    obtain ⟨ttl, stamp, rfl, hexp⟩ := use_eq_put huse
    exact ⟨ttl, stamp, now, hc, hexp⟩

/-- A pickup that found an envelope: what its slot held. -/
theorem StoreThreads.Sound.found {s : StoreThreads} (hs : s.Sound) {j : Nat} {r : String}
    {result : Except StoreError Bytes} {now : Nat}
    (hj : s.log[j]? = some (.pickup r result now))
    (hres : (∃ envelope, result = .ok envelope) ∨ result = .error .expired) :
    ∃ x, heldAt (s.log.map (StoreCall.use r)) j = some x ∧ foundSource s.log j = x.source := by
  have hans := hs.answers j r result now hj
  rcases hres with ⟨envelope, rfl⟩ | rfl
  · obtain ⟨x, hx, -, -⟩ := taken_eq_got_iff.mp (ofTaken_eq_ok hans)
    exact ⟨x, hx, foundSource_eq hj hx⟩
  · obtain ⟨x, hx, -⟩ := taken_eq_expired_iff.mp (ofTaken_eq_expired hans)
    exact ⟨x, hx, foundSource_eq hj hx⟩

/-- **Delivery safety of the store**, for any interleaving of `store`, `pickup` and `purge`: each
    pickup that finds an envelope goes back to one earlier store for the same recipient, with no call
    for that recipient in between, in time if it is answered with the envelope and too late if it is
    answered `Expired`; no two go back to the same store. -/
theorem store_delivery_safe (acts : List StoreAction) :
    DeliverySafe (run StoreThreads.step StoreThreads.start acts).log
      (foundSource (run StoreThreads.step StoreThreads.start acts).log) := by
  have hs := StoreThreads.run_sound acts
  generalize run StoreThreads.step StoreThreads.start acts = s at hs
  constructor
  · intro j r envelope now hj
    obtain ⟨x, hx, hnow, rfl⟩ :=
      taken_eq_got_iff.mp (ofTaken_eq_ok (hs.answers j r _ now hj))
    obtain ⟨hlt, huncalled, ttl, stamp, t, hstore, hexp⟩ := held_source hx
    rw [foundSource_eq hj hx]
    rw [hexp] at hnow
    exact ⟨hlt, huncalled, ttl, stamp, t, hstore,
      hs.stamps _ _ _ _ _ (List.mem_of_getElem? hstore), hnow⟩
  · intro j r now hj
    obtain ⟨x, hx, hnow⟩ :=
      taken_eq_expired_iff.mp (ofTaken_eq_expired (hs.answers j r _ now hj))
    obtain ⟨hlt, huncalled, ttl, stamp, t, hstore, hexp⟩ := held_source hx
    rw [foundSource_eq hj hx]
    rw [hexp] at hnow
    exact ⟨hlt, huncalled, x.value, ttl, stamp, t, hstore,
      hs.stamps _ _ _ _ _ (List.mem_of_getElem? hstore), hnow⟩
  · rintro j j' ⟨r, result, now, hj, hres⟩ ⟨r', result', now', hj', hres'⟩ hsame
    obtain ⟨x, hx, hsrc⟩ := hs.found hj hres
    obtain ⟨x', hx', hsrc'⟩ := hs.found hj' hres'
    have heq : x.source = x'.source := by rw [← hsrc, ← hsrc', hsame]
    -- one store names one recipient
    obtain ⟨-, -, ttl, stamp, t, hstore, -⟩ := held_source hx
    obtain ⟨-, -, ttl', stamp', t', hstore', -⟩ := held_source hx'
    rw [heq, hstore'] at hstore
    obtain ⟨rfl, -⟩ := StoreCall.store.inj (Option.some.inj hstore)
    have htake : (s.log.map (StoreCall.use r'))[j]? = some (some (.take now)) := by
      rw [List.getElem?_map, hj]
      simp [StoreCall.use]
    have htake' : (s.log.map (StoreCall.use r'))[j']? = some (some (.take now')) := by
      rw [List.getElem?_map, hj']
      simp [StoreCall.use]
    exact taken_once htake htake' hx hx' heq

end E2EMessaging.Relay
