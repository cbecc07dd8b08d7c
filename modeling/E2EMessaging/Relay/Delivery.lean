/-
  WHAT THE RELAY DELIVERS: envelopes and prekey bundles, under every interleaving.

  Both stores are one slot per key, so both promises fail for the same structural reason and hold
  exactly where the slot does not matter:

  * ENVELOPES (`NoEnvelopeLost`).  Each envelope handed out was sent to that recipient and is handed
    out once; each accepted envelope whose mailbox is later found empty before its expiry has been
    handed out.  The first half always holds.  The second fails when a send REPLACES an envelope
    that has not expired: `no_envelope_lost` proves it for every run in which none does.

  * PREKEYS (`LookupIsRead`).  A lookup is served by the same destructive `pickup`: after a publish,
    the bundle is returned exactly to the FIRST lookup that is served, if it comes in time
    (`lookup_answers_bundle_iff`).
-/
import E2EMessaging.Relay.System

namespace E2EMessaging.Relay

open E2EMessaging.Lib

/-! ## Reading requests off log entries -/

/-- A log statement answers, or panics, whatever it is to answer with: it looks at the recipient alone. -/
theorem logged_eq_some {r : String} {x y : WsResponse} (h : logged r x = some y) :
    x = y ∧ ∀ z, logged r z = some z := by
  rw [logged] at h
  cases ht : truncateId r with
  | none => simp [ht] at h
  | some s =>
    refine ⟨by simpa [ht] using h, ?_⟩
    intro z
    rw [logged, ht]
    rfl

/-- A pickup that reached the store is not mistaken for one that the rate limiter refused. -/
theorem collectResponse_ne_rateLimit (box : Mailbox) (result : Except StoreError Bytes) :
    collectResponse box result ≠ .err "RateLimitExceeded" := by
  cases result with
  | ok bytes => cases box <;> simp [collectResponse, WsResponse.okBundle, WsResponse.okEnvelope]
  | error e => cases e <;> simp [collectResponse]

/-- A lookup or pickup that is answered and not rate limited has reached its store. -/
theorem collect_served {e : Completed} (he : e.Sound) {box : Mailbox} {key : String}
    (hop : e.request.op = .collect box key) {resp : WsResponse} (hresp : e.response = some resp)
    (hne : resp ≠ .err "RateLimitExceeded") :
    ∃ result, e.effect = some (.collected box key result) ∧ resp = collectResponse box result := by
  cases he with
  | refused _ href =>
    rw [hresp] at href
    generalize hr : some resp = r at href
    cases href with
    | rateLimited => exact absurd (logged_eq_some hr.symm).1.symm hne
    | issued hop' => simp [hop] at hop'
    | powFailed hop' => simp [hop] at hop'
    | invalidBase64 hop' => simp [hop] at hop'
  | stored hdep _ _ _ =>
    obtain ⟨payload, cid, sol, hop', -⟩ := hdep
    simp [hop] at hop'
  | @collected box' key' result hop' heffect hresp' =>
    obtain ⟨rfl, rfl⟩ : box = box' ∧ key = key' := by simpa [hop] using hop'
    exact ⟨result, heffect, Option.some.inj (hresp.symm.trans hresp')⟩

/-- A lookup or pickup that is not rate limited has reached its store, if the recipient's identifier does not
    make a log statement panic. -/
theorem collect_answered {e : Completed} (he : e.Sound) {box : Mailbox} {key : String}
    (hop : e.request.op = .collect box key) (hr : ∀ z, logged e.request.recipientId z = some z)
    (hne : e.response ≠ some (.err "RateLimitExceeded")) :
    ∃ result, e.effect = some (.collected box key result) ∧
      e.response = some (collectResponse box result) := by
  cases hresp : e.response with
  | some resp =>
    obtain ⟨result, heffect, hcr⟩ := collect_served he hop hresp (fun h => hne (by rw [hresp, h]))
    exact ⟨result, heffect, by rw [hcr]⟩
  | none =>
    exfalso
    cases he with
    | refused _ href =>
      rw [hresp] at href
      generalize hn : (none : Option WsResponse) = x at href
      cases href with
      | rateLimited =>
        rw [hr] at hn
        cases hn
      | issued => cases hn
      | powFailed hop' => simp [hop] at hop'
      | invalidBase64 => cases hn
    | stored hdep _ _ _ =>
      obtain ⟨payload, cid, sol, hop', -⟩ := hdep
      simp [hop] at hop'
    | collected _ _ hresp' =>
      rw [hresp] at hresp'
      cases hresp'

/-- A publish or send that is answered ok has stored what it carried. -/
theorem deposit_accepted {e : Completed} (he : e.Sound) {box : Mailbox}
    {key payload cid sol : String} (hop : e.request.op = .deposit box key payload cid sol)
    (hresp : e.response = some .okSimple) :
    ∃ bytes stamp, b64Decode payload = .ok bytes ∧ stamp ≤ e.now ∧
      e.effect = some (.stored box key bytes (stamp + box.ttl)) := by
  cases he with
  | refused _ href =>
    rw [hresp] at href
    generalize hr : some WsResponse.okSimple = r at href
    cases href with
    | rateLimited => simpa [WsResponse.okSimple] using (logged_eq_some hr.symm).1
    | issued hop' => simp [hop] at hop'
    | powFailed _ e => simpa [WsResponse.okSimple] using (logged_eq_some hr.symm).1
    | invalidBase64 _ e => simp [WsResponse.okSimple] at hr
  | @stored box' key' bytes stamp hdep hstamp heffect _ =>
    obtain ⟨payload', cid', sol', hop', hdec⟩ := hdep
    obtain ⟨rfl, rfl, rfl, -, -⟩ : box = box' ∧ key = key' ∧ payload = payload' ∧ cid = cid' ∧
        sol = sol' := by simpa [hop] using hop'
    exact ⟨bytes, stamp, hdec, hstamp, heffect⟩
  | collected hop' _ _ => simp [hop] at hop'

/-- An entry that puts something into a slot. -/
theorem use_put {e : Completed} (he : e.Sound) {box : Mailbox} {key : String} {v : Bytes}
    {expiry now : Nat} (hu : e.use box key = some (.put v expiry now)) :
    Deposits e.request box key v ∧ e.effect = some (.stored box key v expiry) ∧
      e.response = logged e.request.recipientId .okSimple := by
  rw [Completed.use] at hu
  cases he with
  | refused heffect _ => simp [heffect] at hu
  | stored hdep _ heffect hresp =>
    rw [heffect] at hu
    dsimp only at hu
    split at hu
    · rename_i h
      obtain ⟨rfl, rfl⟩ := h
      simp only [Option.some.injEq, Use.put.injEq] at hu
      obtain ⟨rfl, rfl, -⟩ := hu
      exact ⟨hdep, heffect, hresp⟩
    · simp at hu
  | collected _ heffect _ =>
    rw [heffect] at hu
    dsimp only at hu
    split at hu <;> simp at hu

/-- An entry that takes something out of a slot. -/
theorem use_take {e : Completed} (he : e.Sound) {box : Mailbox} {key : String} {now : Nat}
    (hu : e.use box key = some (.take now)) :
    e.request.op = .collect box key ∧ now = e.now ∧
      ∃ result, e.effect = some (.collected box key result) ∧
        e.response = some (collectResponse box result) := by
  rw [Completed.use] at hu
  cases he with
  | refused heffect _ => simp [heffect] at hu
  | stored _ _ heffect _ =>
    rw [heffect] at hu
    dsimp only at hu
    split at hu <;> simp at hu
  | @collected _ _ result hop heffect hresp =>
    rw [heffect] at hu
    dsimp only at hu
    split at hu
    · rename_i h
      obtain ⟨rfl, rfl⟩ := h
      simp only [Option.some.injEq, Use.take.injEq] at hu
      exact ⟨hop, hu.symm, result, heffect, hresp⟩
    · simp at hu

/-- What a request did to a slot, it did at the instant of its entry. -/
theorem use_now {e : Completed} {box : Mailbox} {key : String} {u : Use Bytes}
    (hu : e.use box key = some u) : u.now = e.now := by
  rw [Completed.use] at hu
  split at hu
  · split at hu
    · rw [← Option.some.inj hu]
      rfl
    · simp at hu
  · split at hu
    · rw [← Option.some.inj hu]
      rfl
    · simp at hu
  · simp at hu

/-- A slot is never cleared. -/
theorem use_ne_clear {e : Completed} {box : Mailbox} {key : String} {now : Nat} :
    e.use box key ≠ some (.clear now) := by
  rw [Completed.use]
  split
  · split <;> simp
  · split <;> simp
  · simp

/-- An entry that stored is a put in the history of its slot. -/
theorem use_of_stored {e : Completed} {box : Mailbox} {key : String} {v : Bytes} {expiry : Nat}
    (h : e.effect = some (.stored box key v expiry)) :
    e.use box key = some (.put v expiry e.now) := by
  simp [Completed.use, h]

theorem use_of_collected {e : Completed} {box : Mailbox} {key : String}
    {result : Except StoreError Bytes} (h : e.effect = some (.collected box key result)) :
    e.use box key = some (.take e.now) := by
  simp [Completed.use, h]

/-- A position of the history that concerns the slot is a log entry that does. -/
theorem history_eq_some {log : List Completed} {box : Mailbox} {key : String} {n : Nat}
    {u : Use Bytes} (h : (history box key log)[n]? = some (some u)) :
    ∃ e, log[n]? = some e ∧ e.use box key = some u := by
  rw [history_getElem?] at h
  cases he : log[n]? with
  | none => simp [he] at h
  | some e => exact ⟨e, rfl, by simpa [he] using h⟩

/-- The history of a slot has one place for every entry of the log, filled or not. -/
theorem history_of_entry {log : List Completed} {n : Nat} {e : Completed} (he : log[n]? = some e)
    (box : Mailbox) (key : String) : (history box key log)[n]? = some (e.use box key) := by
  rw [history_getElem?, he]
  rfl

/-- Log times do not decrease. -/
theorem LogSound.now_le {log : List Completed} (hlog : LogSound log) {m n : Nat} {e f : Completed}
    (he : log[m]? = some e) (hf : log[n]? = some f) (h : m < n) : e.now ≤ f.now := by
  obtain ⟨hm, rfl⟩ := List.getElem?_eq_some_iff.mp he
  obtain ⟨hn, rfl⟩ := List.getElem?_eq_some_iff.mp hf
  exact List.pairwise_iff_getElem.mp hlog.ordered m n hm hn h

/-- Where the store said `NotFound`, the slot was empty: an expired envelope is told apart. -/
theorem taken_eq_empty {held : Option (Held Bytes)} {now : Nat}
    (h : .error .notFound = ofTaken (taken held now)) : held = none := by
  cases held with
  | none => rfl
  | some x =>
    rw [taken] at h
    split at h <;> simp [ofTaken] at h

/-- A collection answered with bytes: they are what the slot held. -/
theorem LogSound.collected_ok {log : List Completed} (hlog : LogSound log) {k : Nat}
    {e : Completed} {box : Mailbox} {key : String} {v : Bytes} (he : log[k]? = some e)
    (heffect : e.effect = some (.collected box key (.ok v))) :
    ∃ x, heldAt (history box key log) k = some x ∧ e.now ≤ x.expiry ∧ x.value = v :=
  taken_eq_got_iff.mp (ofTaken_eq_ok (hlog.collected k e box key _ he heffect))

/-- What was stored is collected, in time, if nothing was done to the slot in between. -/
theorem LogSound.collected_of_stored {log : List Completed} (hlog : LogSound log) {i k : Nat}
    {e f : Completed} {box : Mailbox} {key : String} {bytes : Bytes} {expiry : Nat}
    {result : Except StoreError Bytes} (he : log[i]? = some e)
    (heffect : e.effect = some (.stored box key bytes expiry)) (hik : i < k)
    (hf : log[k]? = some f) (hfeffect : f.effect = some (.collected box key result))
    (hbetween : ∀ (m : Nat) g, i < m → m < k → log[m]? = some g → g.use box key = none)
    (hnow : f.now ≤ expiry) : result = .ok bytes := by
  have hput : (history box key log)[i]? = some (some (.put bytes expiry e.now)) := by
    rw [history_of_entry he, use_of_stored heffect]
  have hheld := heldAt_of_put hput hik (fun m him hmk u hu => by
    obtain ⟨g, hg, huse⟩ := history_eq_some hu
    rw [hbetween m g him hmk hg] at huse
    cases huse)
  rw [hlog.collected k f _ _ _ hf hfeffect, taken_eq_got_iff.mpr ⟨_, hheld, hnow, rfl⟩]
  rfl

/-! ## Envelopes -/

/-- Each envelope a pickup hands out was sent before to the same recipient (`src` says by which
    request), no envelope is handed out twice, and an envelope whose send was answered ok has been
    handed out by the time a pickup finds the mailbox empty before the envelope's expiry. -/
def NoEnvelopeLost (log : List Completed) : Prop :=
  ∃ src : Nat → Nat,
    (∀ (j : Nat) g r text, log[j]? = some g → g.request = .pickupEnvelope r →
      g.response = some (.okEnvelope text) →
      src j < j ∧ ∃ e envelope cid sol bytes, log[src j]? = some e ∧
        e.request = .sendEnvelope r envelope cid sol ∧ b64Decode envelope = .ok bytes ∧
        text = b64Encode bytes) ∧
    (∀ (j j' : Nat) g g' r r' text text', log[j]? = some g → log[j']? = some g' →
      g.request = .pickupEnvelope r → g'.request = .pickupEnvelope r' →
      g.response = some (.okEnvelope text) → g'.response = some (.okEnvelope text') →
      src j = src j' → j = j') ∧
    (∀ (i : Nat) e r envelope cid sol, log[i]? = some e →
      e.request = .sendEnvelope r envelope cid sol → e.response = some .okSimple →
      ∃ bytes expiry, b64Decode envelope = .ok bytes ∧
        e.effect = some (.stored .envelopes r bytes expiry) ∧
        ∀ (k : Nat) f, i < k → log[k]? = some f → f.request = .pickupEnvelope r →
          f.response = some (.err "NotFound") → f.now ≤ expiry →
          ∃ (j : Nat) (g : Completed), i < j ∧ j < k ∧ log[j]? = some g ∧
            g.request = .pickupEnvelope r ∧
            g.response = some (.okEnvelope (b64Encode bytes)) ∧ src j = i)

/-- Task number `i` is about to store an envelope over one that has not expired. -/
def System.overwrites (s : System) (i : Nat) : Bool :=
  match s.tasks[i]? with
  | some ⟨.sendEnvelope r _ _ _, .storing _ _⟩ =>
    match s.state.store.inner r with
    | some (_, expiry) => decide (s.instant ≤ expiry)
    | none => false
  | _ => false

/-- A send is stored only if the recipient's mailbox is empty or what it holds has expired. -/
def NoOverwrite (s : System) : Action → Prop
  | .move i _ _ => s.overwrites i = false
  | .submit _ => True
  | .tick _ => True

instance (s : System) (a : Action) : Decidable (NoOverwrite s a) :=
  match a with
  | .move i _ _ => inferInstanceAs (Decidable (s.overwrites i = false))
  | .submit _ => .isTrue trivial
  | .tick _ => .isTrue trivial

/-- No put of the log replaced an unexpired envelope. -/
def GentleLog (log : List Completed) : Prop :=
  ∀ key n, Gentle (history .envelopes key log) n

/-- Bytes deposited for a recipient's envelopes came in a `send_envelope` that decodes to them. -/
theorem sendEnvelope_of_deposits {req : WsRequest} {key : String} {bytes : Bytes}
    (h : Deposits req .envelopes key bytes) :
    ∃ envelope cid sol, req = .sendEnvelope key envelope cid sol ∧
      b64Decode envelope = .ok bytes := by
  obtain ⟨payload, cid, sol, hop, hdec⟩ := h
  cases req with
  | sendEnvelope r envelope cid' sol' =>
    obtain ⟨rfl, rfl, -, -⟩ : r = key ∧ envelope = payload ∧ cid' = cid ∧ sol' = sol := by
      simpa [WsRequest.op] using hop
    exact ⟨envelope, cid', sol', rfl, hdec⟩
  | _ => simp [WsRequest.op] at hop

theorem pickupEnvelope_of_collect {req : WsRequest} {key : String}
    (h : req.op = .collect .envelopes key) : req = .pickupEnvelope key := by
  cases req with
  | pickupEnvelope r =>
    obtain rfl : r = key := by simpa [WsRequest.op] using h
    rfl
  | _ => simp [WsRequest.op] at h

/-- The request that sent what pickup number `j` handed out: the put its slot held. -/
def sourceOf (log : List Completed) (j : Nat) : Nat :=
  match log[j]? with
  | none => 0
  | some g =>
    match heldAt (history .envelopes g.request.recipientId log) j with
    | none => 0
    | some x => x.source

/-- What a pickup that hands out an envelope took. -/
theorem LogSound.handed_out {log : List Completed} (hlog : LogSound log) {j : Nat} {g : Completed}
    {r text : String} (hg : log[j]? = some g) (hreq : g.request = .pickupEnvelope r)
    (hresp : g.response = some (.okEnvelope text)) :
    ∃ x, heldAt (history .envelopes r log) j = some x ∧ sourceOf log j = x.source ∧
      text = b64Encode x.value ∧ (history .envelopes r log)[j]? = some (some (.take g.now)) := by
  have hop : g.request.op = .collect .envelopes r := by rw [hreq]; rfl
  obtain ⟨result, heffect, hcr⟩ := collect_served (hlog.entries g (List.mem_of_getElem? hg)) hop
    hresp (by simp [WsResponse.okEnvelope])
  cases result with
  | error e => cases e <;> simp [collectResponse, WsResponse.okEnvelope] at hcr
  | ok v =>
    obtain ⟨x, hx, -, rfl⟩ := hlog.collected_ok hg heffect
    refine ⟨x, hx, ?_, by simpa [collectResponse, WsResponse.okEnvelope] using hcr, ?_⟩
    · simp [sourceOf, hg, hreq, WsRequest.recipientId, hx]
    · rw [history_of_entry hg, use_of_collected heffect]

/-- **What a gentle log delivers.** -/
theorem noEnvelopeLost_of_gentle {log : List Completed} (hlog : LogSound log)
    (hgentle : GentleLog log) : NoEnvelopeLost log := by
  -- the request behind what a slot holds
  have hsource : ∀ {j : Nat} {r : String} {x : Held Bytes},
      heldAt (history .envelopes r log) j = some x → x.source < j ∧
        ∃ e envelope cid sol, log[x.source]? = some e ∧
          e.request = .sendEnvelope r envelope cid sol ∧ b64Decode envelope = .ok x.value := by
    intro j r x hx
    obtain ⟨hlt, ⟨now, hput⟩, -⟩ := (heldAt_eq_some_iff _ _ _).mp hx
    obtain ⟨e, he, huse⟩ := history_eq_some hput
    obtain ⟨hdep, -, -⟩ := use_put (hlog.entries e (List.mem_of_getElem? he)) huse
    obtain ⟨envelope, cid, sol, hreq, hdec⟩ := sendEnvelope_of_deposits hdep
    exact ⟨hlt, e, envelope, cid, sol, he, hreq, hdec⟩
  refine ⟨sourceOf log, ?_, ?_, ?_⟩
  · intro j g r text hg hreq hresp
    obtain ⟨x, hx, hsrc, htext, -⟩ := hlog.handed_out hg hreq hresp
    obtain ⟨hlt, e, envelope, cid, sol, he, hreq', hdec⟩ := hsource hx
    rw [hsrc]
    exact ⟨hlt, e, envelope, cid, sol, x.value, he, hreq', hdec, htext⟩
  · intro j j' g g' r r' text text' hg hg' hreq hreq' hresp hresp' hsame
    obtain ⟨x, hx, hsrc, -, htake⟩ := hlog.handed_out hg hreq hresp
    obtain ⟨x', hx', hsrc', -, htake'⟩ := hlog.handed_out hg' hreq' hresp'
    have heq : x.source = x'.source := by rw [← hsrc, ← hsrc', hsame]
    -- one send names one recipient
    obtain ⟨-, e, _, _, _, he, hr, -⟩ := hsource hx
    obtain ⟨-, e', _, _, _, he', hr', -⟩ := hsource hx'
    rw [heq] at he
    obtain rfl : e = e' := Option.some.inj (he.symm.trans he')
    rw [hr] at hr'
    obtain rfl : r = r' := (WsRequest.sendEnvelope.inj hr').1
    exact taken_once htake htake' hx hx' heq
  · intro i e r envelope cid sol he hreq hresp
    have hop : e.request.op = .deposit .envelopes r envelope cid sol := by rw [hreq]; rfl
    obtain ⟨bytes, stamp, hdec, -, heffect⟩ :=
      deposit_accepted (hlog.entries e (List.mem_of_getElem? he)) hop hresp
    generalize stamp + Mailbox.envelopes.ttl = expiry at heffect
    refine ⟨bytes, expiry, hdec, heffect, ?_⟩
    intro k f hik hf hfreq hfresp hfnow
    have hfop : f.request.op = .collect .envelopes r := by rw [hfreq]; rfl
    obtain ⟨result, hfeffect, hcr⟩ := collect_served (hlog.entries f (List.mem_of_getElem? hf))
      hfop hfresp (by decide)
    have hempty : heldAt (history .envelopes r log) k = none := by
      have hres := hlog.collected k f _ _ _ hf hfeffect
      cases result with
      | ok v => simp [collectResponse, WsResponse.okEnvelope] at hcr
      | error err =>
        cases err with
        | expired => simp [collectResponse] at hcr
        | notFound => exact taken_eq_empty hres
    have hput : (history .envelopes r log)[i]? =
        some (some (.put bytes expiry e.now)) := by
      rw [history_of_entry he, use_of_stored heffect]
    obtain ⟨j, t, hij, hjk, htake, hheld, hte⟩ :=
      taken_of_empty hput hik hempty (fun n _ => hgentle r n) (fun n u _ hnk hu => by
        obtain ⟨d, hd, huse⟩ := history_eq_some hu
        rw [use_now huse]
        exact Nat.le_trans (hlog.now_le hd hf hnk) hfnow)
    obtain ⟨g, hg, huse⟩ := history_eq_some htake
    obtain ⟨hgop, rfl, result', hgeffect, hgresp⟩ :=
      use_take (hlog.entries g (List.mem_of_getElem? hg)) huse
    have hgreq := pickupEnvelope_of_collect hgop
    have hres' : result' = .ok bytes := by
      rw [hlog.collected j g _ _ _ hg hgeffect, taken_eq_got_iff.mpr ⟨_, hheld, hte, rfl⟩]
      rfl
    refine ⟨j, g, hij, hjk, hg, hgreq, ?_, ?_⟩
    · rw [hgresp, hres']
      rfl
    · simp [sourceOf, hg, hgreq, WsRequest.recipientId, hheld]

/-- One more entry: if it puts an envelope, the slot was empty or expired. -/
theorem GentleLog.concat {log : List Completed} (hlog : GentleLog log) {e : Completed}
    (he : ∀ key v expiry now, e.use .envelopes key = some (.put v expiry now) →
      ∀ x, slot .envelopes log key = some x → x.expiry < e.now) : GentleLog (log ++ [e]) := by
  intro key n u hu htake x hx
  rw [history_concat] at hu hx
  have hlen := history_length .envelopes key log
  rcases Nat.lt_trichotomy n log.length with hlt | heq | hgt
  · rw [List.getElem?_append_left (by omega)] at hu
    rw [heldAt_append _ _ (by omega)] at hx
    exact hlog key n u hu htake x hx
  · subst heq
    have huse : e.use .envelopes key = some u := by
      rw [← hlen, List.getElem?_concat_length] at hu
      exact Option.some.inj hu
    rw [heldAt_append _ _ (by omega)] at hx
    rw [use_now huse]
    cases u with
    | put v expiry now => exact he key v expiry now huse x hx
    | take now => exact absurd rfl (htake now)
    | clear now => exact absurd huse use_ne_clear
  · have hnone : (history .envelopes key log ++ [e.use .envelopes key])[n]? = none := by
      rw [List.getElem?_eq_none_iff]
      simp
      omega
    rw [hnone] at hu
    cases hu

/-- If a send is about to store over an envelope and does not count as overwriting, that envelope has expired. -/
theorem expired_of_not_overwrites {s : System} {i : Nat} (h : s.overwrites i = false)
    {r envelope cid sol : String} {bytes v : Bytes} {expiry e : Nat}
    (ht : s.tasks[i]? = some ⟨.sendEnvelope r envelope cid sol, .storing bytes expiry⟩)
    (hr : s.state.store.inner r = some (v, e)) : e < s.instant := by
  rw [System.overwrites, ht] at h
  dsimp only at h
  rw [hr] at h
  simpa using h

/-- A move that meets the condition keeps the log gentle. -/
theorem gentle_moved {s : System} (hs : s.Sound) (hg : GentleLog s.log) {i : Nat} {t : Task}
    (ht : s.tasks[i]? = some t) (hover : s.overwrites i = false) {m : Move}
    (hm : Moves s.state t.request s.instant t.stage m) :
    GentleLog (s.moved i t m).log := by
  rw [System.moved]
  dsimp only
  cases hentry : m.entry i t.request s.instant with
  | none => simpa using hg
  | some e =>
    rw [Option.toList_some]
    refine hg.concat ?_
    intro key v expiry now huse x hx
    cases hm with
    | pass stage' _ _ _ =>
      -- nothing is put by an entry without effect
      have hnone : e.effect = none := by
        rw [Move.entry] at hentry
        split at hentry
        · rw [← Option.some.inj hentry]
          rfl
        · simp at hentry
      simp [Completed.use, hnone] at huse
    | @stored box key' bytes stamp hstage hdep hstamp =>
      obtain rfl := Option.some.inj hentry
      have hkey : box = .envelopes ∧ key' = key := by
        by_contra hne
        simp [Completed.use, hne] at huse
      obtain ⟨rfl, rfl⟩ := hkey
      obtain ⟨envelope, cid, sol, hreq, -⟩ := sendEnvelope_of_deposits hdep
      have hinner : s.state.store.inner key' = some (x.value, x.expiry) := by
        have hslot := hs.slots .envelopes key'
        rw [hx] at hslot
        exact hslot
      obtain ⟨req, stage⟩ := t
      dsimp only at hreq hstage
      subst hreq hstage
      exact expired_of_not_overwrites hover ht hinner
    | @collected box key' hop =>
      obtain rfl := Option.some.inj hentry
      simp only [Completed.use] at huse
      split at huse <;> simp at huse

/-- One action that meets the condition keeps the log gentle. -/
theorem gentle_step {sha256 : Bytes → Bytes} {s : System} (hs : s.Sound) (hg : GentleLog s.log)
    (a : Action) (hover : NoOverwrite s a) : GentleLog (s.step sha256 a).log := by
  cases a with
  | submit req => exact hg
  | tick d => exact hg
  | move i nowSecs nonce =>
    rw [System.step]
    cases ht : s.tasks[i]? with
    | none => exact hg
    | some t =>
      dsimp only
      split
      · exact hg
      · rename_i hopen
        exact gentle_moved hs hg ht hover (advance_moves sha256 s.state t.request nowSecs nonce s.instant
          (hs.tasks t (List.mem_of_getElem? ht)) (Bool.eq_false_iff.mpr hopen))

/-- **No accepted envelope is lost** in a run in which no send replaces an unexpired envelope. -/
theorem no_envelope_lost (sha256 : Bytes → Bytes) (rate : Nat) (acts : List Action)
    (h : Meets (System.step sha256) NoOverwrite (System.start rate) acts) :
    NoEnvelopeLost (run (System.step sha256) (System.start rate) acts).log := by
  have hinv : (run (System.step sha256) (System.start rate) acts).Sound ∧
      GentleLog (run (System.step sha256) (System.start rate) acts).log := by
    refine meets_inv (I := fun s => s.Sound ∧ GentleLog s.log)
      (fun s a hs hover => ⟨hs.1.step a, gentle_step hs.1 hs.2 a hover⟩)
      ⟨System.sound_start rate, fun key n u hu => by simp [System.start, history] at hu⟩ h
  exact noEnvelopeLost_of_gentle hinv.1.log hinv.2

/-! ## Two runs -/

/-- A request submitted as task `i` and moved `n` times. -/
def exchange (i n : Nat) (req : WsRequest) (nonce : Bytes) : List Action :=
  .submit req :: List.replicate n (.move i 0 nonce)

/-- The nonces of the two challenges below. -/
def nonceA : Bytes := [0, 1, 2, 3, 4, 5, 6, 7, 8, 9, 10, 11, 12, 13, 14, 15]

def nonceB : Bytes := [16, 17, 18, 19, 20, 21, 22, 23, 24, 25, 26, 27, 28, 29, 30, 31]

/-- SHA-256 on the two byte strings that are hashed below: context, nonce and a solution. -/
def sampleSha256 (bs : Bytes) : Bytes :=
  if bs = powContext ++ nonceA ++ [164, 87, 32, 0, 0, 0, 0, 0] then
    [0, 0, 3, 112, 144, 151, 212, 172, 31, 94, 121, 173, 8, 219, 27, 85,
      240, 216, 141, 166, 220, 248, 216, 189, 172, 36, 103, 108, 255, 228, 103, 126]
  else if bs = powContext ++ nonceB ++ [237, 243, 13, 0, 0, 0, 0, 0] then
    [0, 0, 6, 113, 130, 54, 163, 194, 44, 77, 146, 146, 68, 195, 35, 81,
      239, 213, 89, 216, 78, 182, 178, 107, 29, 252, 78, 140, 203, 175, 236, 252]
  else []

/-- Two challenges for bob, both solved. -/
def twoChallenges : List Action :=
  exchange 0 3 (.challenge "bob") nonceA ++ exchange 1 3 (.challenge "bob") nonceB

/-- Two envelopes for bob, the first picked up before the second is sent. -/
def sendPickSend : List Action :=
  twoChallenges ++
  exchange 2 5 (.sendEnvelope "bob" "aGk=" "000102030405060708090a0b0c0d0e0f" "pFcgAAAAAAA=") [] ++
  exchange 3 3 (.pickupEnvelope "bob") [] ++
  exchange 4 5 (.sendEnvelope "bob" "eW8=" "101112131415161718191a1b1c1d1e1f" "7fMNAAAAAAA=") [] ++
  exchange 5 3 (.pickupEnvelope "bob") [] ++
  exchange 6 3 (.pickupEnvelope "bob") []

/-- Two envelopes for bob, then two pickups. -/
def sendSendPick : List Action :=
  twoChallenges ++
  exchange 2 5 (.sendEnvelope "bob" "aGk=" "000102030405060708090a0b0c0d0e0f" "pFcgAAAAAAA=") [] ++
  exchange 3 5 (.sendEnvelope "bob" "eW8=" "101112131415161718191a1b1c1d1e1f" "7fMNAAAAAAA=") [] ++
  exchange 4 3 (.pickupEnvelope "bob") [] ++
  exchange 5 3 (.pickupEnvelope "bob") []

/-- A send, a pickup and another send, in turn: nothing is overwritten and nothing lost. -/
theorem no_envelope_lost_in_turn :
    Meets (System.step sampleSha256) NoOverwrite (System.start 10) sendPickSend ∧
      NoEnvelopeLost (run (System.step sampleSha256) (System.start 10) sendPickSend).log := by
  have h : Meets (System.step sampleSha256) NoOverwrite (System.start 10) sendPickSend := by
    decide +kernel
  exact ⟨h, no_envelope_lost sampleSha256 10 sendPickSend h⟩

theorem b64Decode_hi : b64Decode "aGk=" = .ok [104, 105] := by decide

/-- The second envelope replaces the first: one pickup returns the second, the next finds nothing,
    and the first, accepted and seven days from its expiry, is returned by none. -/
theorem first_envelope_lost :
    ¬ NoEnvelopeLost (run (System.step sampleSha256) (System.start 10) sendSendPick).log := by
  rintro ⟨src, -, -, h⟩
  -- the log from the first send on
  have hlog : (run (System.step sampleSha256) (System.start 10) sendSendPick).log.drop 2 =
      [⟨2, .sendEnvelope "bob" "aGk=" "000102030405060708090a0b0c0d0e0f" "pFcgAAAAAAA=",
          some (.stored .envelopes "bob" [104, 105] 604800000000000), some .okSimple, 0⟩,
        ⟨3, .sendEnvelope "bob" "eW8=" "101112131415161718191a1b1c1d1e1f" "7fMNAAAAAAA=",
          some (.stored .envelopes "bob" [121, 111] 604800000000000), some .okSimple, 0⟩,
        ⟨4, .pickupEnvelope "bob", some (.collected .envelopes "bob" (.ok [121, 111])),
          some (.okEnvelope "eW8="), 0⟩,
        ⟨5, .pickupEnvelope "bob", some (.collected .envelopes "bob" (.error .notFound)),
          some (.err "NotFound"), 0⟩] := by decide +kernel
  generalize (run (System.step sampleSha256) (System.start 10) sendSendPick).log = log at h hlog
  have hget : ∀ n, log[2 + n]? = (log.drop 2)[n]? := fun n => List.getElem?_drop.symm
  rw [hlog] at hget
  obtain ⟨bytes, expiry, hdec, heffect, hk⟩ :=
    h 2 _ "bob" "aGk=" "000102030405060708090a0b0c0d0e0f" "pFcgAAAAAAA=" (hget 0) rfl rfl
  obtain rfl : [104, 105] = bytes := Except.ok.inj (b64Decode_hi.symm.trans hdec)
  obtain ⟨j, g, hij, hjk, hg, hgreq, hgresp, -⟩ :=
    hk 5 _ (by decide) (hget 3) rfl rfl (Nat.zero_le _)
  obtain rfl | rfl : j = 3 ∨ j = 4 := by omega
  · rw [hget 1] at hg
    obtain rfl := Option.some.inj hg
    cases hgreq
  · rw [hget 2] at hg
    obtain rfl := Option.some.inj hg
    exact absurd hgresp (by decide)

/-! ## Prekey bundles -/

/-- A publish for `r` answered ok at position `i`, and a lookup for `r` at position `k` that was
    answered and not rate limited, with no publish for `r` answered ok in between. -/
structure PublishedThenLookedUp (log : List Completed) (r bundle : String) (i k : Nat)
    (e f : Completed) : Prop where
  publish : log[i]? = some e
  publishRequest : ∃ cid sol, e.request = .publishPrekey r bundle cid sol
  publishOk : e.response = some .okSimple
  after : i < k
  lookup : log[k]? = some f
  lookupRequest : f.request = .lookupPrekey r
  notLimited : f.response ≠ some (.err "RateLimitExceeded")
  latest : ∀ (m : Nat) g b c s, i < m → m < k → log[m]? = some g →
    g.request = .publishPrekey r b c s → g.response ≠ some .okSimple

/-- A lookup that follows a publish within the lifetime of a bundle answers with that bundle,
    however many lookups came before. -/
def LookupIsRead (log : List Completed) : Prop :=
  ∀ r bundle bytes i k e f, PublishedThenLookedUp log r bundle i k e f →
    b64Decode bundle = .ok bytes → f.now ≤ e.now + Mailbox.prekeys.ttl →
    f.response = some (.okBundle (b64Encode bytes))

theorem prekeyKey_injective {r r' : String} (h : prekeyKey r = prekeyKey r') : r = r' := by
  have hlist := congrArg String.toList h
  rw [prekeyKey, prekeyKey, String.toList_append, String.toList_append] at hlist
  exact String.toList_injective (List.append_cancel_left hlist)

/-- Bytes deposited under a recipient's prekey key came in a `publish_prekey` for that recipient. -/
theorem publishPrekey_of_deposits {req : WsRequest} {r : String} {bytes : Bytes}
    (h : Deposits req .prekeys (prekeyKey r) bytes) :
    ∃ bundle cid sol, req = .publishPrekey r bundle cid sol := by
  obtain ⟨payload, cid, sol, hop, -⟩ := h
  cases req with
  | publishPrekey r' bundle cid' sol' =>
    obtain ⟨hr, -⟩ : prekeyKey r' = prekeyKey r ∧ _ := by simpa [WsRequest.op] using hop
    rw [prekeyKey_injective hr]
    exact ⟨bundle, cid', sol', rfl⟩
  | _ => simp [WsRequest.op] at hop

theorem lookupPrekey_of_collect {req : WsRequest} {r : String}
    (h : req.op = .collect .prekeys (prekeyKey r)) : req = .lookupPrekey r := by
  cases req with
  | lookupPrekey r' =>
    have hr : prekeyKey r' = prekeyKey r := by simpa [WsRequest.op] using h
    rw [prekeyKey_injective hr]
  | _ => simp [WsRequest.op] at h

/-- **Exactly when a lookup answers with the published bundle**: no lookup has been served since the
    publish, and the time is within the bundle's lifetime from the moment the publish read the
    clock. -/
theorem lookup_answers_bundle_iff (sha256 : Bytes → Bytes) (rate : Nat) (acts : List Action)
    (r bundle : String) (i k : Nat) (e f : Completed)
    (h : PublishedThenLookedUp (run (System.step sha256) (System.start rate) acts).log r bundle
      i k e f) :
    ∃ bytes stamp, b64Decode bundle = .ok bytes ∧ stamp ≤ e.now ∧
      e.effect = some (.stored .prekeys (prekeyKey r) bytes (stamp + Mailbox.prekeys.ttl)) ∧
      (f.response = some (.okBundle (b64Encode bytes)) ↔
        (∀ (m : Nat) g, i < m → m < k →
          (run (System.step sha256) (System.start rate) acts).log[m]? = some g →
          g.request = .lookupPrekey r → g.response = some (.err "RateLimitExceeded")) ∧
        f.now ≤ stamp + Mailbox.prekeys.ttl) := by
  have hlog : LogSound (run (System.step sha256) (System.start rate) acts).log :=
    (System.run_sound sha256 rate acts).log
  generalize (run (System.step sha256) (System.start rate) acts).log = log at h hlog
  obtain ⟨cid, sol, hereq⟩ := h.publishRequest
  have heop : e.request.op = .deposit .prekeys (prekeyKey r) bundle cid sol := by rw [hereq]; rfl
  have hesound := hlog.entries e (List.mem_of_getElem? h.publish)
  obtain ⟨bytes, stamp, hdec, hstamp, heffect⟩ := deposit_accepted hesound heop h.publishOk
  refine ⟨bytes, stamp, hdec, hstamp, heffect, ?_⟩
  generalize stamp + Mailbox.prekeys.ttl = expiry at heffect
  have hput : (history .prekeys (prekeyKey r) log)[i]? = some (some (.put bytes expiry e.now)) := by
    rw [history_of_entry h.publish, use_of_stored heffect]
  have hr : ∀ z, logged r z = some z := by
    have hresp := (use_put hesound (use_of_stored heffect)).2.2
    rw [h.publishOk, hereq] at hresp
    exact (logged_eq_some hresp.symm).2
  -- a lookup that is not rate limited has reached the store
  have hserved : ∀ (m : Nat) g, log[m]? = some g → g.request = .lookupPrekey r →
      g.response ≠ some (.err "RateLimitExceeded") →
      ∃ result, g.effect = some (.collected .prekeys (prekeyKey r) result) ∧
        g.response = some (collectResponse .prekeys result) := by
    intro m g hg hreq hne
    refine collect_answered (hlog.entries g (List.mem_of_getElem? hg)) ?_ ?_ hne
    · rw [hreq]
      rfl
    · rw [hreq]
      exact hr
  obtain ⟨result, hfeffect, hfresp⟩ := hserved k f h.lookup h.lookupRequest h.notLimited
  -- nothing is put into the slot between the two
  have hnoput : ∀ m v x now, i < m → m < k →
      (history .prekeys (prekeyKey r) log)[m]? ≠ some (some (.put v x now)) := by
    intro m v x now him hmk hm
    obtain ⟨g, hg, huse⟩ := history_eq_some hm
    obtain ⟨hdep, -, hresp⟩ := use_put (hlog.entries g (List.mem_of_getElem? hg)) huse
    obtain ⟨b, c, s, hreq⟩ := publishPrekey_of_deposits hdep
    rw [hreq, WsRequest.recipientId, hr] at hresp
    exact h.latest m g b c s him hmk hg hreq hresp
  constructor
  · intro hok
    obtain ⟨v, rfl⟩ : ∃ v, result = .ok v := by
      rw [hfresp] at hok
      cases result with
      | ok v => exact ⟨v, rfl⟩
      | error err => cases err <;> simp [collectResponse, WsResponse.okBundle] at hok
    obtain ⟨x, hx, hnow, -⟩ := hlog.collected_ok h.lookup hfeffect
    obtain ⟨hlt, ⟨now, hxput⟩, hunt⟩ := (heldAt_eq_some_iff _ _ _).mp hx
    have hsrc : x.source = i := by
      rcases Nat.lt_trichotomy x.source i with hlt' | heq | hgt
      · exact absurd hput (hunt i hlt' h.after _)
      · exact heq
      · exact absurd hxput (hnoput x.source _ _ _ hgt hlt)
    have hexp : x.expiry = expiry := by
      rw [hsrc, hput] at hxput
      have hinj := Option.some.inj (Option.some.inj hxput)
      exact ((Use.put.inj hinj).2.1).symm
    refine ⟨?_, by rw [← hexp]; exact hnow⟩
    intro m g him hmk hg hreq
    by_contra hne
    obtain ⟨res, hgeffect, -⟩ := hserved m g hg hreq hne
    refine hunt m (by omega) hmk (.take g.now) ?_
    rw [history_of_entry hg, use_of_collected hgeffect]
  · rintro ⟨hnone, hnow⟩
    have hbetween : ∀ (m : Nat) g, i < m → m < k → log[m]? = some g →
        g.use .prekeys (prekeyKey r) = none := by
      intro m g him hmk hg
      cases huse : g.use .prekeys (prekeyKey r) with
      | none => rfl
      | some u =>
        exfalso
        cases u with
        | put v x now => exact hnoput m v x now him hmk (by rw [history_of_entry hg, huse])
        | take now =>
          obtain ⟨hop, -, res, -, hresp⟩ := use_take (hlog.entries g (List.mem_of_getElem? hg)) huse
          rw [hnone m g him hmk hg (lookupPrekey_of_collect hop)] at hresp
          exact collectResponse_ne_rateLimit _ _ (Option.some.inj hresp).symm
        | clear now => exact use_ne_clear huse
    rw [hfresp, hlog.collected_of_stored h.publish heffect h.after h.lookup hfeffect hbetween hnow]
    rfl

/-- Bob publishes a bundle and is looked up twice. -/
def publishLookupLookup : List Action :=
  exchange 0 3 (.challenge "bob") nonceA ++
  exchange 1 5 (.publishPrekey "bob" "aGk=" "000102030405060708090a0b0c0d0e0f" "pFcgAAAAAAA=") [] ++
  exchange 2 3 (.lookupPrekey "bob") [] ++
  exchange 3 3 (.lookupPrekey "bob") []

/-- The entries of that run after the challenge. -/
def publishLookupLookupLog : List Completed :=
  [⟨1, .publishPrekey "bob" "aGk=" "000102030405060708090a0b0c0d0e0f" "pFcgAAAAAAA=",
      some (.stored .prekeys "prekey:bob" [104, 105] 86400000000000), some .okSimple, 0⟩,
    ⟨2, .lookupPrekey "bob", some (.collected .prekeys "prekey:bob" (.ok [104, 105])),
      some (.okBundle "aGk="), 0⟩,
    ⟨3, .lookupPrekey "bob", some (.collected .prekeys "prekey:bob" (.error .notFound)),
      some (.err "NotFound"), 0⟩]

/-- The log of the run, behind the entry of the challenge. -/
theorem publishLookupLookup_log (n : Nat) :
    (run (System.step sampleSha256) (System.start 10) publishLookupLookup).log[1 + n]? =
      publishLookupLookupLog[n]? := by
  have hlog : (run (System.step sampleSha256) (System.start 10) publishLookupLookup).log.drop 1 =
      publishLookupLookupLog := by decide +kernel
  rw [← hlog, List.getElem?_drop]

/-- Either lookup of the run comes after the publish, in time and unlimited: the claim speaks of both. -/
theorem publishLookupLookup_scope (n : Nat) (f : Completed) (hn : n = 1 ∨ n = 2)
    (hf : publishLookupLookupLog[n]? = some f) :
    PublishedThenLookedUp (run (System.step sampleSha256) (System.start 10) publishLookupLookup).log
      "bob" "aGk=" 1 (1 + n) (publishLookupLookupLog.head (by decide)) f := by
  have hlook : f.request = .lookupPrekey "bob" ∧ f.response ≠ some (.err "RateLimitExceeded") := by
    rcases hn with rfl | rfl <;> obtain rfl := Option.some.inj hf <;> decide
  refine ⟨publishLookupLookup_log 0, ⟨_, _, rfl⟩, rfl, by omega, ?_, hlook.1, hlook.2, ?_⟩
  · rw [publishLookupLookup_log, hf]
  · intro m g b c s him hmk hg hreq
    obtain ⟨rfl, rfl⟩ : m = 2 ∧ n = 2 := by omega
    rw [publishLookupLookup_log 1] at hg
    obtain rfl := Option.some.inj hg
    cases hreq

/-- The first lookup after the publish is answered with the bundle. -/
theorem first_lookup_answers_bundle :
    ∃ f, (run (System.step sampleSha256) (System.start 10) publishLookupLookup).log[2]? = some f ∧
      f.response = some (.okBundle (b64Encode [104, 105])) := by
  have hscope := publishLookupLookup_scope 1 _ (.inl rfl) rfl
  obtain ⟨bytes, stamp, hdec, hstamp, -, hiff⟩ :=
    lookup_answers_bundle_iff sampleSha256 10 publishLookupLookup "bob" "aGk=" 1 2 _ _ hscope
  obtain rfl : [104, 105] = bytes := Except.ok.inj (b64Decode_hi.symm.trans hdec)
  exact ⟨_, publishLookupLookup_log 1,
    hiff.mpr ⟨fun m g him hmk => by omega, Nat.zero_le _⟩⟩

/-- The second lookup finds nothing: the first has taken the bundle away. -/
theorem second_lookup_not_found :
    ¬ LookupIsRead (run (System.step sampleSha256) (System.start 10) publishLookupLookup).log := by
  intro h
  have hscope := publishLookupLookup_scope 2 _ (.inr rfl) rfl
  exact absurd (h "bob" "aGk=" [104, 105] 1 3 _ _ hscope b64Decode_hi (Nat.zero_le _)) (by decide)

end E2EMessaging.Relay
