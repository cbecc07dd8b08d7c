/-
  WHAT A REQUEST LEAVES ALONE: failure atomicity and framing of `handle_request`.

  A request passes its gates — rate limit, base64 of the solution, challenge, proof of work, base64
  of the payload — BEFORE it writes, and every key it writes under is made from its own recipient.
  `handleRequest_cases` says once what the handler can do: pass the gates and be refused, store one
  entry, or collect one entry; `handle_request_atomic_and_framed` reads everything off it:

  * an ERROR leaves both stores as they were, except that a lookup or pickup answered `Expired`
    removes exactly the expired entry it asked for;
  * whatever the outcome (a panicking log statement included), the entries and the rate-limit
    bucket of every OTHER recipient are untouched, and the two stores do not leak into each other.
-/
import E2EMessaging.Relay.Delivery

namespace E2EMessaging.Relay

open E2EMessaging.Lib

/-! ## Keys -/

/-- `str::as_bytes` is one-to-one. -/
theorem utf8_injective {s t : String} (h : utf8 s = utf8 t) : s = t := by
  have hbytes : s.toList.utf8Encode = t.toList.utf8Encode := by
    show (s.toList.flatMap String.utf8EncodeChar).toByteArray = _
    exact congrArg List.toByteArray h
  rw [String.utf8Encode_toList, String.utf8Encode_toList] at hbytes
  exact String.toByteArray_inj.mp hbytes

/-- The key of a recipient in a store. -/
def Mailbox.key : Mailbox → String → String
  | .envelopes, r => r
  | .prekeys, r => prekeyKey r

theorem Mailbox.key_injective (box : Mailbox) {r r' : String} (h : box.key r = box.key r') :
    r = r' := by
  cases box with
  | envelopes => exact h
  | prekeys => exact prekeyKey_injective h

/-- The store a request is about, if it is about one. -/
def WsRequest.box? : WsRequest → Option Mailbox
  | .challenge _ => none
  | .publishPrekey _ _ _ _ => some .prekeys
  | .lookupPrekey _ => some .prekeys
  | .sendEnvelope _ _ _ _ => some .envelopes
  | .pickupEnvelope _ => some .envelopes

/-- A deposit goes to the mailbox and the key of the recipient it names. -/
theorem deposit_key {req : WsRequest} {box : Mailbox} {key payload cid sol : String}
    (h : req.op = .deposit box key payload cid sol) :
    req.box? = some box ∧ key = box.key req.recipientId := by
  cases req <;> simp [WsRequest.op] at h <;> obtain ⟨rfl, rfl, -⟩ := h <;> exact ⟨rfl, rfl⟩

theorem collect_key {req : WsRequest} {box : Mailbox} {key : String}
    (h : req.op = .collect box key) : req.box? = some box ∧ key = box.key req.recipientId := by
  cases req <;> simp [WsRequest.op] at h <;> obtain ⟨rfl, rfl⟩ := h <;> exact ⟨rfl, rfl⟩

/-! ## What the handler can do -/

/-- Only gates were passed: the stores are as before, and so is every bucket but the recipient's
    own. -/
structure GatesOnly (recipientId : String) (σ σ' : WsState) : Prop where
  boxes : ∀ box, σ'.mailbox box = σ.mailbox box
  buckets : ∀ b, b ≠ utf8 recipientId → σ'.rateLimiter.buckets b = σ.rateLimiter.buckets b

/-- The rate limiter changes the bucket of the recipient it is asked about, and no other. -/
theorem rateLimit_gatesOnly (σ : WsState) (r : String) (nowSecs : Nat) :
    GatesOnly r σ (σ.rateLimit r nowSecs).1 :=
  ⟨rateLimit_mailbox σ r nowSecs, fun _ h => check_buckets σ.rateLimiter (utf8 r) nowSecs h⟩

theorem GatesOnly.issue {r : String} {σ σ' : WsState} (h : GatesOnly r σ σ') (nonce : Bytes) :
    GatesOnly r σ (σ'.issue nonce).1 :=
  ⟨fun box => (issue_mailbox σ' nonce box).trans (h.boxes box), h.buckets⟩

theorem verifyPow_rateLimiter (sha256 : Bytes → Bytes) (σ : WsState) (cid sol : String) :
    (σ.verifyPow sha256 cid sol).1.rateLimiter = σ.rateLimiter := by
  obtain ⟨challenges, h⟩ := verifyPow_frame sha256 σ cid sol
  rw [h]

theorem GatesOnly.verifyPow {r : String} {σ σ' : WsState} (h : GatesOnly r σ σ')
    (sha256 : Bytes → Bytes) (cid sol : String) :
    GatesOnly r σ (σ'.verifyPow sha256 cid sol).1 := by
  refine ⟨fun box => (verifyPow_mailbox sha256 σ' cid sol box).trans (h.boxes box), ?_⟩
  intro b hb
  rw [verifyPow_rateLimiter]
  exact h.buckets b hb

/-- Everything `handle_request` can do: be refused at a gate, store, or collect. -/
inductive Handled (σ : WsState) (req : WsRequest) (now : Nat) :
    WsState × Option WsResponse → Prop where
  | refused {σ' : WsState} {r : Option WsResponse} (hgates : GatesOnly req.recipientId σ σ')
      (h : Refused req r) : Handled σ req now (σ', r)
  | stored {σ' : WsState} {box : Mailbox} {key : String} {bytes : Bytes}
      (hgates : GatesOnly req.recipientId σ σ') (hdep : Deposits req box key bytes) :
      Handled σ req now
        (σ'.setMailbox box ((σ.mailbox box).store key bytes box.ttl now).1,
          logged req.recipientId .okSimple)
  | collected {σ' : WsState} {box : Mailbox} {key : String}
      (hgates : GatesOnly req.recipientId σ σ') (hop : req.op = .collect box key) :
      Handled σ req now
        (σ'.setMailbox box ((σ.mailbox box).pickup key now).1,
          some (collectResponse box ((σ.mailbox box).pickup key now).2))

/-- **What the handler can do.** -/
theorem handleRequest_cases (sha256 : Bytes → Bytes) (σ : WsState) (req : WsRequest)
    (nowSecs : Nat) (nonce : Bytes) (now : Nat) :
    Handled σ req now (handleRequest sha256 σ req nowSecs nonce now) := by
  rw [handleRequest]
  have hgates := rateLimit_gatesOnly σ req.recipientId nowSecs
  rcases hrl : σ.rateLimit req.recipientId nowSecs with ⟨σ₁, e | u⟩
  · rw [hrl] at hgates
    exact .refused hgates .rateLimited
  · rw [hrl] at hgates
    dsimp only at hgates ⊢
    cases hop : req.op with
    | challenge => exact .refused (hgates.issue nonce) (.issued hop _ _)
    | deposit box key payload cid sol =>
      have hgates₂ := hgates.verifyPow sha256 cid sol
      dsimp only
      rcases hv : σ₁.verifyPow sha256 cid sol with ⟨σ₂, e | u⟩
      · rw [hv] at hgates₂
        exact .refused hgates₂ (.powFailed hop e)
      · rw [hv] at hgates₂
        dsimp only at hgates₂ ⊢
        cases hdec : b64Decode payload with
        | error e => exact .refused hgates₂ (.invalidBase64 hop e)
        | ok bytes =>
          dsimp only
          rw [hgates₂.boxes box]
          exact .stored hgates₂ ⟨payload, cid, sol, hop, hdec⟩
    | collect box key =>
      dsimp only
      rw [hgates.boxes box]
      exact .collected hgates hop

/-! ## Errors -/

/-- An error with a prefix of its own is not mistaken for `Expired`, which is the one error after
    which a store has changed. -/
theorem prefixed_ne_expired {p : String} (hp : p.toList.head? ≠ some 'E' ∧ p.toList ≠ [])
    (e : String) : p ++ e ≠ "Expired" := by
  intro h
  have hhead : (p.toList ++ e.toList).head? = some 'E' := by
    rw [← String.toList_append, h]
    rfl
  rw [List.head?_append_of_ne_nil _ hp.2] at hhead
  exact hp.1 hhead

/-- A refusal is never reported as `Expired`. -/
theorem Refused.ne_expired {req : WsRequest} {r : Option WsResponse} (h : Refused req r) :
    r ≠ some (.err "Expired") := by
  intro hr
  cases h with
  | rateLimited =>
    have heq := (logged_eq_some hr).1
    simp at heq
  | issued hop cid wire => simp [WsResponse.okChallenge] at hr
  | powFailed hop e =>
    have heq := WsResponse.err.inj (logged_eq_some hr).1
    exact prefixed_ne_expired (by decide) e heq
  | invalidBase64 hop e =>
    have heq := WsResponse.err.inj (Option.some.inj hr)
    exact prefixed_ne_expired (by decide) e heq

/-- A pickup answered with an error: the store is as it was, or it was `Expired` and the expired
    entry is gone. -/
theorem pickup_error (s : RelayStore) (key : String) (now : Nat) {e : StoreError}
    (h : (s.pickup key now).2 = .error e) :
    (e = .notFound ∧ (s.pickup key now).1 = s) ∨
    (e = .expired ∧ (∃ v expiry, s.inner key = some (v, expiry) ∧ expiry < now) ∧
      (s.pickup key now).1 = ⟨Function.update s.inner key none⟩) := by
  rw [RelayStore.pickup] at h ⊢
  cases hin : s.inner key with
  | none =>
    rw [hin] at h
    exact .inl ⟨(Except.error.inj h).symm, rfl⟩
  | some entry =>
    obtain ⟨v, expiry⟩ := entry
    rw [hin] at h
    dsimp only at h ⊢
    split at h
    · rename_i hlt
      rw [if_pos hlt]
      exact .inr ⟨(Except.error.inj h).symm, ⟨v, expiry, rfl, hlt⟩, rfl⟩
    · cases h

/-- Neither a store nor a pickup touches another key. -/
theorem store_other (s : RelayStore) {key key' : String} (h : key' ≠ key) (bytes : Bytes)
    (ttl now : Nat) : (s.store key bytes ttl now).1.inner key' = s.inner key' :=
  Function.update_of_ne h ..

theorem pickup_other (s : RelayStore) {key key' : String} (h : key' ≠ key) (now : Nat) :
    (s.pickup key now).1.inner key' = s.inner key' := by
  rw [RelayStore.pickup]
  cases s.inner key with
  | none => rfl
  | some entry =>
    dsimp only
    split <;> exact Function.update_of_ne h ..

/-! ## Atomicity and framing -/

/-- The two stores and the buckets of every other recipient, and the store the request is not
    about, are as before. -/
structure Framed (req : WsRequest) (σ σ' : WsState) : Prop where
  entries : ∀ r', r' ≠ req.recipientId → ∀ box : Mailbox,
    (σ'.mailbox box).inner (box.key r') = (σ.mailbox box).inner (box.key r')
  buckets : ∀ r', r' ≠ req.recipientId →
    σ'.rateLimiter.buckets (utf8 r') = σ.rateLimiter.buckets (utf8 r')
  boxes : ∀ box, req.box? ≠ some box → σ'.mailbox box = σ.mailbox box

theorem setMailbox_rateLimiter (σ : WsState) (box : Mailbox) (s : RelayStore) :
    (σ.setMailbox box s).rateLimiter = σ.rateLimiter := by
  cases box <;> rfl

/-- After the gates, one store changes, at the recipient's key only. -/
theorem framed_of_gates {req : WsRequest} {σ σ' : WsState} (h : GatesOnly req.recipientId σ σ')
    {box : Mailbox} (hbox : req.box? = some box) {s : RelayStore}
    (hs : ∀ key', key' ≠ box.key req.recipientId → s.inner key' = (σ.mailbox box).inner key') :
    Framed req σ (σ'.setMailbox box s) where
  entries := by
    intro r' hr' box'
    by_cases hb : box' = box
    · subst hb
      rw [mailbox_setMailbox_self]
      exact hs _ (fun hkey => hr' (box'.key_injective hkey))
    · rw [mailbox_setMailbox_of_ne _ hb, h.boxes box']
  buckets := by
    intro r' hr'
    rw [setMailbox_rateLimiter]
    exact h.buckets _ (fun hbytes => hr' (utf8_injective hbytes))
  boxes := by
    intro box' hb
    have hne : box' ≠ box := by
      rintro rfl
      exact hb hbox
    rw [mailbox_setMailbox_of_ne _ hne, h.boxes box']

/-- All ways through the handler touch only what belongs to the recipient. -/
theorem Handled.framed {σ : WsState} {req : WsRequest} {now : Nat}
    {out : WsState × Option WsResponse} (h : Handled σ req now out) : Framed req σ out.1 := by
  cases h with
  | refused hgates _ =>
    refine ⟨?_, ?_, fun box _ => hgates.boxes box⟩
    · intro r' _ box
      rw [hgates.boxes box]
    · intro r' hr'
      exact hgates.buckets _ (fun hbytes => hr' (utf8_injective hbytes))
  | stored hgates hdep =>
    obtain ⟨payload, cid, sol, hop, -⟩ := hdep
    obtain ⟨hbox, rfl⟩ := deposit_key hop
    exact framed_of_gates hgates hbox (fun key' hne => store_other _ hne ..)
  | collected hgates hop =>
    obtain ⟨hbox, rfl⟩ := collect_key hop
    exact framed_of_gates hgates hbox (fun key' hne => pickup_other _ hne ..)

/-- The state after a collection answered `Expired`: the entry asked for had expired and is gone,
    all else in the stores is as before. -/
structure ExpiredRemoved (req : WsRequest) (now : Nat) (σ σ' : WsState) (box : Mailbox) : Prop where
  op : req.op = .collect box (box.key req.recipientId)
  expired : ∃ v expiry,
    (σ.mailbox box).inner (box.key req.recipientId) = some (v, expiry) ∧ expiry < now
  removed : (σ'.mailbox box).inner =
    Function.update (σ.mailbox box).inner (box.key req.recipientId) none
  other : ∀ box', box' ≠ box → σ'.mailbox box' = σ.mailbox box'

/-- What an error leaves behind. -/
def Atomic (req : WsRequest) (now : Nat) (σ σ' : WsState) (m : String) : Prop :=
  (m ≠ "Expired" → ∀ box, σ'.mailbox box = σ.mailbox box) ∧
  (m = "Expired" → ∃ box, ExpiredRemoved req now σ σ' box)

/-- All ways that end in an error leave the stores as they were, but for an expired envelope that
    is dropped. -/
theorem Handled.atomic {σ : WsState} {req : WsRequest} {now : Nat}
    {out : WsState × Option WsResponse} (h : Handled σ req now out) {m : String}
    (hm : out.2 = some (.err m)) : Atomic req now σ out.1 m := by
  cases h with
  | refused hgates hrefused =>
    refine ⟨fun _ => hgates.boxes, ?_⟩
    rintro rfl
    exact absurd hm hrefused.ne_expired
  | stored hgates hdep =>
    have heq := (logged_eq_some hm).1
    simp [WsResponse.okSimple] at heq
  | @collected σ' box key hgates hop =>
    have hcr := Option.some.inj hm
    obtain ⟨-, rfl⟩ := collect_key hop
    cases hres : ((σ.mailbox box).pickup (box.key req.recipientId) now).2 with
    | ok bytes =>
      rw [hres] at hcr
      cases box <;> simp [collectResponse, WsResponse.okBundle, WsResponse.okEnvelope] at hcr
    | error e =>
      rw [hres] at hcr
      rcases pickup_error _ _ _ hres with ⟨rfl, hsame⟩ | ⟨rfl, hexp, hgone⟩
      · obtain rfl : "NotFound" = m := WsResponse.err.inj hcr
        refine ⟨fun _ box' => ?_, fun h => absurd h (by decide)⟩
        rw [hsame]
        by_cases hb : box' = box
        · rw [hb, mailbox_setMailbox_self]
        · rw [mailbox_setMailbox_of_ne _ hb, hgates.boxes box']
      · obtain rfl : "Expired" = m := WsResponse.err.inj hcr
        refine ⟨fun h => absurd rfl h, fun _ => ⟨box, hop, hexp, ?_, ?_⟩⟩
        · rw [mailbox_setMailbox_self, hgone]
        · intro box' hb
          rw [mailbox_setMailbox_of_ne _ hb, hgates.boxes box']

/-- **Failure atomicity and framing.**  For every state and request: an error leaves both stores
    unchanged, but for an expired entry removed by the lookup or pickup that is told so; and
    whatever the outcome, the entries and the bucket of every other recipient are untouched, and a
    request about one store leaves the other alone. -/
theorem handle_request_atomic_and_framed (sha256 : Bytes → Bytes) (σ : WsState) (req : WsRequest)
    (nowSecs : Nat) (nonce : Bytes) (now : Nat) :
    (∀ m, (handleRequest sha256 σ req nowSecs nonce now).2 = some (.err m) →
      Atomic req now σ (handleRequest sha256 σ req nowSecs nonce now).1 m) ∧
    Framed req σ (handleRequest sha256 σ req nowSecs nonce now).1 := by
  have hcases := handleRequest_cases sha256 σ req nowSecs nonce now
  exact ⟨fun m hm => hcases.atomic hm, hcases.framed⟩

end E2EMessaging.Relay
