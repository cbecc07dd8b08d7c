/-
  THE RELAY'S REQUEST HANDLER (`handle_request`, `verify_pow` of `relay/src/ws.rs`), alone and
  IN STAGES.

  Each connection is a task of its own; tasks share the two stores, the rate limiter and the active
  challenges, each behind its own lock.  Between two lock acquisitions of one request any number of
  steps of others may happen, and time may pass.  So a request is a task that moves through STAGES,
  one for each lock it still has to take and each clock it still has to read:

      received ─▶ rateLimiting ─┬─▶ issuing ─▶ done                              (challenge)
                                ├─▶ verifying ─▶ stamping ─▶ storing ─▶ done     (publish, send)
                                └─▶ collecting ─▶ done                           (lookup, pickup)

  with an exit to `done` wherever the handler returns early.  `advance` is one such move;
  `handleRequest` is the handler as the source has it, undisturbed, and `advance_undisturbed` says
  that it is what the moves add up to.  How the tasks of many connections interleave is the subject
  of `Relay.System`.

  Log statements evaluate `truncate_id`, which PANICS if byte 8 of the identifier is inside a
  character; a task that panics answers nothing.
-/
import Mathlib.Logic.Function.Basic
import E2EMessaging.Lib.Run
import E2EMessaging.Relay.Base64
import E2EMessaging.Relay.Pow
import E2EMessaging.Relay.RateLimit
import E2EMessaging.Relay.Store

namespace E2EMessaging.Relay

open E2EMessaging.Lib

/-! ## Requests and responses -/

/-- `WsRequest`. -/
inductive WsRequest where
  | challenge (recipientId : String)
  | publishPrekey (recipientId bundle challengeId powSolution : String)
  | lookupPrekey (recipientId : String)
  | sendEnvelope (recipientId envelope challengeId powSolution : String)
  | pickupEnvelope (recipientId : String)
  deriving Repr, DecidableEq

/-- `WsResponse`; the `ok` field is the constructor. -/
inductive WsResponse where
  | ok (bundle envelope challenge challengeId : Option String)
  | err (error : String)
  deriving Repr, DecidableEq

/-- `ok_simple`. -/
def WsResponse.okSimple : WsResponse := .ok none none none none

/-- `ok_bundle`. -/
def WsResponse.okBundle (bundle : String) : WsResponse := .ok (some bundle) none none none

/-- `ok_envelope`. -/
def WsResponse.okEnvelope (envelope : String) : WsResponse := .ok none (some envelope) none none

/-- `ok_challenge`. -/
def WsResponse.okChallenge (challengeId challenge : String) : WsResponse :=
  .ok none none (some challenge) (some challengeId)

/-- The recipient a request names. -/
def WsRequest.recipientId : WsRequest → String
  | .challenge r => r
  | .publishPrekey r _ _ _ => r
  | .lookupPrekey r => r
  | .sendEnvelope r _ _ _ => r
  | .pickupEnvelope r => r

/-- The two stores. -/
inductive Mailbox where
  | envelopes
  | prekeys
  deriving Repr, DecidableEq

/-- A second in nanoseconds. -/
def second : Nat := 1000000000

/-- `DEFAULT_ENVELOPE_TTL`, `DEFAULT_PREKEY_TTL`. -/
def Mailbox.ttl : Mailbox → Nat
  | .envelopes => 7 * 86400 * second
  | .prekeys => 86400 * second

/-- `format!("prekey:{recipient_id}")`. -/
def prekeyKey (recipientId : String) : String := "prekey:" ++ recipientId

/-- What a request asks for, once it has passed the rate limiter. -/
inductive Op where
  | challenge
  /-- Prove the work, then store the payload under the key. -/
  | deposit (box : Mailbox) (key payload challengeId powSolution : String)
  /-- Take what is stored under the key. -/
  | collect (box : Mailbox) (key : String)
  deriving Repr, DecidableEq

/-- The arms of `handle_request`: publish and send differ in store and key, and so do lookup and
    pickup. -/
def WsRequest.op : WsRequest → Op
  | .challenge _ => .challenge
  | .publishPrekey r bundle cid sol => .deposit .prekeys (prekeyKey r) bundle cid sol
  | .lookupPrekey r => .collect .prekeys (prekeyKey r)
  | .sendEnvelope r envelope cid sol => .deposit .envelopes r envelope cid sol
  | .pickupEnvelope r => .collect .envelopes r

/-- The answer to a lookup or a pickup. -/
def collectResponse (box : Mailbox) : Except StoreError Bytes → WsResponse
  | .ok bytes =>
    match box with
    | .prekeys => .okBundle (b64Encode bytes)
    | .envelopes => .okEnvelope (b64Encode bytes)
  | .error .notFound => .err "NotFound"
  | .error .expired => .err "Expired"

/-! ## Logging -/

/-- The characters that make up exactly the first `n` bytes; none if `n` is not a boundary. -/
def takeBytes : List Char → Nat → Option (List Char)
  | [], n => if n = 0 then some [] else none
  | c :: cs, n =>
    if n = 0 then some []
    else if c.utf8Size ≤ n then (takeBytes cs (n - c.utf8Size)).map (c :: ·)
    else none

/-- `truncate_id`; `none` is the panic of `&id[..8]` inside a character. -/
def truncateId (id : String) : Option String :=
  if (utf8 id).length ≤ 8 then some id
  else (takeBytes id.toList 8).map (fun cs => String.ofList cs ++ "…")

/-- Answer after a log statement about the recipient; `none` if the statement panics. -/
def logged (recipientId : String) (response : WsResponse) : Option WsResponse :=
  (truncateId recipientId).map (fun _ => response)

/-! ## Shared state -/

/-- `WsState`. -/
structure WsState where
  store : RelayStore
  prekeys : RelayStore
  rateLimiter : RateLimiter
  challenges : String → Option Challenge

/-- `WsState::new`. -/
def WsState.new (rateLimitPerMinute : Nat) : WsState where
  store := .new
  prekeys := .new
  rateLimiter := .perIdentity rateLimitPerMinute
  challenges := fun _ => none

/-- One of the two stores. -/
def WsState.mailbox (σ : WsState) : Mailbox → RelayStore
  | .envelopes => σ.store
  | .prekeys => σ.prekeys

/-- Replace one of the two stores. -/
def WsState.setMailbox (σ : WsState) (box : Mailbox) (s : RelayStore) : WsState :=
  match box with
  | .envelopes => { σ with store := s }
  | .prekeys => { σ with prekeys := s }

@[simp] theorem mailbox_setMailbox_self (σ : WsState) (box : Mailbox) (s : RelayStore) :
    (σ.setMailbox box s).mailbox box = s := by
  cases box <;> rfl

theorem mailbox_setMailbox_of_ne (σ : WsState) {box box' : Mailbox} (h : box' ≠ box)
    (s : RelayStore) : (σ.setMailbox box s).mailbox box' = σ.mailbox box' := by
  cases box <;> cases box' <;> first | rfl | exact absurd rfl h

/-- `POW_CONTEXT`. -/
def powContext : Bytes := utf8 "ws-relay-v1"

/-- `POW_DIFFICULTY`. -/
def powDifficulty : Nat := 20

/-- The rate-limit gate. -/
def WsState.rateLimit (σ : WsState) (recipientId : String) (nowSecs : Nat) :
    WsState × Except RateLimitExceeded Unit :=
  let r := σ.rateLimiter.check (utf8 recipientId) nowSecs
  ({ σ with rateLimiter := r.1 }, r.2)

/-- Issue a challenge with the given nonce. -/
def WsState.issue (σ : WsState) (nonce : Bytes) : WsState × WsResponse :=
  let challenge := Challenge.new powContext powDifficulty nonce
  let challengeId := hexEncode challenge.nonce
  ({ σ with challenges := Function.update σ.challenges challengeId (some challenge) },
    .okChallenge challengeId (b64Encode challenge.toWire))

/-- A `PowError` as `verify_pow` reports it. -/
def PowError.report : PowError → String
  | .invalid difficulty => s!"invalid solution ({difficulty} bits)"
  | .malformedChallenge reason => "malformed challenge: " ++ reason

/-- `verify_pow`.  The challenge is removed before its solution is checked: it is used up either
    way. -/
def WsState.verifyPow (sha256 : Bytes → Bytes) (σ : WsState) (challengeId powSolution : String) :
    WsState × Except String Unit :=
  match b64Decode powSolution with
  | .error e => (σ, .error ("solution base64 decode: " ++ e))
  | .ok solution =>
    match σ.challenges challengeId with
    | none => (σ, .error "challenge not found or already used")
    | some challenge =>
      -- removed under the lock, so no other request finds it
      let σ := { σ with challenges := Function.update σ.challenges challengeId none }
      match powVerify sha256 challenge solution with
      | .error e => (σ, .error e.report)
      | .ok () => (σ, .ok ())

/-! ## The handler, undisturbed -/

/-- `handle_request`: wall-clock seconds `nowSecs`, nonce `nonce` should a challenge be issued,
    `Instant::now()` at `now`. -/
def handleRequest (sha256 : Bytes → Bytes) (σ : WsState) (req : WsRequest) (nowSecs : Nat)
    (nonce : Bytes) (now : Nat) : WsState × Option WsResponse :=
  match σ.rateLimit req.recipientId nowSecs with
  | (σ, .error _) => (σ, logged req.recipientId (.err "RateLimitExceeded"))
  | (σ, .ok ()) =>
    match req.op with
    | .challenge =>
      let r := σ.issue nonce
      (r.1, some r.2)
    | .deposit box key payload challengeId powSolution =>
      match σ.verifyPow sha256 challengeId powSolution with
      | (σ, .error e) => (σ, logged req.recipientId (.err ("PowFailed: " ++ e)))
      | (σ, .ok ()) =>
        -- the challenge is used up even if the payload is not base64
        match b64Decode payload with
        | .error e => (σ, some (.err ("InvalidBase64: " ++ e)))
        | .ok bytes =>
          match (σ.mailbox box).store key bytes box.ttl now with
          | (s, .error e) => (σ.setMailbox box s, some (.err ("StoreError: " ++ e.debug)))
          | (s, .ok ()) => (σ.setMailbox box s, logged req.recipientId .okSimple)
    | .collect box key =>
      match (σ.mailbox box).pickup key now with
      | (s, result) => (σ.setMailbox box s, some (collectResponse box result))

/-! ## The handler in stages -/

/-- Where a request has got to. -/
inductive Stage where
  | received
  | rateLimiting (nowSecs : Nat)
  | issuing
  | verifying
  | stamping (bytes : Bytes)
  | storing (bytes : Bytes) (expiry : Nat)
  | collecting
  | done (response : Option WsResponse)
  deriving Repr, DecidableEq

/-- What a request has done to a store. -/
inductive Effect where
  | stored (box : Mailbox) (key : String) (bytes : Bytes) (expiry : Nat)
  | collected (box : Mailbox) (key : String) (result : Except StoreError Bytes)
  deriving DecidableEq

/-- A move: the shared state after it, the stage reached, the effect on a store if there was one. -/
structure Move where
  state : WsState
  stage : Stage
  effect : Option Effect

/-- A move without effect on a store. -/
def Move.to (σ : WsState) (stage : Stage) : Move := ⟨σ, stage, none⟩

/-- The stage after the rate limiter. -/
def Op.admitted : Op → Stage
  | .challenge => .issuing
  | .deposit _ _ _ _ _ => .verifying
  | .collect _ _ => .collecting

/-- One move of a request: the clocks say `nowSecs` and `now`, the generator returns `nonce`.  A
    stage that does not belong to the request cannot be reached and stays where it is. -/
def advance (sha256 : Bytes → Bytes) (σ : WsState) (req : WsRequest) (nowSecs : Nat) (nonce : Bytes)
    (now : Nat) : Stage → Move
  | .received => .to σ (.rateLimiting nowSecs)
  | .rateLimiting nowSecs =>
    match σ.rateLimit req.recipientId nowSecs with
    | (σ, .error _) => .to σ (.done (logged req.recipientId (.err "RateLimitExceeded")))
    | (σ, .ok ()) => .to σ req.op.admitted
  | .issuing =>
    let r := σ.issue nonce
    .to r.1 (.done (some r.2))
  | .verifying =>
    match req.op with
    | .deposit _ _ payload challengeId powSolution =>
      match σ.verifyPow sha256 challengeId powSolution with
      | (σ, .error e) => .to σ (.done (logged req.recipientId (.err ("PowFailed: " ++ e))))
      | (σ, .ok ()) =>
        match b64Decode payload with
        | .error e => .to σ (.done (some (.err ("InvalidBase64: " ++ e))))
        | .ok bytes => .to σ (.stamping bytes)
    | _ => .to σ .verifying
  | .stamping bytes =>
    match req.op with
    | .deposit box _ _ _ _ => .to σ (.storing bytes (now + box.ttl))
    | _ => .to σ (.stamping bytes)
  | .storing bytes expiry =>
    match req.op with
    | .deposit box key _ _ _ =>
      match (σ.mailbox box).insert key bytes expiry with
      | (s, .error e) => .to (σ.setMailbox box s) (.done (some (.err ("StoreError: " ++ e.debug))))
      | (s, .ok ()) =>
        ⟨σ.setMailbox box s, .done (logged req.recipientId .okSimple),
          some (.stored box key bytes expiry)⟩
    | _ => .to σ (.storing bytes expiry)
  | .collecting =>
    match req.op with
    | .collect box key =>
      match (σ.mailbox box).pickup key now with
      | (s, result) =>
        ⟨σ.setMailbox box s, .done (some (collectResponse box result)),
          some (.collected box key result)⟩
    | _ => .to σ .collecting
  | .done response => .to σ (.done response)

/-- `n` moves of one request with nothing in between. -/
def undisturbed (sha256 : Bytes → Bytes) (req : WsRequest) (nowSecs : Nat) (nonce : Bytes)
    (now : Nat) : Nat → WsState → Stage → WsState × Stage
  | 0, σ, stage => (σ, stage)
  | n + 1, σ, stage =>
    let m := advance sha256 σ req nowSecs nonce now stage
    undisturbed sha256 req nowSecs nonce now n m.state m.stage

theorem undisturbed_done (sha256 : Bytes → Bytes) (req : WsRequest) (nowSecs : Nat) (nonce : Bytes)
    (now n : Nat) (σ : WsState) (response : Option WsResponse) :
    undisturbed sha256 req nowSecs nonce now n σ (.done response) = (σ, .done response) := by
  induction n with
  | zero => rfl
  | succ n ih => exact ih

/-- **The moves add up to the handler.** -/
theorem advance_undisturbed (sha256 : Bytes → Bytes) (σ : WsState) (req : WsRequest) (nowSecs : Nat)
    (nonce : Bytes) (now : Nat) :
    undisturbed sha256 req nowSecs nonce now 5 σ .received =
      ((handleRequest sha256 σ req nowSecs nonce now).1,
        .done (handleRequest sha256 σ req nowSecs nonce now).2) := by
  rw [undisturbed, undisturbed, handleRequest]
  dsimp only [advance, Move.to]
  rcases σ.rateLimit req.recipientId nowSecs with ⟨σ1, _ | _⟩
  · exact undisturbed_done ..
  · dsimp only
    cases hop : req.op with
    | challenge =>
      rw [Op.admitted, undisturbed]
      exact undisturbed_done ..
    | collect box key =>
      rw [Op.admitted, undisturbed]
      dsimp only [advance]
      rw [hop]
      exact undisturbed_done ..
    | deposit box key payload cid sol =>
      rw [Op.admitted, undisturbed]
      dsimp only [advance]
      rw [hop]
      dsimp only
      rcases σ1.verifyPow sha256 cid sol with ⟨σ2, e | _⟩
      · exact undisturbed_done ..
      · dsimp only
        cases b64Decode payload with
        | error e => exact undisturbed_done ..
        | ok bytes =>
          rw [undisturbed]
          dsimp only [advance, Move.to]
          rw [hop]
          dsimp only
          rw [undisturbed]
          dsimp only [advance, Move.to]
          rw [hop]
          rfl

end E2EMessaging.Relay
