/-
  DOES THE RELAY ANSWER? (`handle_request` and `handle_connection` of `relay/src/ws.rs`)

  Log statements shorten the recipient's identifier with `&id[..8]`, which panics if byte 8 is inside a
  character.  The identifier is the peer's choice, and the statements are evaluated at the default log
  level.  Not every path logs, though: a challenge, a lookup and a pickup are answered in silence once the
  rate limiter has let them pass, and so is a deposit whose proof of work is good and whose payload is not
  base64.

  * `handleRequest_answers_iff` says exactly which requests are answered in which state.
  * A panic unwinds the task of the connection: `handle_connection` then sends nothing more.
    `connection_served_iff` carries the condition over to every sequence of frames.
-/
import E2EMessaging.Relay.PowGate

namespace E2EMessaging.Relay

open E2EMessaging.Lib

/-! ## Byte 8 -/

/-- The identifier has at most eight bytes, or a character ends at byte 8. -/
def Boundary (id : String) : Prop :=
  (utf8 id).length ≤ 8 ∨
    ∃ cs rest, id.toList = cs ++ rest ∧ (cs.flatMap String.utf8EncodeChar).length = 8

theorem takeBytes_isSome_iff {l : List Char} {n : Nat} :
    (takeBytes l n).isSome = true ↔
      ∃ cs rest, l = cs ++ rest ∧ (cs.flatMap String.utf8EncodeChar).length = n := by
  induction l generalizing n with
  | nil =>
    rw [takeBytes]
    split
    · rename_i hn
      exact ⟨fun _ => ⟨[], [], rfl, hn.symm⟩, fun _ => rfl⟩
    · rename_i hn
      constructor
      · intro h
        cases h
      · rintro ⟨cs, rest, hl, hlen⟩
        obtain ⟨rfl, -⟩ := List.append_eq_nil_iff.mp hl.symm
        exact absurd hlen.symm hn
  | cons c l ih =>
    rw [takeBytes]
    split
    · rename_i hn
      exact ⟨fun _ => ⟨[], c :: l, rfl, hn.symm⟩, fun _ => rfl⟩
    · rename_i hn
      split
      · rename_i hle
        rw [Option.isSome_map, ih]
        constructor
        · rintro ⟨cs, rest, rfl, hlen⟩
          refine ⟨c :: cs, rest, rfl, ?_⟩
          rw [List.flatMap_cons, List.length_append, hlen, String.length_utf8EncodeChar]
          omega
        · rintro ⟨cs, rest, hl, hlen⟩
          cases cs with
          | nil => exact absurd hlen.symm hn
          | cons d cs =>
            obtain ⟨rfl, rfl⟩ := List.cons.inj hl
            rw [List.flatMap_cons, List.length_append, String.length_utf8EncodeChar] at hlen
            exact ⟨cs, rest, rfl, by omega⟩
      · rename_i hgt
        constructor
        · intro h
          cases h
        · rintro ⟨cs, rest, hl, hlen⟩
          cases cs with
          | nil => exact absurd hlen.symm hn
          | cons d cs =>
            obtain ⟨rfl, rfl⟩ := List.cons.inj hl
            rw [List.flatMap_cons, List.length_append, String.length_utf8EncodeChar] at hlen
            omega

/-- **`truncate_id` returns exactly at a boundary.** -/
theorem truncateId_isSome_iff {id : String} : (truncateId id).isSome = true ↔ Boundary id := by
  rw [truncateId, Boundary]
  split
  · rename_i hle
    exact ⟨fun _ => Or.inl hle, fun _ => rfl⟩
  · rename_i hgt
    rw [Option.isSome_map, takeBytes_isSome_iff]
    constructor
    · exact Or.inr
    · rintro (hle | h)
      · exact absurd hle hgt
      · exact h

theorem logged_isSome_iff {r : String} {x : WsResponse} :
    (logged r x).isSome = true ↔ Boundary r := by
  rw [logged, Option.isSome_map, truncateId_isSome_iff]

/-! ## One request -/

/-- The proof of work a deposit brings is good. -/
def Solved (sha256 : Bytes → Bytes) (σ : WsState) (challengeId powSolution : String) : Prop :=
  ∃ challenge solution, σ.challenges challengeId = some challenge ∧
    b64Decode powSolution = .ok solution ∧ powVerify sha256 challenge solution = .ok ()

theorem verifyPow_ok_iff {sha256 : Bytes → Bytes} {σ : WsState} {cid sol : String} :
    (σ.verifyPow sha256 cid sol).2 = .ok () ↔ Solved sha256 σ cid sol := by
  constructor
  · intro hok
    rcases verifyPow_cases sha256 σ cid sol with ⟨e, hv⟩ | ⟨challenge, solution, hactive, hdec, hv⟩
    · rw [hv] at hok
      cases hok
    · rcases hv with ⟨err, -, hv⟩ | ⟨hverify, -⟩
      · rw [hv] at hok
        cases hok
      · exact ⟨challenge, solution, hactive, hdec, hverify⟩
  · rintro ⟨challenge, solution, hactive, hdec, hverify⟩
    rw [WsState.verifyPow, hdec]
    simp only [hactive, hverify]

/-- The request does not come to a log statement once it has passed the rate limiter. -/
def Silent (sha256 : Bytes → Bytes) (σ : WsState) (req : WsRequest) : Prop :=
  match req.op with
  | .challenge => True
  | .collect _ _ => True
  | .deposit _ _ payload challengeId powSolution =>
    Solved sha256 σ challengeId powSolution ∧ ∃ e, b64Decode payload = .error e

/-- What decides whether a request is answered: its recipient can be logged, or nothing is. -/
def Answerable (sha256 : Bytes → Bytes) (σ : WsState) (req : WsRequest) (nowSecs : Nat) : Prop :=
  Boundary req.recipientId ∨
    ((σ.rateLimiter.bucket (utf8 req.recipientId) nowSecs).tokens ≠ 0 ∧ Silent sha256 σ req)

theorem rateLimit_cases (σ : WsState) (r : String) (nowSecs : Nat) :
    ((σ.rateLimiter.bucket (utf8 r) nowSecs).tokens = 0 ∧ ∃ e, (σ.rateLimit r nowSecs).2 = .error e) ∨
    ((σ.rateLimiter.bucket (utf8 r) nowSecs).tokens ≠ 0 ∧ (σ.rateLimit r nowSecs).2 = .ok ()) := by
  rw [WsState.rateLimit, RateLimiter.check]
  simp only
  split
  · rename_i h
    exact Or.inl ⟨h, _, rfl⟩
  · rename_i h
    exact Or.inr ⟨h, rfl⟩

/-- **A request is answered exactly if its recipient's identifier can be logged, or nothing is.** -/
theorem handleRequest_answers_iff (sha256 : Bytes → Bytes) (σ : WsState) (req : WsRequest)
    (nowSecs : Nat) (nonce : Bytes) (now : Nat) :
    (handleRequest sha256 σ req nowSecs nonce now).2.isSome = true ↔
      Answerable sha256 σ req nowSecs := by
  rw [handleRequest, Answerable]
  have hlimit := rateLimit_cases σ req.recipientId nowSecs
  have hchallenges : (σ.rateLimit req.recipientId nowSecs).1.challenges = σ.challenges := rfl
  rcases hrl : σ.rateLimit req.recipientId nowSecs with ⟨σ₁, e | u⟩
  · -- over the limit: a warning is logged
    rw [hrl] at hlimit
    simp only [logged_isSome_iff]
    rcases hlimit with ⟨hzero, -⟩ | ⟨-, hok⟩
    · constructor
      · exact Or.inl
      · rintro (h | ⟨hne, -⟩)
        · exact h
        · exact absurd hzero hne
    · cases hok
  · rw [hrl] at hlimit hchallenges
    have hne : (σ.rateLimiter.bucket (utf8 req.recipientId) nowSecs).tokens ≠ 0 := by
      rcases hlimit with ⟨-, e, he⟩ | ⟨hne, -⟩
      · cases he
      · exact hne
    simp only at hchallenges
    simp only [hne, ne_eq, not_false_eq_true, true_and]
    rw [Silent]
    cases hop : req.op with
    | challenge => simp
    | collect box key => simp
    | deposit box key payload cid sol =>
      have hsolved : Solved sha256 σ cid sol ↔ (σ₁.verifyPow sha256 cid sol).2 = .ok () := by
        rw [verifyPow_ok_iff, Solved, Solved, hchallenges]
      simp only [hsolved]
      rcases σ₁.verifyPow sha256 cid sol with ⟨σ₂, e | u⟩
      · simp [logged_isSome_iff]
      · cases hdec : b64Decode payload with
        | error e => simp
        | ok bytes =>
          simp only [RelayStore.store, RelayStore.insert, logged_isSome_iff]
          simp

/-! ## A connection -/

/-- What the stream of a connection yields: a text frame with what `serde_json` makes of it, another
    frame, or an error. -/
inductive Incoming where
  | text (req : Except String WsRequest)
  | binary
  | close
  /-- Ping and pong. -/
  | control
  | failed

/-- One turn of the loop: the frame, the shared state and the clocks when it is handled, and whether the
    response can be sent.  Other connections change the state between turns as they like. -/
structure Turn where
  message : Incoming
  state : WsState
  nowSecs : Nat
  nonce : Bytes
  now : Nat
  delivered : Bool

/-- How far a connection has come: the loop waits for the next frame, has been left, or the task has
    panicked. -/
inductive ConnStatus where
  | waiting
  | left
  | panicked
  deriving Repr, DecidableEq

/-- `handle_connection` on the frames that arrive: what was sent in each turn. -/
def handleConnection (sha256 : Bytes → Bytes) : List Turn → List (List WsResponse) × ConnStatus
  | [] => ([], .waiting)
  | t :: ts =>
    let rest := handleConnection sha256 ts
    match t.message with
    | .text (.error e) => ([.err ("MalformedRequest: " ++ e)] :: rest.1, rest.2)
    | .text (.ok req) =>
      match (handleRequest sha256 t.state req t.nowSecs t.nonce t.now).2 with
      | none => ([], .panicked)
      | some resp =>
        if t.delivered then ([resp] :: rest.1, rest.2) else ([[resp]], .left)
    | .binary => ([.err "BinaryFramesNotAllowed"] :: rest.1, rest.2)
    | .close => ([[]], .left)
    | .control => ([] :: rest.1, rest.2)
    | .failed => ([[]], .left)

/-- The peer gives no reason to leave the loop: no close frame, no error, and the response to a request
    can be sent. -/
def Turn.Goes (t : Turn) : Prop :=
  match t.message with
  | .text (.error _) => True
  | .text (.ok _) => t.delivered = true
  | .binary => True
  | .control => True
  | .close => False
  | .failed => False

/-- The frame is a request that can be answered, or no request. -/
def Turn.Answerable (sha256 : Bytes → Bytes) (t : Turn) : Prop :=
  ∀ req, t.message = .text (.ok req) → Relay.Answerable sha256 t.state req t.nowSecs

/-- The connection is served: it is kept, and every text frame got exactly one response. -/
structure Served (sha256 : Bytes → Bytes) (ts : List Turn) : Prop where
  kept : (handleConnection sha256 ts).2 = .waiting
  turns : (handleConnection sha256 ts).1.length = ts.length
  one : ∀ (i : Nat) (t : Turn) (req : Except String WsRequest), ts[i]? = some t →
    t.message = .text req → ∃ resp, (handleConnection sha256 ts).1[i]? = some [resp]

/-- **One turn**: a frame that can be answered is answered, once if it is text, and the loop goes on; one
    that cannot takes the connection down. -/
theorem handleConnection_cons (sha256 : Bytes → Bytes) {t : Turn} (hgo : t.Goes) (ts : List Turn) :
    (t.Answerable sha256 ∧ ∃ sent, handleConnection sha256 (t :: ts) =
        (sent :: (handleConnection sha256 ts).1, (handleConnection sha256 ts).2) ∧
      ∀ req, t.message = .text req → ∃ resp, sent = [resp]) ∨
    (¬ t.Answerable sha256 ∧ handleConnection sha256 (t :: ts) = ([], .panicked)) := by
  rw [Turn.Goes] at hgo
  rw [handleConnection, Turn.Answerable]
  cases hm : t.message with
  | binary =>
    refine Or.inl ⟨fun req h => ?_, _, rfl, fun req h => ?_⟩ <;> cases h
  | control =>
    refine Or.inl ⟨fun req h => ?_, _, rfl, fun req h => ?_⟩ <;> cases h
  | close =>
    rw [hm] at hgo
    exact hgo.elim
  | failed =>
    rw [hm] at hgo
    exact hgo.elim
  | text req =>
    cases req with
    | error e =>
      refine Or.inl ⟨fun req h => ?_, _, rfl, fun req h => ⟨_, rfl⟩⟩
      cases h
    | ok req =>
      have hdelivered : t.delivered = true := by
        rw [hm] at hgo
        exact hgo
      have hiff := handleRequest_answers_iff sha256 t.state req t.nowSecs t.nonce t.now
      have hall : (∀ req', Incoming.text (.ok req) = .text (.ok req') →
          Answerable sha256 t.state req' t.nowSecs) ↔ Answerable sha256 t.state req t.nowSecs := by
        constructor
        · exact fun h => h req rfl
        · rintro h req' heq
          obtain rfl : req = req' := Except.ok.inj (Incoming.text.inj heq)
          exact h
      simp only [hall]
      cases hresp : (handleRequest sha256 t.state req t.nowSecs t.nonce t.now).2 with
      | none =>
        rw [hresp] at hiff
        refine Or.inr ⟨fun h => ?_, rfl⟩
        cases hiff.mpr h
      | some resp =>
        rw [hresp] at hiff
        refine Or.inl ⟨hiff.mp rfl, [resp], ?_, fun _ _ => ⟨resp, rfl⟩⟩
        simp only [hdelivered, if_true]

/-- **A connection is served exactly if each of its requests can be answered when it comes.**  By induction
    on the frames. -/
theorem connection_served_iff (sha256 : Bytes → Bytes) {ts : List Turn} (hgo : ∀ t ∈ ts, t.Goes) :
    Served sha256 ts ↔ ∀ t ∈ ts, t.Answerable sha256 := by
  induction ts with
  | nil =>
    refine ⟨fun _ t ht => absurd ht List.not_mem_nil, fun _ => ⟨rfl, rfl, fun i t req ht => ?_⟩⟩
    cases ht
  | cons t ts ih =>
    have ih' := ih fun t' ht' => hgo t' (List.mem_cons_of_mem t ht')
    rw [List.forall_mem_cons, ← ih']
    rcases handleConnection_cons sha256 (hgo t List.mem_cons_self) ts with
      ⟨hans, sent, heq, hone⟩ | ⟨hans, heq⟩
    · constructor
      · rintro ⟨hkept, hturns, hall⟩
        rw [heq] at hkept hturns hall
        refine ⟨hans, hkept, Nat.succ.inj hturns, fun i t' req ht' hreq => ?_⟩
        exact hall (i + 1) t' req ht' hreq
      · rintro ⟨-, hkept, hturns, hall⟩
        refine ⟨?_, ?_, ?_⟩
        · rw [heq]
          exact hkept
        · rw [heq]
          exact congrArg Nat.succ hturns
        · intro i t' req ht' hreq
          rw [heq]
          cases i with
          | zero =>
            obtain rfl : t = t' := Option.some.inj ht'
            obtain ⟨resp, rfl⟩ := hone req hreq
            exact ⟨resp, rfl⟩
          | succ i => exact hall i t' req ht' hreq
    · constructor
      · rintro ⟨hkept, -, -⟩
        rw [heq] at hkept
        cases hkept
      · rintro ⟨h, -⟩
        exact absurd h hans

/-- **The relay answers a request exactly if it is answerable**, in every state; and on every connection
    whose peer stays, it is kept with one response to each text frame exactly if all its requests are. -/
theorem relay_answers_iff (sha256 : Bytes → Bytes) :
    (∀ σ req nowSecs nonce now,
      (∃ resp, (handleRequest sha256 σ req nowSecs nonce now).2 = some resp) ↔
        Answerable sha256 σ req nowSecs) ∧
    ∀ ts : List Turn, (∀ t ∈ ts, t.Goes) →
      (Served sha256 ts ↔ ∀ t ∈ ts, t.Answerable sha256) := by
  refine ⟨?_, fun ts hgo => connection_served_iff sha256 hgo⟩
  intro σ req nowSecs nonce now
  rw [← Option.isSome_iff_exists]
  exact handleRequest_answers_iff sha256 σ req nowSecs nonce now

/-- A publish for a recipient in whose identifier byte 8 is inside a character, with no challenge to its name, at a
    fresh relay. -/
def unloggableTurn : Turn where
  message := .text (.ok (.publishPrekey "aaaaaaaé" "" "" ""))
  state := .new 60
  nowSecs := 0
  nonce := []
  now := 0
  delivered := true

/-- A pickup for the same recipient there is answered. -/
theorem relay_answers_silent_pickup :
    Served (fun m => m) [{ unloggableTurn with message := .text (.ok (.pickupEnvelope "aaaaaaaé")) }] := by
  rw [(relay_answers_iff fun m => m).2 _ (by
    intro t ht
    rw [List.mem_singleton.mp ht]
    rfl)]
  intro t ht req hreq
  rw [List.mem_singleton.mp ht] at hreq ⊢
  obtain rfl : .pickupEnvelope "aaaaaaaé" = req := Except.ok.inj (Incoming.text.inj hreq)
  exact Or.inr ⟨by decide, trivial⟩

/-- **The relay does not answer the publish**: reporting the missing challenge it panics, and the
    connection is gone. -/
theorem relay_panics_inside_character :
    (handleRequest (fun m => m) (.new 60) (.publishPrekey "aaaaaaaé" "" "" "") 0 [] 0).2 = none ∧
      handleConnection (fun m => m) [unloggableTurn] = ([], .panicked) ∧
      ¬ Served (fun m => m) [unloggableTurn] := by
  have hnone : (handleRequest (fun m => m) (.new 60) (.publishPrekey "aaaaaaaé" "" "" "") 0 [] 0).2
      = none := by decide +kernel
  have hpanic : handleConnection (fun m => m) [unloggableTurn] = ([], .panicked) := by
    decide +kernel
  refine ⟨hnone, hpanic, fun h => ?_⟩
  have hkept := h.kept
  rw [hpanic] at hkept
  cases hkept

end E2EMessaging.Relay
