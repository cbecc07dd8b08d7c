/-
  THE RUST RELAY CLIENT ON AN UNTRUSTED RELAY (`WsRelayClient::solve_challenge` of
  `relay/src/ws.rs`).

  The response to a challenge request is any JSON value.  Its `challenge` field is decoded from base64
  and read at positions that follow from a length field inside it, WITHOUT comparing them with the
  length of what was decoded; the difficulty read there drives an index into a 32-byte digest.

  * Every wire with the full layout is read as the challenge it was written from (`parseChallenge_toWire`);
    every shorter one panics.
  * `solve_challenge_safe_iff` says exactly which responses make the client panic; on all others what it
    returns solves the challenge.
-/
import E2EMessaging.Relay.Base64Exact
import E2EMessaging.Relay.Solve

namespace E2EMessaging.Relay

open E2EMessaging.Lib

/-! ## Responses -/

/-- `serde_json::Value`. -/
inductive Json where
  | null
  | bool (b : Bool)
  | number (text : String)
  | string (s : String)
  | array (elems : List Json)
  | object (fields : List (String × Json))

/-- `value[key]`: null if the key is missing or the value is no object. -/
def Json.index (v : Json) (key : String) : Json :=
  match v with
  | .object fields => ((fields.find? fun f => decide (f.1 = key)).map Prod.snd).getD .null
  | _ => .null

/-- `as_str`. -/
def Json.asStr : Json → Option String
  | .string s => some s
  | _ => none

/-- `value == true`. -/
def Json.isTrue : Json → Bool
  | .bool b => b
  | _ => false

/-- `WsClientError`. -/
inductive WsClientError where
  | connectionUnavailable
  | relay (message : String)
  | powFailed (message : String)
  | decode (message : String)
  | notFound
  deriving Repr, DecidableEq

/-! ## Reading the challenge wire -/

/-- The challenge wire, as `solve_challenge` reads it. -/
def parseChallenge (wire : Bytes) : Outcome WsClientError Challenge := do
  let b0 ← byteAt wire 0
  let b1 ← byteAt wire 1
  let contextLen := fromBeBytes [b0, b1]
  let nonce ← slice wire (2 + contextLen) (2 + contextLen + 16)
  let d0 ← byteAt wire (2 + contextLen + 16)
  let d1 ← byteAt wire (2 + contextLen + 16 + 1)
  let d2 ← byteAt wire (2 + contextLen + 16 + 2)
  let d3 ← byteAt wire (2 + contextLen + 16 + 3)
  let context ← slice wire 2 (2 + contextLen)
  .ok ⟨context, nonce, fromBeBytes [d0, d1, d2, d3]⟩

/-- A challenge that fits its wire: the length field and the difficulty do not wrap, the nonce is
    `[u8; 16]`. -/
structure Challenge.Fits (c : Challenge) : Prop where
  context : c.context.length < 2 ^ 16
  nonce : c.nonce.length = 16
  difficulty : c.difficulty < 2 ^ 32

theorem exists_two {bs : Bytes} (h : bs.length = 2) : ∃ a b, bs = [a, b] := List.length_eq_two.mp h

theorem exists_four {bs : Bytes} (h : bs.length = 4) : ∃ a b c d, bs = [a, b, c, d] := by
  rcases bs with _ | ⟨a, _ | ⟨b, _ | ⟨c, _ | ⟨d, _ | ⟨e, rest⟩⟩⟩⟩⟩
  · cases h
  · cases h
  · cases h
  · cases h
  · exact ⟨a, b, c, d, rfl⟩
  · simp at h

/-- **The client reads back what `to_wire` wrote**, whatever follows it. -/
theorem parseChallenge_toWire {c : Challenge} (hc : c.Fits) (trailing : Bytes) :
    parseChallenge (c.toWire ++ trailing) = .ok c := by
  obtain ⟨b0, b1, hb⟩ := exists_two (length_toBeBytes 2 c.context.length)
  obtain ⟨d0, d1, d2, d3, hd⟩ := exists_four (length_toBeBytes 4 c.difficulty)
  have hlen : fromBeBytes [b0, b1] = c.context.length := by
    rw [← hb]
    exact fromBeBytes_toBeBytes_of_lt hc.context
  have hdiff : fromBeBytes [d0, d1, d2, d3] = c.difficulty := by
    rw [← hd]
    exact fromBeBytes_toBeBytes_of_lt hc.difficulty
  have hwire : c.toWire ++ trailing =
      [b0, b1] ++ c.context ++ c.nonce ++ [d0, d1, d2, d3] ++ trailing := by
    rw [Challenge.toWire, hb, hd]
  have hn := hc.nonce
  -- each read, by the segments before and after it
  have h0 : (byteAt (c.toWire ++ trailing) 0 : Outcome WsClientError UInt8) = .ok b0 := by
    rw [hwire]
    rfl
  have h1 : (byteAt (c.toWire ++ trailing) 1 : Outcome WsClientError UInt8) = .ok b1 := by
    rw [hwire]
    rfl
  have hnonce : (slice (c.toWire ++ trailing) (2 + c.context.length) (2 + c.context.length + 16) :
      Outcome WsClientError Bytes) = .ok c.nonce := by
    rw [hwire, List.append_assoc ([b0, b1] ++ c.context ++ c.nonce)]
    exact slice_append ([b0, b1] ++ c.context) c.nonce _ (by simp; omega) (by simp; omega)
  have hcontext : (slice (c.toWire ++ trailing) 2 (2 + c.context.length) :
      Outcome WsClientError Bytes) = .ok c.context := by
    rw [hwire, List.append_assoc ([b0, b1] ++ c.context ++ c.nonce),
      List.append_assoc ([b0, b1] ++ c.context)]
    exact slice_append [b0, b1] c.context _ (by simp) (by simp)
  have hat : ∀ (pre : Bytes) (x : UInt8) (post : Bytes) (i : Nat), i = 18 + c.context.length + pre.length →
      [d0, d1, d2, d3] = pre ++ x :: post →
      (byteAt (c.toWire ++ trailing) i : Outcome WsClientError UInt8) = .ok x := by
    intro pre x post i hi hsplit
    rw [hwire, hsplit, ← List.append_assoc, List.append_assoc _ _ trailing]
    exact byteAt_append _ x (post ++ trailing) (by simp; omega)
  rw [parseChallenge, h0, Outcome.ok_bind, h1, Outcome.ok_bind]
  simp only [hlen]
  rw [hnonce, Outcome.ok_bind, hat [] d0 [d1, d2, d3] _ (by simp; omega) rfl, Outcome.ok_bind,
    hat [d0] d1 [d2, d3] _ (by simp; omega) rfl, Outcome.ok_bind,
    hat [d0, d1] d2 [d3] _ (by simp; omega) rfl, Outcome.ok_bind,
    hat [d0, d1, d2] d3 [] _ (by simp; omega) rfl, Outcome.ok_bind, hcontext, Outcome.ok_bind, hdiff]

/-- The length field of a wire. -/
def wireContextLen (wire : Bytes) : Nat := fromBeBytes (wire.take 2)

/-- Nothing is missing: both bytes of the length field, and what it announces. -/
def Complete (wire : Bytes) : Prop := 2 ≤ wire.length ∧ 22 + wireContextLen wire ≤ wire.length

/-- The challenge a complete wire holds. -/
def wireChallenge (wire : Bytes) : Challenge where
  context := (wire.drop 2).take (wireContextLen wire)
  nonce := (wire.drop (2 + wireContextLen wire)).take 16
  difficulty := fromBeBytes ((wire.drop (18 + wireContextLen wire)).take 4)

theorem wireChallenge_fits {wire : Bytes} (h : Complete wire) : (wireChallenge wire).Fits where
  context := by
    have hlt := fromBeBytes_lt (wire.take 2)
    have hlen := h.2
    have h2 : (wire.take 2).length = 2 := by
      rw [List.length_take]
      have := h.1
      omega
    rw [h2] at hlt
    rw [wireChallenge, List.length_take]
    exact lt_of_le_of_lt (Nat.min_le_left _ _) hlt
  nonce := by
    have hlen := h.2
    rw [wireChallenge, List.length_take, List.length_drop]
    omega
  difficulty := by
    have hlt := fromBeBytes_lt ((wire.drop (18 + wireContextLen wire)).take 4)
    have h4 : ((wire.drop (18 + wireContextLen wire)).take 4).length ≤ 4 := List.length_take_le _ _
    exact lt_of_lt_of_le hlt (Nat.pow_le_pow_right (by decide) h4)

/-- **A complete wire is the challenge it holds, and what follows.** -/
theorem wireChallenge_toWire {wire : Bytes} (h : Complete wire) :
    wire = (wireChallenge wire).toWire ++ wire.drop (22 + wireContextLen wire) := by
  obtain ⟨h2, hlen⟩ := h
  have hcontext : (wireChallenge wire).context.length = wireContextLen wire := by
    rw [wireChallenge, List.length_take, List.length_drop]
    omega
  have hfield : toBeBytes 2 (wireContextLen wire) = wire.take 2 := by
    have := toBeBytes_fromBeBytes (wire.take 2)
    rwa [List.length_take, Nat.min_eq_left h2] at this
  have hdiff : toBeBytes 4 (wireChallenge wire).difficulty =
      (wire.drop (18 + wireContextLen wire)).take 4 := by
    have := toBeBytes_fromBeBytes ((wire.drop (18 + wireContextLen wire)).take 4)
    rwa [List.length_take, List.length_drop, Nat.min_eq_left (by omega)] at this
  rw [Challenge.toWire, hcontext, hfield, hdiff]
  show wire = wire.take 2 ++ (wire.drop 2).take (wireContextLen wire) ++
    (wire.drop (2 + wireContextLen wire)).take 16 ++ (wire.drop (18 + wireContextLen wire)).take 4 ++
    wire.drop (22 + wireContextLen wire)
  rw [← List.take_add, ← List.take_add, show 2 + wireContextLen wire + 16 = 18 + wireContextLen wire
    by omega, ← List.take_add, show 18 + wireContextLen wire + 4 = 22 + wireContextLen wire by omega,
    List.take_append_drop]

theorem parseChallenge_of_complete {wire : Bytes} (h : Complete wire) :
    parseChallenge wire = .ok (wireChallenge wire) := by
  conv_lhs => rw [wireChallenge_toWire h]
  exact parseChallenge_toWire (wireChallenge_fits h) _

/-- A read of a byte gives the byte or panics. -/
theorem byteAt_ok_or_panic (bs : Bytes) (i : Nat) :
    (∃ b, (byteAt bs i : Outcome WsClientError UInt8) = .ok b ∧ i < bs.length) ∨
      (byteAt bs i : Outcome WsClientError UInt8) = .panic := by
  rcases Nat.lt_or_ge i bs.length with h | h
  · refine Or.inl ⟨bs[i], ?_, h⟩
    rw [byteAt, List.getElem?_eq_getElem h]
  · right
    rw [byteAt, List.getElem?_eq_none h]

/-- A computation that reads a byte and then panics whatever it is. -/
theorem byteAt_bind_panic {α : Type} {bs : Bytes} {i : Nat} {f : UInt8 → Outcome WsClientError α}
    (h : i < bs.length → ∀ b, f b = .panic) : (byteAt bs i >>= f) = .panic := by
  rcases byteAt_ok_or_panic bs i with ⟨b, hb, hlt⟩ | hb
  · rw [hb, Outcome.ok_bind, h hlt b]
  · rw [hb]
    rfl

theorem slice_bind_panic {α : Type} {bs : Bytes} {i j : Nat} {f : Bytes → Outcome WsClientError α}
    (h : ∀ xs, f xs = .panic) : (slice bs i j >>= f) = .panic := by
  rw [slice]
  split
  · rw [Outcome.ok_bind, h]
  · rfl

/-- **Everything else panics**: some read is past the end. -/
theorem parseChallenge_of_incomplete {wire : Bytes} (h : ¬ Complete wire) :
    parseChallenge wire = .panic := by
  rw [parseChallenge]
  rcases wire with _ | ⟨b0, _ | ⟨b1, rest⟩⟩
  · rfl
  · rfl
  · -- the length field is there, so what it announces is not
    have hshort : (b0 :: b1 :: rest).length < 22 + fromBeBytes [b0, b1] := by
      by_contra hge
      have h2 : 2 ≤ (b0 :: b1 :: rest).length := by
        simp only [List.length_cons]
        omega
      exact h ⟨h2, Nat.le_of_not_lt hge⟩
    rw [show (byteAt (b0 :: b1 :: rest) 0 : Outcome WsClientError UInt8) = .ok b0 from rfl,
      show (byteAt (b0 :: b1 :: rest) 1 : Outcome WsClientError UInt8) = .ok b1 from rfl,
      Outcome.ok_bind, Outcome.ok_bind]
    refine slice_bind_panic fun nonce => byteAt_bind_panic fun _ d0 => byteAt_bind_panic fun _ d1 =>
      byteAt_bind_panic fun _ d2 => byteAt_bind_panic fun hlt d3 => ?_
    omega

/-! ## The loop -/

/-- `check_pow_difficulty`, the index into the digest included. -/
def checkPowDifficulty (sha256 : Bytes → Bytes) (preimage suffix : Bytes) (difficulty : Nat) :
    Outcome WsClientError Bool :=
  let digest := sha256 (preimage ++ suffix)
  let fullBytes := difficulty / 8
  if digest.length < fullBytes || (digest.take fullBytes).any (fun b => decide (b ≠ 0)) then
    .ok false
  else
    let extraBits := difficulty % 8
    if extraBits = 0 then .ok true
    else do
      let b ← byteAt digest fullBytes
      .ok (decide (b &&& (0xFF <<< UInt8.ofNat (8 - extraBits)) = 0))

/-- The brute-force loop at a counter. -/
def clientSolveFrom (sha256 : Bytes → Bytes) (preimage : Bytes) (difficulty counter : Nat) :
    Outcome WsClientError Bytes :=
  let suffix := toLeBytes 8 counter
  (checkPowDifficulty sha256 preimage suffix difficulty).bind fun hit =>
    if hit then .ok suffix
    -- `counter += 1` on a `u64`
    else if 2 ^ 64 ≤ counter + 1 then .panic
    else if maxIters < counter + 1 then .err (.powFailed "exceeded iteration limit")
    else clientSolveFrom sha256 preimage difficulty (counter + 1)
termination_by maxIters - counter

/-- The rest of `solve_challenge`, from the wire on. -/
def solveWire (sha256 : Bytes → Bytes) (challengeId : String) (wire : Bytes) :
    Outcome WsClientError (String × String) := do
  let c ← parseChallenge wire
  let solution ← clientSolveFrom sha256 c.preimage c.difficulty 0
  .ok (challengeId, b64Encode solution)

/-- `solve_challenge`, from what `round_trip` returns. -/
def solveChallenge (sha256 : Bytes → Bytes) (reply : Except WsClientError Json) :
    Outcome WsClientError (String × String) := do
  let resp ← .ofExcept reply
  if (resp.index "ok").isTrue then
    match (resp.index "challenge").asStr with
    | none => .err (.relay "missing challenge field")
    | some challengeB64 =>
      match (resp.index "challenge_id").asStr with
      | none => .err (.relay "missing challenge_id field")
      | some challengeId =>
        match b64Decode challengeB64 with
        | .error e => .err (.decode ("challenge wire: " ++ e))
        | .ok challengeWire => solveWire sha256 challengeId challengeWire
  else .err (.relay ((resp.index "error").asStr.getD "unknown error"))

theorem clientSolveFrom_searches (sha256 : Bytes → Bytes) (preimage : Bytes) (difficulty : Nat) :
    Searches (fun n => checkPowDifficulty sha256 preimage (toLeBytes 8 n) difficulty)
      (.powFailed "exceeded iteration limit") (toLeBytes 8) maxIters
      (clientSolveFrom sha256 preimage difficulty) := by
  intro c hc
  have hoverflow : ¬ 2 ^ 64 ≤ c + 1 := by
    have : maxIters = 4294967296 := rfl
    omega
  rw [clientSolveFrom]
  simp only [if_neg hoverflow]

section Digest

variable {sha256 : Bytes → Bytes} (hsha : ∀ m, (sha256 m).length = 32)
include hsha

/-- Up to 256 bits the check is that of the relay. -/
theorem checkPowDifficulty_of_le {preimage suffix : Bytes} {d : Nat} (hd : d ≤ 256) :
    checkPowDifficulty sha256 preimage suffix d = .ok (meetsDifficulty sha256 preimage suffix d) := by
  have hlen := hsha (preimage ++ suffix)
  rw [checkPowDifficulty, meetsDifficulty]
  simp only
  split
  · rfl
  · by_cases he : d % 8 = 0
    · rw [if_pos he, if_pos he]
    · have hk : d / 8 < (sha256 (preimage ++ suffix)).length := by omega
      rw [if_neg he, if_neg he, byteAt, List.getElem?_eq_getElem hk, List.getD_eq_getElem?_getD,
        List.getElem?_eq_getElem hk]
      rfl

/-- From 257 to 263 bits all 32 bytes have to be zero, and then the index is past the end. -/
theorem checkPowDifficulty_of_mid {preimage suffix : Bytes} {d : Nat} (hlo : 257 ≤ d)
    (hhi : d ≤ 263) :
    ((∀ b ∈ sha256 (preimage ++ suffix), b = 0) ∧
      checkPowDifficulty sha256 preimage suffix d = .panic) ∨
    ((¬ ∀ b ∈ sha256 (preimage ++ suffix), b = 0) ∧
      checkPowDifficulty sha256 preimage suffix d = .ok false) := by
  have hlen := hsha (preimage ++ suffix)
  have hk : d / 8 = 32 := by omega
  have he : d % 8 ≠ 0 := by omega
  rw [checkPowDifficulty]
  simp only [hk]
  generalize sha256 (preimage ++ suffix) = digest at hlen
  have hnone : digest[32]? = none := List.getElem?_eq_none (by omega)
  have hzeros : (decide (digest.length < 32) || digest.any fun b => decide (b ≠ 0)) = true ↔
      ¬ ∀ b ∈ digest, b = 0 := by
    rw [decide_eq_false (show ¬ digest.length < 32 by omega), Bool.false_or, List.any_eq_true]
    simp
  rw [List.take_of_length_le (by omega), if_neg he, byteAt, hnone]
  by_cases hall : ∀ b ∈ digest, b = 0
  · refine Or.inl ⟨hall, ?_⟩
    rw [if_neg (fun h => hzeros.mp h hall)]
    rfl
  · refine Or.inr ⟨hall, ?_⟩
    rw [if_pos (hzeros.mpr hall)]

/-- Beyond, no digest is long enough. -/
theorem checkPowDifficulty_of_gt {preimage suffix : Bytes} {d : Nat} (hd : 263 < d) :
    checkPowDifficulty sha256 preimage suffix d = .ok false := by
  have hlen := hsha (preimage ++ suffix)
  rw [checkPowDifficulty]
  simp only
  rw [if_pos]
  rw [decide_eq_true (show (sha256 (preimage ++ suffix)).length < d / 8 by omega), Bool.true_or]

/-- What the loop returns: the first counter that meets the difficulty, which is then at most 256. -/
theorem clientSolveFrom_ok_iff {preimage : Bytes} {d : Nat} {solution : Bytes} :
    clientSolveFrom sha256 preimage d 0 = .ok solution ↔
      d ≤ 256 ∧ ∃ n ≤ maxIters, meetsAt sha256 preimage d n = true ∧
        (∀ m < n, meetsAt sha256 preimage d m = false) ∧ solution = toLeBytes 8 n := by
  have hs := clientSolveFrom_searches sha256 preimage d
  by_cases hd : d ≤ 256
  · rw [hs.ok_iff_first fun n _ => checkPowDifficulty_of_le hsha hd]
    constructor
    · exact fun h => ⟨hd, h⟩
    · exact fun h => h.2
  · -- no check ever says yes
    have hno : ∀ n, checkPowDifficulty sha256 preimage (toLeBytes 8 n) d ≠ .ok true := by
      intro n
      rcases Nat.lt_or_ge 263 d with hgt | hle
      · rw [checkPowDifficulty_of_gt hsha hgt]
        exact fun h => by cases h
      · rcases checkPowDifficulty_of_mid hsha (Nat.lt_of_not_le hd) hle with ⟨-, heq⟩ | ⟨-, heq⟩ <;>
          rw [heq] <;> exact fun h => by cases h
    rw [hs.ok_iff (Nat.zero_le _)]
    constructor
    · rintro ⟨n, -, hn, -⟩
      exact absurd hn (hno n)
    · rintro ⟨hle, -⟩
      exact absurd hle hd

/-- When it panics: the difficulty is out of range, but by less than a byte, and some counter hashes
    to zeros. -/
theorem clientSolveFrom_panic_iff {preimage : Bytes} {d : Nat} :
    clientSolveFrom sha256 preimage d 0 = .panic ↔
      257 ≤ d ∧ d ≤ 263 ∧ ∃ n ≤ maxIters, ∀ b ∈ sha256 (preimage ++ toLeBytes 8 n), b = 0 := by
  have hs := clientSolveFrom_searches sha256 preimage d
  rw [hs.panic_iff (Nat.zero_le _)]
  rcases Nat.lt_or_ge 256 d with hgt | hle
  · rcases Nat.lt_or_ge 263 d with hbig | hmid
    · constructor
      · rintro ⟨n, -, hn⟩
        rw [checkPowDifficulty_of_gt hsha hbig] at hn
        cases hn
      · rintro ⟨-, hle, -⟩
        omega
    · have htest : ∀ n, ((∀ b ∈ sha256 (preimage ++ toLeBytes 8 n), b = 0) ∧
          checkPowDifficulty sha256 preimage (toLeBytes 8 n) d = .panic) ∨
          ((¬ ∀ b ∈ sha256 (preimage ++ toLeBytes 8 n), b = 0) ∧
            checkPowDifficulty sha256 preimage (toLeBytes 8 n) d = .ok false) :=
        fun n => checkPowDifficulty_of_mid hsha hgt hmid
      constructor
      · rintro ⟨n, hfirst, hn⟩
        refine ⟨hgt, hmid, n, hfirst.le, ?_⟩
        rcases htest n with ⟨hall, -⟩ | ⟨-, heq⟩
        · exact hall
        · rw [heq] at hn
          cases hn
      · rintro ⟨-, -, n, hn, hall⟩
        -- the first check that does not say no is a panic, and there is one
        rcases first_or_none (fun n => checkPowDifficulty sha256 preimage (toLeBytes 8 n) d)
          (Nat.zero_le maxIters) with ⟨m, hfirst, hm⟩ | hnone
        · rcases htest m with ⟨-, heq⟩ | ⟨-, heq⟩
          · exact ⟨m, hfirst, heq⟩
          · exact absurd heq hm
        · rcases htest n with ⟨-, heq⟩ | ⟨hnot, -⟩
          · have hno := hnone n (Nat.zero_le n) hn
            rw [heq] at hno
            cases hno
          · exact absurd hall hnot
  · constructor
    · rintro ⟨n, -, hn⟩
      rw [checkPowDifficulty_of_le hsha hle] at hn
      cases hn
    · rintro ⟨hlo, -⟩
      omega

end Digest

/-! ## Any relay -/

/-- The response gets the client as far as the wire: `ok` is true, both fields are strings, and the
    challenge decodes. -/
def Offers (reply : Except WsClientError Json) (challengeId : String) (wire : Bytes) : Prop :=
  ∃ resp challengeB64, reply = .ok resp ∧ (resp.index "ok").isTrue = true ∧
    (resp.index "challenge").asStr = some challengeB64 ∧
    (resp.index "challenge_id").asStr = some challengeId ∧ b64Decode challengeB64 = .ok wire

/-- **The client on a response**: an error, or it goes on with the wire it was offered. -/
theorem solveChallenge_cases (sha256 : Bytes → Bytes) (reply : Except WsClientError Json) :
    (∃ challengeId wire, Offers reply challengeId wire ∧
      solveChallenge sha256 reply = solveWire sha256 challengeId wire) ∨
    ((∀ challengeId wire, ¬ Offers reply challengeId wire) ∧
      ∃ e, solveChallenge sha256 reply = .err e) := by
  cases reply with
  | error e =>
    refine Or.inr ⟨?_, e, rfl⟩
    rintro challengeId wire ⟨resp, challengeB64, h, -⟩
    cases h
  | ok resp =>
    -- an offer of this response is made of what its fields are
    have hoffer : ∀ {challengeId wire}, Offers (.ok resp) challengeId wire →
        (resp.index "ok").isTrue = true ∧ (resp.index "challenge_id").asStr = some challengeId ∧
        ∃ text, (resp.index "challenge").asStr = some text ∧ b64Decode text = .ok wire := by
      rintro challengeId wire ⟨resp', text, hresp, hok, hch, hid, hdec⟩
      obtain rfl := Except.ok.inj hresp
      exact ⟨hok, hid, text, hch, hdec⟩
    rw [solveChallenge, show (Outcome.ofExcept (.ok resp) : Outcome WsClientError Json) = .ok resp
      from rfl, Outcome.ok_bind]
    by_cases hok : (resp.index "ok").isTrue = true
    · rw [if_pos hok]
      cases hch : (resp.index "challenge").asStr with
      | none =>
        refine Or.inr ⟨fun _ _ h => ?_, _, rfl⟩
        obtain ⟨-, -, text, htext, -⟩ := hoffer h
        rw [hch] at htext
        cases htext
      | some text =>
        cases hid : (resp.index "challenge_id").asStr with
        | none =>
          refine Or.inr ⟨fun _ _ h => ?_, _, rfl⟩
          have := (hoffer h).2.1
          rw [hid] at this
          cases this
        | some challengeId =>
          cases hdec : b64Decode text with
          | error e =>
            simp only [hdec]
            refine Or.inr ⟨fun _ _ h => ?_, _, rfl⟩
            obtain ⟨-, -, text', htext, hdec'⟩ := hoffer h
            rw [hch] at htext
            rw [← Option.some.inj htext, hdec] at hdec'
            cases hdec'
          | ok wire =>
            simp only [hdec]
            exact Or.inl ⟨challengeId, wire, ⟨resp, text, rfl, hok, hch, hid, hdec⟩, rfl⟩
    · rw [if_neg hok]
      exact Or.inr ⟨fun _ _ h => hok (hoffer h).1, _, rfl⟩

theorem Offers.unique {reply : Except WsClientError Json} {id id' : String} {wire wire' : Bytes}
    (h : Offers reply id wire) (h' : Offers reply id' wire') : id = id' ∧ wire = wire' := by
  obtain ⟨resp, text, rfl, -, htext, hid, hdec⟩ := h
  obtain ⟨resp', text', hresp, -, htext', hid', hdec'⟩ := h'
  obtain rfl := Except.ok.inj hresp
  rw [htext] at htext'
  obtain rfl := Option.some.inj htext'
  rw [hid] at hid'
  rw [hdec] at hdec'
  exact ⟨Option.some.inj hid', Except.ok.inj hdec'⟩

/-- What the client owes its caller on any response: it returns, and a solution it returns solves a
    challenge that was there in full — as a number, SHA-256(context ‖ nonce ‖ solution) has as many
    leading zero bits as the wire says. -/
structure ClientSafe (sha256 : Bytes → Bytes) (reply : Except WsClientError Json) : Prop where
  noPanic : solveChallenge sha256 reply ≠ .panic
  sound : ∀ id text, solveChallenge sha256 reply = .ok (id, text) →
    ∃ (wire : Bytes) (c : Challenge) (trailing solution : Bytes), Offers reply id wire ∧ c.Fits ∧
      wire = c.toWire ++ trailing ∧ text = b64Encode solution ∧ c.difficulty ≤ 256 ∧
      fromBeBytes (sha256 (c.context ++ c.nonce ++ solution)) < 2 ^ (256 - c.difficulty)

/-- The wires the client does not survive: incomplete ones, and those with a difficulty of 257 to 263
    for which some counter hashes to zeros. -/
def Breaks (sha256 : Bytes → Bytes) (wire : Bytes) : Prop :=
  ¬ Complete wire ∨
    (257 ≤ (wireChallenge wire).difficulty ∧ (wireChallenge wire).difficulty ≤ 263 ∧
      ∃ n ≤ maxIters, ∀ b ∈ sha256 ((wireChallenge wire).preimage ++ toLeBytes 8 n), b = 0)

theorem solveWire_panic_iff {sha256 : Bytes → Bytes} (hsha : ∀ m, (sha256 m).length = 32)
    {id : String} {wire : Bytes} : solveWire sha256 id wire = .panic ↔ Breaks sha256 wire := by
  rw [solveWire, Breaks]
  by_cases hcomplete : Complete wire
  · rw [parseChallenge_of_complete hcomplete, Outcome.ok_bind, ← clientSolveFrom_panic_iff hsha]
    have hnot : ¬ ¬ Complete wire := not_not.mpr hcomplete
    cases clientSolveFrom sha256 (wireChallenge wire).preimage (wireChallenge wire).difficulty 0 with
    | ok solution =>
      constructor
      · intro h
        cases h
      · rintro (h | h)
        · exact absurd h hnot
        · cases h
    | err e =>
      constructor
      · intro h
        cases h
      · rintro (h | h)
        · exact absurd h hnot
        · cases h
    | panic => exact ⟨fun _ => Or.inr rfl, fun _ => rfl⟩
  · rw [parseChallenge_of_incomplete hcomplete]
    exact ⟨fun _ => Or.inl hcomplete, fun _ => rfl⟩

theorem solveWire_ok {sha256 : Bytes → Bytes} (hsha : ∀ m, (sha256 m).length = 32)
    {id id' text : String} {wire : Bytes} (h : solveWire sha256 id wire = .ok (id', text)) :
    id' = id ∧ Complete wire ∧ (wireChallenge wire).difficulty ≤ 256 ∧
      ∃ n ≤ maxIters,
        meetsAt sha256 (wireChallenge wire).preimage (wireChallenge wire).difficulty n = true ∧
        text = b64Encode (toLeBytes 8 n) := by
  rw [solveWire] at h
  by_cases hcomplete : Complete wire
  · rw [parseChallenge_of_complete hcomplete, Outcome.ok_bind] at h
    cases hloop : clientSolveFrom sha256 (wireChallenge wire).preimage
      (wireChallenge wire).difficulty 0 with
    | ok solution =>
      rw [hloop, Outcome.ok_bind] at h
      have hpair := Prod.mk.inj (Outcome.ok.inj h)
      obtain ⟨hle, n, hn, hmeets, -, rfl⟩ := (clientSolveFrom_ok_iff hsha).mp hloop
      exact ⟨hpair.1.symm, hcomplete, hle, n, hn, hmeets, hpair.2.symm⟩
    | err e =>
      rw [hloop] at h
      cases h
    | panic =>
      rw [hloop] at h
      cases h
  · rw [parseChallenge_of_incomplete hcomplete] at h
    cases h

/-- **The client survives a response, and what it returns is a solution, exactly if the response does
    not offer a wire that breaks it.** -/
theorem solve_challenge_safe_iff (sha256 : Bytes → Bytes) (hsha : ∀ m, (sha256 m).length = 32)
    (reply : Except WsClientError Json) :
    ClientSafe sha256 reply ↔ ∀ id wire, Offers reply id wire → ¬ Breaks sha256 wire := by
  rcases solveChallenge_cases sha256 reply with ⟨id, wire, hoffer, heq⟩ | ⟨hnone, e, heq⟩
  · constructor
    · rintro ⟨hsafe, -⟩ id' wire' hoffer' hbreaks
      obtain ⟨rfl, rfl⟩ := hoffer.unique hoffer'
      exact hsafe (heq.trans ((solveWire_panic_iff hsha).mpr hbreaks))
    · intro h
      refine ⟨fun hpanic => h id wire hoffer ((solveWire_panic_iff hsha).mp (heq.symm.trans hpanic)), ?_⟩
      intro id' text hok
      obtain ⟨rfl, hcomplete, hle, n, -, hmeets, rfl⟩ := solveWire_ok hsha (heq.symm.trans hok)
      exact ⟨wire, wireChallenge wire, _, toLeBytes 8 n, hoffer, wireChallenge_fits hcomplete,
        wireChallenge_toWire hcomplete, rfl, hle, (meetsDifficulty_iff (hsha _) hle).mp hmeets⟩
  · constructor
    · exact fun _ id wire hoffer => absurd hoffer (hnone id wire)
    · intro _
      refine ⟨fun hpanic => ?_, fun id text hok => ?_⟩
      · rw [heq] at hpanic
        cases hpanic
      · rw [heq] at hok
        cases hok

/-- A hash for examples: the last 32 bytes. -/
def toySha (m : Bytes) : Bytes := toBeBytes 32 (fromBeBytes m)

/-- A response with a challenge in it. -/
def challengeReply (challenge challengeId : String) : Except WsClientError Json :=
  .ok (.object [("ok", .bool true), ("challenge", .string challenge),
    ("challenge_id", .string challengeId)])

theorem challengeReply_offers {challenge challengeId id : String} {wire : Bytes}
    (h : Offers (challengeReply challenge challengeId) id wire) : b64Decode challenge = .ok wire := by
  obtain ⟨resp, text, hresp, -, htext, -, hdec⟩ := h
  obtain rfl := Except.ok.inj hresp
  have : challenge = text := Option.some.inj htext
  rwa [this]

/-- The challenge of an honest relay is survived. -/
theorem solve_challenge_safe_honest :
    ClientSafe toySha
      (challengeReply (b64Encode (Challenge.toWire ⟨[1], List.replicate 16 0, 20⟩)) "id") := by
  rw [solve_challenge_safe_iff toySha (fun _ => length_toBeBytes 32 _)]
  intro id wire hoffer
  obtain rfl := Except.ok.inj ((b64Decode_b64Encode _).symm.trans (challengeReply_offers hoffer))
  rintro (hincomplete | ⟨hlo, -⟩)
  · exact hincomplete ⟨by decide, by decide⟩
  · exact absurd hlo (by decide)

/-- **An empty challenge makes the client panic**: it decodes to nothing, and the client reads its
    first byte. -/
theorem solve_challenge_panics_on_empty_wire :
    solveChallenge toySha (challengeReply "" "id") = .panic ∧
      ¬ ClientSafe toySha (challengeReply "" "id") := by
  have hpanic : solveChallenge toySha (challengeReply "" "id") = .panic := rfl
  exact ⟨hpanic, fun h => h.noPanic hpanic⟩

end E2EMessaging.Relay
