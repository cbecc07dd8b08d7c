/-
  BASE64 AND PROOF OF WORK IN THE WEB CLIENT (`clients/web/src/relay_transport.ts`), a third
  implementation beside `pow::solve` and the Rust relay client.

  Numbers are JavaScript numbers: integers up to `2^53` are exact, and counters stay below `2^32 + 2`.
  `&` takes the low 32 bits of its operands, and of `undefined` it takes 0.  Base64 is the platform's:
  `btoa` and the forgiving `atob`, on binary strings (one code unit a byte).

  All three solvers test the counters 0, 1, 2, … in order with the same test, so they return the same
  solution or none (`returns_iff`), and the relay accepts it.
-/
import E2EMessaging.Relay.Client

namespace E2EMessaging.Web.RelayTransport

open E2EMessaging.Lib E2EMessaging.Relay

/-! ## Base64 -/

/-- `btoa`: a code unit above 255 is an error. -/
def btoa (bin : List UInt16) : Except String String :=
  if bin.all fun u => decide (u.toNat < 256) then
    .ok (String.ofList (Base64.encode (bin.map UInt16.toUInt8)))
  else .error "InvalidCharacterError"

/-- ASCII whitespace. -/
def isAsciiWhitespace (c : Char) : Bool :=
  decide (c = '\t' ∨ c = '\n' ∨ c = Char.ofNat 12 ∨ c = '\r' ∨ c = ' ')

/-- One or two `=` at the end go. -/
def dropPadding (data : List Char) : List Char :=
  if data.length % 4 = 0 then
    if data.getLast? = some '=' then
      if data.dropLast.getLast? = some '=' then data.dropLast.dropLast else data.dropLast
    else data
  else data

/-- `atob`, which is the forgiving base64 decoder. -/
def atob (s : String) : Except String (List UInt16) :=
  let data := dropPadding (s.toList.filter fun c => !isAsciiWhitespace c)
  if data.length % 4 = 1 || data.any fun c => (Base64.value c).isNone then
    .error "InvalidCharacterError"
  else .ok ((Base64.valueOf data).map UInt8.toUInt16)

/-- `bytesToBase64`. -/
def bytesToBase64 (bytes : Bytes) : Except String String := btoa (bytes.map UInt8.toUInt16)

/-- `base64ToBytes`. -/
def base64ToBytes (b64 : String) : Except String Bytes :=
  (atob b64).map fun bin => bin.map UInt16.toUInt8

theorem map_toUInt16_toUInt8 (bytes : Bytes) :
    (bytes.map UInt8.toUInt16).map UInt16.toUInt8 = bytes := by
  have hid : UInt16.toUInt8 ∘ UInt8.toUInt16 = id := funext UInt8.toUInt8_toUInt16
  rw [List.map_map, hid, List.map_id]

/-- **`btoa` writes what `b64_encode` writes.** -/
theorem bytesToBase64_eq (bytes : Bytes) : bytesToBase64 bytes = .ok (b64Encode bytes) := by
  have hall : ((bytes.map UInt8.toUInt16).all fun u => decide (u.toNat < 256)) = true := by
    rw [List.all_eq_true]
    intro u hu
    obtain ⟨b, -, rfl⟩ := List.mem_map.mp hu
    rw [decide_eq_true_iff, UInt8.toNat_toUInt16]
    exact b.toNat_lt
  rw [bytesToBase64, btoa, if_pos hall, map_toUInt16_toUInt8, b64Encode_eq]

/-- Removing the padding of a padded text leaves its alphabet characters. -/
theorem dropPadding_padded {u : List Char} {k : Nat}
    (hu : ∀ c ∈ u, (Base64.value c).isSome = true) (hk : k ≤ 2)
    (hlen : (u ++ List.replicate k '=').length % 4 = 0) :
    dropPadding (u ++ List.replicate k '=') = u := by
  have hlast : u.getLast? ≠ some '=' := by
    intro h
    have := hu '=' (List.mem_of_getLast? h)
    rw [Base64.value_pad] at this
    cases this
  rw [dropPadding, if_pos hlen]
  rcases k with _ | _ | _ | k
  · rw [List.replicate_zero, List.append_nil, if_neg hlast]
  · have h1 : (u ++ List.replicate 1 '=').getLast? = some '=' := by simp
    have h2 : (u ++ List.replicate 1 '=').dropLast = u := by simp
    rw [if_pos h1, h2, if_neg hlast]
  · have hsplit : u ++ List.replicate 2 '=' = (u ++ ['=']) ++ ['='] := by simp
    rw [hsplit, if_pos List.getLast?_concat, List.dropLast_concat, if_pos List.getLast?_concat,
      List.dropLast_concat]
  · omega

/-- **`atob` reads every padded text as its value.** -/
theorem base64ToBytes_of_padded {t : List Char} (h : Base64.Padded t) :
    base64ToBytes (String.ofList t) = .ok (Base64.valueOf t) := by
  obtain ⟨u, k, rfl, hu, hk, hlen⟩ := h
  have hspace : ∀ c, IsCode c → (!isAsciiWhitespace c) = true := by
    intro c hc
    rw [isAsciiWhitespace, Bool.not_eq_true', decide_eq_false_iff_not]
    rintro (rfl | rfl | rfl | rfl | rfl) <;> rcases hc with hc | hc <;> revert hc <;> decide
  have hkeep : ((u ++ List.replicate k '=').filter fun c => !isAsciiWhitespace c) =
      u ++ List.replicate k '=' := by
    rw [List.filter_eq_self]
    intro c hc
    rcases List.mem_append.mp hc with hc | hc
    · exact hspace c (isCode_of_value hu c hc)
    · exact hspace c (Or.inl (List.eq_of_mem_replicate hc))
  have hany : (u.any fun c => (Base64.value c).isNone) = false := by
    rw [List.any_eq_false]
    intro c hc
    have := hu c hc
    cases hv : Base64.value c with
    | none =>
      rw [hv] at this
      cases this
    | some v => exact fun h => by cases h
  have hmod : ¬ u.length % 4 = 1 := by
    rw [List.length_append, List.length_replicate] at hlen
    omega
  rw [base64ToBytes, atob, String.toList_ofList, hkeep, dropPadding_padded hu hk hlen,
    if_neg (by simp [hmod, hany]), Except.map, map_toUInt16_toUInt8, Base64.valueOf_append_replicate]
  rfl

theorem base64ToBytes_b64Encode (bytes : Bytes) : base64ToBytes (b64Encode bytes) = .ok bytes := by
  rw [b64Encode_eq, base64ToBytes_of_padded (Base64.padded_encode bytes), Base64.valueOf_encode]

/-! ## The challenge -/

/-- `ParsedChallenge`. -/
structure ParsedChallenge where
  context : Bytes
  nonce : Bytes
  difficulty : Nat
  deriving Repr, DecidableEq

/-- `parseChallengeWire`.  The two checks keep the reads of the `DataView` in range. -/
def parseChallengeWire (wire : Bytes) : Except String ParsedChallenge :=
  if wire.length < 2 + 16 + 4 then .error "challenge wire too short"
  else
    let contextLen := fromBeBytes (wire.take 2)
    let nonceStart := 2 + contextLen
    let difficultyStart := nonceStart + 16
    if wire.length < difficultyStart + 4 then .error "challenge wire truncated"
    else .ok
      { context := (wire.drop 2).take contextLen
        nonce := (wire.drop nonceStart).take 16
        difficulty := fromBeBytes ((wire.drop difficultyStart).take 4) }

/-- Where the Rust client reads a challenge, `parseChallengeWire` reads the same; where that panics,
    this throws. -/
theorem parseChallengeWire_of_complete {wire : Bytes} (h : Complete wire) :
    parseChallengeWire wire = .ok ⟨(wireChallenge wire).context, (wireChallenge wire).nonce,
      (wireChallenge wire).difficulty⟩ := by
  have hlen : 22 + fromBeBytes (wire.take 2) ≤ wire.length := h.2
  rw [parseChallengeWire, if_neg (by omega)]
  simp only
  rw [if_neg (by omega), show 2 + fromBeBytes (wire.take 2) + 16 = 18 + fromBeBytes (wire.take 2) by
    omega]
  rfl

/-- A wire written by `to_wire` is complete. -/
theorem complete_toWire {c : Challenge} (hc : c.Fits) : Complete c.toWire := by
  have hlen : c.toWire.length = 22 + c.context.length := by
    simp only [Challenge.toWire, List.length_append, length_toBeBytes, hc.nonce]
    omega
  have hfield : wireContextLen c.toWire = c.context.length := by
    rw [wireContextLen, Challenge.toWire, List.append_assoc, List.append_assoc,
      List.take_append_of_le_length (by rw [length_toBeBytes]),
      List.take_of_length_le (by rw [length_toBeBytes])]
    exact fromBeBytes_toBeBytes_of_lt hc.context
  exact ⟨by omega, by omega⟩

/-- **Both clients read back what the relay wrote.** -/
theorem parseChallengeWire_toWire {c : Challenge} (hc : c.Fits) :
    parseChallengeWire c.toWire = .ok ⟨c.context, c.nonce, c.difficulty⟩ := by
  have hrust : parseChallenge c.toWire = .ok c := by
    have := parseChallenge_toWire hc []
    rwa [List.append_nil] at this
  have hsame : wireChallenge c.toWire = c :=
    Outcome.ok.inj ((parseChallenge_of_complete (complete_toWire hc)).symm.trans hrust)
  rw [parseChallengeWire_of_complete (complete_toWire hc), hsame]

/-! ## The solver -/

/-- The loop of `u64ToLeBytes`: `n` more bytes of `v`. -/
def u64ToLeBytesFrom : Nat → Nat → Bytes
  | 0, _ => []
  -- `v & 0xff` on the low 32 bits, and `Math.floor(v / 256)`
  | n + 1, v => UInt8.ofNat (v % 2 ^ 32 &&& 0xff) :: u64ToLeBytesFrom n (v / 256)

/-- `u64ToLeBytes`. -/
def u64ToLeBytes (value : Nat) : Bytes := u64ToLeBytesFrom 8 value

/-- **The bytes of the counter are those of `to_le_bytes`.** -/
theorem u64ToLeBytes_eq (value : Nat) : u64ToLeBytes value = toLeBytes 8 value := by
  have hloop : ∀ n v, u64ToLeBytesFrom n v = toLeBytes n v := by
    intro n
    induction n with
    | zero => exact fun _ => rfl
    | succ n ih =>
      intro v
      have hmask : v % 2 ^ 32 &&& 0xff = v % 256 := by
        rw [show (0xff : Nat) = 2 ^ 8 - 1 from rfl, Nat.and_two_pow_sub_one_eq_mod]
        omega
      rw [u64ToLeBytesFrom, toLeBytes, ih, hmask, ofNat_congr (Nat.mod_mod v 256)]
  exact hloop 8 value

/-- `meetsDifficulty`.  The mask is not cut to eight bits, and a byte past the end is `undefined`. -/
def meetsDifficulty (sha256 : Bytes → Bytes) (preimage suffix : Bytes) (difficulty : Nat) : Bool :=
  let digest := sha256 (preimage ++ suffix)
  let fullBytes := difficulty / 8
  if digest.length < fullBytes then false
  else if (digest.take fullBytes).any fun b => decide (b ≠ 0) then false
  else
    let extraBits := difficulty % 8
    if extraBits = 0 then true
    else
      let mask := 0xff <<< (8 - extraBits)
      decide (((digest[fullBytes]?).map UInt8.toNat).getD 0 &&& mask = 0)

theorem jsMask_eq_zero_iff_of_lt : ∀ e < 8, 0 < e → ∀ n < 256,
    (n &&& (0xff <<< (8 - e)) = 0 ↔ n < 2 ^ (8 - e)) := by
  decide +kernel

/-- **The two tests agree**: the bits the mask has beyond the eighth meet no bits of a byte. -/
theorem meetsDifficulty_eq (sha256 : Bytes → Bytes) (preimage suffix : Bytes) (d : Nat) :
    meetsDifficulty sha256 preimage suffix d = Relay.meetsDifficulty sha256 preimage suffix d := by
  rw [meetsDifficulty, Relay.meetsDifficulty]
  generalize sha256 (preimage ++ suffix) = digest
  simp only
  by_cases hlen : digest.length < d / 8
  · rw [if_pos hlen, if_pos (by simp [hlen])]
  by_cases hany : ((digest.take (d / 8)).any fun b => decide (b ≠ 0)) = true
  · rw [if_neg hlen, if_pos hany, if_pos (by simp only [hany, Bool.or_true])]
  have hwhole : ¬ (decide (digest.length < d / 8) ||
      (digest.take (d / 8)).any fun b => decide (b ≠ 0)) = true := by
    rw [Bool.or_eq_true, decide_eq_true_iff]
    exact fun h => h.elim hlen hany
  rw [if_neg hlen, if_neg hany, if_neg hwhole]
  by_cases he : d % 8 = 0
  · rw [if_pos he, if_pos he]
  rw [if_neg he, if_neg he]
  have hbyte : ((digest[d / 8]?).map UInt8.toNat).getD 0 = (digest.getD (d / 8) 0).toNat := by
    rw [List.getD_eq_getElem?_getD]
    cases digest[d / 8]? with
    | none => rfl
    | some b => rfl
  have hjs := jsMask_eq_zero_iff_of_lt (d % 8) (Nat.mod_lt d (by decide)) (Nat.pos_of_ne_zero he)
    (digest.getD (d / 8) 0).toNat (digest.getD (d / 8) 0).toNat_lt
  have hrust := mask_eq_zero_iff (Nat.pos_of_ne_zero he) (Nat.mod_lt d (by decide))
    (digest.getD (d / 8) 0)
  rw [hbyte]
  exact decide_eq_decide.mpr (hjs.trans hrust.symm)

/-- The loop of `solvePow` at a counter. -/
def solvePowFrom (sha256 : Bytes → Bytes) (preimage : Bytes) (difficulty counter : Nat) :
    Outcome String Bytes :=
  let suffix := u64ToLeBytes counter
  if meetsDifficulty sha256 preimage suffix difficulty then .ok suffix
  else if maxIters < counter + 1 then
    .err "PoW: exceeded iteration limit (difficulty too high)"
  else solvePowFrom sha256 preimage difficulty (counter + 1)
termination_by maxIters - counter

/-- `solvePow`; an exception is an error. -/
def solvePow (sha256 : Bytes → Bytes) (challenge : ParsedChallenge) : Outcome String Bytes :=
  if 32 < challenge.difficulty then
    .err ("PoW difficulty " ++ toString challenge.difficulty ++ " exceeds sane maximum of 32")
  else solvePowFrom sha256 (challenge.context ++ challenge.nonce) challenge.difficulty 0

theorem solvePowFrom_searches (sha256 : Bytes → Bytes) (preimage : Bytes) (difficulty : Nat) :
    Searches (fun n => .ok (meetsAt sha256 preimage difficulty n))
      "PoW: exceeded iteration limit (difficulty too high)" (toLeBytes 8) maxIters
      (solvePowFrom sha256 preimage difficulty) := by
  intro c _
  rw [solvePowFrom]
  simp only [u64ToLeBytes_eq, meetsDifficulty_eq]
  rfl

/-! ## Agreement -/

/-- The three solvers. -/
inductive Solver where
  | powSolve
  | wsRelayClient
  | solvePow
  deriving Repr, DecidableEq

/-- A solver returns a solution for a challenge; the clients, for the wire they receive. -/
def Solver.Returns (sha256 : Bytes → Bytes) (c : Challenge) (solution : Bytes) : Solver → Prop
  | .powSolve => Relay.powSolve sha256 c = .ok solution
  | .wsRelayClient => ∃ p, parseChallenge c.toWire = .ok p ∧
      clientSolveFrom sha256 p.preimage p.difficulty 0 = .ok solution
  | .solvePow => ∃ p, parseChallengeWire c.toWire = .ok p ∧
      RelayTransport.solvePow sha256 p = .ok solution

/-- **What each solver returns**: the first counter that meets the difficulty; `solvePow` only up to 32
    bits. -/
theorem returns_iff {sha256 : Bytes → Bytes} (hsha : ∀ m, (sha256 m).length = 32) {c : Challenge}
    (hc : c.Fits) (hd : 1 ≤ c.difficulty ∧ c.difficulty ≤ 256) (solver : Solver) (solution : Bytes) :
    solver.Returns sha256 c solution ↔
      (solver = .solvePow → c.difficulty ≤ 32) ∧
      ∃ n ≤ maxIters, meetsAt sha256 c.preimage c.difficulty n = true ∧
        (∀ m < n, meetsAt sha256 c.preimage c.difficulty m = false) ∧ solution = toLeBytes 8 n := by
  cases solver with
  | powSolve =>
    rw [Solver.Returns, powSolve_ok_iff hd]
    simp
  | wsRelayClient =>
    have hparse : parseChallenge c.toWire = .ok c := by
      have := parseChallenge_toWire hc []
      rwa [List.append_nil] at this
    rw [Solver.Returns, hparse]
    simp only [Outcome.ok.injEq, exists_eq_left', clientSolveFrom_ok_iff hsha, hd.2, true_and]
    simp
  | solvePow =>
    rw [Solver.Returns, parseChallengeWire_toWire hc]
    simp only [Except.ok.injEq, exists_eq_left', RelayTransport.solvePow]
    by_cases h32 : 32 < c.difficulty
    · rw [if_pos h32]
      constructor
      · intro h
        cases h
      · rintro ⟨h, -⟩
        have := h trivial
        omega
    · rw [if_neg h32]
      have hs := solvePowFrom_searches sha256 (c.context ++ c.nonce) c.difficulty
      rw [hs.ok_iff_first fun n _ => rfl]
      constructor
      · exact fun h => ⟨fun _ => by omega, h⟩
      · exact fun h => h.2

/-- **Proof-of-work agreement.**  Both clients read the challenge from its wire; whatever a solver
    returns is accepted by `pow::verify`, as it is and after either base64 encoder and the relay's
    decoder; and all solvers that return, return the same. -/
theorem pow_agreement (sha256 : Bytes → Bytes) (hsha : ∀ m, (sha256 m).length = 32) (c : Challenge)
    (hcontext : c.context.length < 2 ^ 16) (hnonce : c.nonce.length = 16)
    (hd : 1 ≤ c.difficulty ∧ c.difficulty ≤ 256) :
    parseChallenge c.toWire = .ok c ∧
    parseChallengeWire c.toWire = .ok ⟨c.context, c.nonce, c.difficulty⟩ ∧
    (∀ (solver : Solver) (solution : Bytes), solver.Returns sha256 c solution →
      powVerify sha256 c solution = .ok () ∧
      (∃ bytes, b64Decode (b64Encode solution) = .ok bytes ∧ powVerify sha256 c bytes = .ok ()) ∧
      (∃ text bytes, bytesToBase64 solution = .ok text ∧ b64Decode text = .ok bytes ∧
        powVerify sha256 c bytes = .ok ()) ∧
      (solver = .solvePow → c.difficulty ≤ 32)) ∧
    (∀ (solver solver' : Solver) (solution solution' : Bytes), solver.Returns sha256 c solution →
      solver'.Returns sha256 c solution' → solution = solution') := by
  have hc : c.Fits := ⟨hcontext, hnonce, lt_of_le_of_lt hd.2 (by decide)⟩
  refine ⟨?_, parseChallengeWire_toWire hc, ?_, ?_⟩
  · have := parseChallenge_toWire hc []
    rwa [List.append_nil] at this
  · intro solver solution hreturns
    obtain ⟨h32, n, -, hmeets, -, rfl⟩ := (returns_iff hsha hc hd solver solution).mp hreturns
    have hverify := powVerify_of_meetsAt hd hmeets
    exact ⟨hverify, ⟨_, b64Decode_b64Encode _, hverify⟩,
      ⟨_, _, bytesToBase64_eq _, b64Decode_b64Encode _, hverify⟩, h32⟩
  · intro solver solver' solution solution' h h'
    obtain ⟨-, n, -, hn, hbelow, rfl⟩ := (returns_iff hsha hc hd solver solution).mp h
    obtain ⟨-, n', -, hn', hbelow', rfl⟩ := (returns_iff hsha hc hd solver' solution').mp h'
    -- neither first counter is below the other
    have heq : n = n' := by
      rcases Nat.lt_trichotomy n n' with hlt | heq | hgt
      · rw [hbelow' n hlt] at hn
        cases hn
      · exact heq
      · rw [hbelow n' hgt] at hn'
        cases hn'
    rw [heq]

/-- A challenge of the relay's difficulty, solved by counter 0: all three solvers return, and what they
    return is accepted. -/
theorem pow_agreement_toy :
    (∀ solver : Solver, solver.Returns toySha ⟨[1], List.replicate 16 0, 20⟩ (toLeBytes 8 0)) ∧
      powVerify toySha ⟨[1], List.replicate 16 0, 20⟩ (toLeBytes 8 0) = .ok () := by
  have hsha : ∀ m, (toySha m).length = 32 := fun _ => length_toBeBytes 32 _
  have hreturns : ∀ solver : Solver,
      solver.Returns toySha ⟨[1], List.replicate 16 0, 20⟩ (toLeBytes 8 0) := by
    intro solver
    rw [returns_iff hsha ⟨by decide, by decide, by decide⟩ (by decide)]
    refine ⟨fun _ => by decide, 0, Nat.zero_le _, by decide +kernel, ?_, rfl⟩
    intro m hm
    exact absurd hm (Nat.not_lt_zero m)
  have hagree := pow_agreement toySha hsha ⟨[1], List.replicate 16 0, 20⟩ (by decide) (by decide)
    (by decide)
  exact ⟨hreturns, (hagree.2.2.1 .powSolve _ (hreturns .powSolve)).1⟩

end E2EMessaging.Web.RelayTransport
