/-
  SOLVING A PROOF OF WORK (`pow::solve` of `relay/src/pow/mod.rs`), and what a solution is.

  The solver tries the counters 0, 1, 2, … as eight little-endian bytes and returns the FIRST that
  `meets_difficulty` accepts.  `meets_difficulty` looks at whole bytes and then at some bits of the
  next one; as a number (most significant byte first), a digest of 32 bytes has `d` leading zero bits
  exactly if it is below `2 ^ (256 - d)`.
-/
import E2EMessaging.Lib.Reader
import E2EMessaging.Lib.Search
import E2EMessaging.Relay.Pow

namespace E2EMessaging.Relay

open E2EMessaging.Lib

/-! ## Difficulty as a bound -/

theorem fromLeBytes_append (as bs : Bytes) :
    fromLeBytes (as ++ bs) = fromLeBytes as + 256 ^ as.length * fromLeBytes bs := by
  induction as with
  | nil => simp [fromLeBytes]
  | cons a as ih =>
    rw [List.cons_append, fromLeBytes, ih, fromLeBytes, List.length_cons, pow_succ]
    ring

theorem fromBeBytes_append (as bs : Bytes) :
    fromBeBytes (as ++ bs) = fromBeBytes as * 256 ^ bs.length + fromBeBytes bs := by
  rw [fromBeBytes, List.reverse_append, fromLeBytes_append, List.length_reverse, fromBeBytes,
    fromBeBytes]
  ring

theorem fromBeBytes_singleton (b : UInt8) : fromBeBytes [b] = b.toNat := by
  simp [fromBeBytes, fromLeBytes]

theorem fromLeBytes_eq_zero {bs : Bytes} : fromLeBytes bs = 0 ↔ ∀ b ∈ bs, b = 0 := by
  induction bs with
  | nil => simp [fromLeBytes]
  | cons b bs ih =>
    have hb : b.toNat = 0 ↔ b = 0 := by
      rw [← UInt8.toNat_inj]
      rfl
    rw [fromLeBytes, List.forall_mem_cons, ← ih, ← hb]
    omega

/-- Only zeros spell zero. -/
theorem fromBeBytes_eq_zero {bs : Bytes} : fromBeBytes bs = 0 ↔ ∀ b ∈ bs, b = 0 := by
  rw [fromBeBytes, fromLeBytes_eq_zero]
  simp

/-- A number in two digits is below a bound on its high digit exactly if the high digit is. -/
theorem add_lt_mul_iff {hi lo base bound : Nat} (hlo : lo < base) :
    hi * base + lo < bound * base ↔ hi < bound := by
  constructor
  · intro h
    by_contra hge
    have := Nat.mul_le_mul_right base (Nat.le_of_not_lt hge)
    omega
  · intro h
    have := Nat.mul_le_mul_right base (Nat.succ_le_of_lt h)
    rw [Nat.succ_mul] at this
    omega

theorem mask_eq_zero_iff_of_lt : ∀ e < 8, 0 < e → ∀ n < 256,
    (UInt8.ofNat n &&& (0xFF <<< UInt8.ofNat (8 - e)) = 0 ↔ n < 2 ^ (8 - e)) := by
  decide +kernel

/-- The mask test: the `e` high bits of the byte are zero. -/
theorem mask_eq_zero_iff {e : Nat} (hpos : 0 < e) (hlt : e < 8) (b : UInt8) :
    b &&& (0xFF <<< UInt8.ofNat (8 - e)) = 0 ↔ b.toNat < 2 ^ (8 - e) := by
  have := mask_eq_zero_iff_of_lt e hlt hpos b.toNat b.toNat_lt
  rwa [UInt8.ofNat_toNat] at this

/-- The whole bytes of the test. -/
theorem wholeBytes_iff {digest : Bytes} {k : Nat} (hk : k ≤ digest.length) :
    (decide (digest.length < k) || (digest.take k).any fun b => decide (b ≠ 0)) = true ↔
      fromBeBytes (digest.take k) ≠ 0 := by
  rw [ne_eq, fromBeBytes_eq_zero, decide_eq_false (Nat.not_lt.mpr hk), Bool.false_or,
    List.any_eq_true]
  simp

/-- **`meets_difficulty` as a bound**: `d` leading zero bits. -/
theorem meetsDifficulty_iff {sha256 : Bytes → Bytes} {preimage suffix : Bytes} {d : Nat}
    (hsha : (sha256 (preimage ++ suffix)).length = 32) (hd : d ≤ 256) :
    meetsDifficulty sha256 preimage suffix d = true ↔
      fromBeBytes (sha256 (preimage ++ suffix)) < 2 ^ (256 - d) := by
  rw [meetsDifficulty]
  generalize sha256 (preimage ++ suffix) = digest at hsha
  have hsplit : fromBeBytes digest = fromBeBytes (digest.take (d / 8)) * 256 ^ (32 - d / 8) +
      fromBeBytes (digest.drop (d / 8)) := by
    conv_lhs => rw [← List.take_append_drop (d / 8) digest]
    rw [fromBeBytes_append, List.length_drop, hsha]
  have hbound : d / 8 ≤ digest.length := by omega
  have hwhole := wholeBytes_iff hbound
  simp only [hwhole, hsplit]
  generalize fromBeBytes (digest.take (d / 8)) = hi
  by_cases he : d % 8 = 0
  · -- only whole bytes: the bound is a power of 256
    have hlow : fromBeBytes (digest.drop (d / 8)) < 256 ^ (32 - d / 8) := by
      have := fromBeBytes_lt (digest.drop (d / 8))
      rwa [List.length_drop, hsha] at this
    have hpow : 2 ^ (256 - d) = 1 * 256 ^ (32 - d / 8) := by
      rw [Nat.one_mul, show (256 : Nat) = 2 ^ 8 from rfl, ← pow_mul]
      congr 1
      omega
    rw [hpow, add_lt_mul_iff hlow, if_pos he]
    split
    · simp only [Bool.false_eq_true, false_iff]
      omega
    · simp only [true_iff]
      omega
  · -- the next byte counts, up to `8 - e` of its bits
    have hk : d / 8 < digest.length := by omega
    have hdrop : digest.drop (d / 8) = [digest.getD (d / 8) 0] ++ digest.drop (d / 8 + 1) := by
      rw [List.drop_eq_getElem_cons hk, List.getD_eq_getElem?_getD, List.getElem?_eq_getElem hk]
      rfl
    have hlow : fromBeBytes (digest.drop (d / 8 + 1)) < 256 ^ (31 - d / 8) := by
      have := fromBeBytes_lt (digest.drop (d / 8 + 1))
      rwa [List.length_drop, hsha, show 32 - (d / 8 + 1) = 31 - d / 8 by omega] at this
    have hpow : 2 ^ (256 - d) = 2 ^ (8 - d % 8) * 256 ^ (31 - d / 8) := by
      rw [show (256 : Nat) = 2 ^ 8 from rfl, ← pow_mul, ← pow_add]
      congr 1
      omega
    have hbase : 256 ^ (32 - d / 8) = 256 * 256 ^ (31 - d / 8) := by
      rw [show 32 - d / 8 = (31 - d / 8) + 1 by omega, pow_succ, Nat.mul_comm]
    have hsmall : 2 ^ (8 - d % 8) ≤ 2 ^ 7 := Nat.pow_le_pow_right (by decide) (by omega)
    rw [hdrop, fromBeBytes_append, fromBeBytes_singleton, List.length_drop, hsha,
      show 32 - (d / 8 + 1) = 31 - d / 8 by omega, hpow, hbase, ← Nat.mul_assoc, ← Nat.add_assoc,
      ← Nat.add_mul, add_lt_mul_iff hlow, if_neg he]
    have hmask := mask_eq_zero_iff (Nat.pos_of_ne_zero he) (Nat.mod_lt d (by decide))
      (digest.getD (d / 8) 0)
    split
    · simp only [Bool.false_eq_true, false_iff]
      omega
    · rw [decide_eq_true_iff, hmask]
      omega

/-! ## The solver -/

/-- `max_iters`. -/
def maxIters : Nat := 2 ^ 32

/-- The loop of `pow::solve` at a counter. -/
def powSolveFrom (sha256 : Bytes → Bytes) (preimage : Bytes) (difficulty counter : Nat) :
    Outcome PowError Bytes :=
  let suffix := toLeBytes 8 counter
  if meetsDifficulty sha256 preimage suffix difficulty then .ok suffix
  -- `checked_add`
  else if 2 ^ 64 ≤ counter + 1 then .err (.malformedChallenge "counter overflow")
  else if maxIters < counter + 1 then
    .err (.malformedChallenge "difficulty too high for in-process solver")
  else powSolveFrom sha256 preimage difficulty (counter + 1)
termination_by maxIters - counter

/-- `pow::solve`. -/
def powSolve (sha256 : Bytes → Bytes) (c : Challenge) : Outcome PowError Bytes :=
  if ¬ (1 ≤ c.difficulty ∧ c.difficulty ≤ 256) then
    .err (.malformedChallenge "difficulty out of range")
  else powSolveFrom sha256 c.preimage c.difficulty 0

/-- `meets_difficulty` on a counter. -/
def meetsAt (sha256 : Bytes → Bytes) (preimage : Bytes) (difficulty counter : Nat) : Bool :=
  meetsDifficulty sha256 preimage (toLeBytes 8 counter) difficulty

theorem powSolveFrom_searches (sha256 : Bytes → Bytes) (preimage : Bytes) (difficulty : Nat) :
    Searches (fun n => .ok (meetsAt sha256 preimage difficulty n))
      (.malformedChallenge "difficulty too high for in-process solver") (toLeBytes 8) maxIters
      (powSolveFrom sha256 preimage difficulty) := by
  intro c hc
  have hoverflow : ¬ 2 ^ 64 ≤ c + 1 := by
    have : maxIters = 4294967296 := rfl
    omega
  rw [powSolveFrom]
  simp only [if_neg hoverflow]
  rfl

/-- **What `pow::solve` returns**: the first counter that meets the difficulty. -/
theorem powSolve_ok_iff {sha256 : Bytes → Bytes} {c : Challenge}
    (hd : 1 ≤ c.difficulty ∧ c.difficulty ≤ 256) {solution : Bytes} :
    powSolve sha256 c = .ok solution ↔
      ∃ n ≤ maxIters, meetsAt sha256 c.preimage c.difficulty n = true ∧
        (∀ m < n, meetsAt sha256 c.preimage c.difficulty m = false) ∧ solution = toLeBytes 8 n := by
  rw [powSolve, if_neg (not_not.mpr hd)]
  exact (powSolveFrom_searches sha256 c.preimage c.difficulty).ok_iff_first fun n _ => rfl

theorem powVerify_of_meetsAt {sha256 : Bytes → Bytes} {c : Challenge}
    (hd : 1 ≤ c.difficulty ∧ c.difficulty ≤ 256) {n : Nat}
    (hn : meetsAt sha256 c.preimage c.difficulty n = true) :
    powVerify sha256 c (toLeBytes 8 n) = .ok () :=
  (powVerify_eq_ok_iff hd).mpr hn

end E2EMessaging.Relay
