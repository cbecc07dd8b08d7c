/-
  ONE DIFFICULTY, two implementations: `pow::meets_difficulty` on the relay's side, and
  `ws::check_pow_difficulty` on the client's, which says it mirrors the first.

  Both hash, look at `difficulty / 8` whole bytes and then at some bits of the byte behind them — a byte
  that is there only if the difficulty allows it.  Here the two are taken with their slices and indices
  (`meetsDifficultyIndexed`, `checkPowDifficulty`), and compared with the number the module's
  documentation speaks of: SHA-256(preimage ‖ suffix) < 2^(256 - d), big endian.
-/
import E2EMessaging.Relay.Client

namespace E2EMessaging.Relay

open E2EMessaging.Lib

/-- `pow::meets_difficulty`, its slice and its index included. -/
def meetsDifficultyIndexed (sha256 : Bytes → Bytes) (preimage suffix : Bytes) (difficulty : Nat) :
    Outcome PowError Bool :=
  let digest := sha256 (preimage ++ suffix)
  let fullBytes := difficulty / 8
  if digest.length < fullBytes then .ok false
  else do
    let whole ← slice digest 0 fullBytes
    if whole.any (fun b => decide (b ≠ 0)) then .ok false
    else
      let extraBits := difficulty % 8
      if extraBits = 0 then .ok true
      else do
        let b ← byteAt digest fullBytes
        .ok (decide (b &&& (0xFF <<< UInt8.ofNat (8 - extraBits)) = 0))

section Digest

variable {sha256 : Bytes → Bytes} (hsha : ∀ m, (sha256 m).length = 32)
include hsha

/-- Up to 256 bits every index is in bounds. -/
theorem meetsDifficultyIndexed_of_le {preimage suffix : Bytes} {d : Nat} (hd : d ≤ 256) :
    meetsDifficultyIndexed sha256 preimage suffix d =
      .ok (meetsDifficulty sha256 preimage suffix d) := by
  have hlen := hsha (preimage ++ suffix)
  rw [meetsDifficultyIndexed, meetsDifficulty]
  dsimp only
  generalize sha256 (preimage ++ suffix) = digest at hlen
  have hshort : ¬ digest.length < d / 8 := by omega
  have hslice : (slice digest 0 (d / 8) : Outcome PowError Bytes) = .ok (digest.take (d / 8)) := by
    rw [slice_in_range (Nat.zero_le _) (Nat.le_of_not_lt hshort)]
    rfl
  rw [if_neg hshort, hslice, Outcome.ok_bind, decide_eq_false hshort, Bool.false_or]
  split
  · rfl
  · by_cases he : d % 8 = 0
    · rw [if_pos he, if_pos he]
    · -- 256 is a multiple of 8, so a byte is left
      have hk : d / 8 < digest.length := by omega
      rw [if_neg he, if_neg he, byteAt, List.getElem?_eq_getElem hk, List.getD_eq_getElem?_getD,
        List.getElem?_eq_getElem hk]
      rfl

/-- Fewer bits are easier. -/
theorem meetsDifficulty_mono {preimage suffix : Bytes} {d d' : Nat} (hd : d ≤ 256) (hle : d' ≤ d)
    (h : meetsDifficulty sha256 preimage suffix d = true) :
    meetsDifficulty sha256 preimage suffix d' = true := by
  rw [meetsDifficulty_iff (hsha _) hd] at h
  rw [meetsDifficulty_iff (hsha _) (Nat.le_trans hle hd)]
  exact Nat.lt_of_lt_of_le h (Nat.pow_le_pow_right (by decide) (Nat.sub_le_sub_left hle 256))

end Digest

/-- **Both checks are the inequality**: for every difficulty from 1 to 256 neither indexes out of
    bounds, and both accept exactly the suffixes whose digest, as a number, is below `2 ^ (256 - d)`; a
    solution of a challenge is a solution of every easier one. -/
theorem difficulty_is_numeric (sha256 : Bytes → Bytes) (hsha : ∀ m, (sha256 m).length = 32)
    (preimage suffix : Bytes) (d : Nat) (hd : 1 ≤ d ∧ d ≤ 256) :
    (∃ hit, meetsDifficultyIndexed sha256 preimage suffix d = .ok hit ∧
      checkPowDifficulty sha256 preimage suffix d = .ok hit ∧
      meetsDifficulty sha256 preimage suffix d = hit ∧
      (hit = true ↔ fromBeBytes (sha256 (preimage ++ suffix)) < 2 ^ (256 - d))) ∧
    ∀ context nonce, preimage = context ++ nonce →
      (powVerify sha256 ⟨context, nonce, d⟩ suffix = .ok () ↔
        fromBeBytes (sha256 (preimage ++ suffix)) < 2 ^ (256 - d)) ∧
      (powVerify sha256 ⟨context, nonce, d⟩ suffix = .ok () →
        ∀ d', 1 ≤ d' → d' ≤ d → powVerify sha256 ⟨context, nonce, d'⟩ suffix = .ok ()) := by
  have hiff : meetsDifficulty sha256 preimage suffix d = true ↔
      fromBeBytes (sha256 (preimage ++ suffix)) < 2 ^ (256 - d) := meetsDifficulty_iff (hsha _) hd.2
  refine ⟨⟨_, meetsDifficultyIndexed_of_le hsha hd.2, checkPowDifficulty_of_le hsha hd.2, rfl, hiff⟩, ?_⟩
  rintro context nonce rfl
  refine ⟨(powVerify_eq_ok_iff hd).trans hiff, fun hok d' hpos hle => ?_⟩
  have hd' : 1 ≤ d' ∧ d' ≤ 256 := ⟨hpos, Nat.le_trans hle hd.2⟩
  exact (powVerify_eq_ok_iff hd').mpr
    (meetsDifficulty_mono hsha hd.2 hle ((powVerify_eq_ok_iff hd).mp hok))

/-- The hardest difficulty: all 32 bytes are looked at, and none behind them. -/
theorem difficulty_is_numeric_at_256 :
    meetsDifficultyIndexed toySha [] [0, 0] 256 = .ok true ∧
      powVerify toySha ⟨[], [], 7⟩ [0, 0] = .ok () := by
  obtain ⟨⟨hit, hidx, -, -, hhit⟩, hsolves⟩ := difficulty_is_numeric toySha
    (fun _ => length_toBeBytes 32 _) [] [0, 0] 256 ⟨by decide, by decide⟩
  have hzero : fromBeBytes (toySha ([] ++ [0, 0])) < 2 ^ (256 - 256) := by decide
  refine ⟨by rw [hidx, hhit.mpr hzero], ?_⟩
  obtain ⟨hok, heasier⟩ := hsolves [] [] rfl
  exact heasier (hok.mpr hzero) 7 (by decide) (by decide)

end E2EMessaging.Relay
