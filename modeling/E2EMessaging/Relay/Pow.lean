/-
  THE PROOF-OF-WORK GATE (`relay/src/pow/mod.rs`).

  A challenge binds a context, a random nonce and a difficulty `d`; a solution is any byte string
  for which SHA-256(context ‖ nonce ‖ solution) starts with `d` zero bits.  SHA-256 itself is a
  parameter.
-/
import E2EMessaging.Lib.Bytes

namespace E2EMessaging.Relay

open E2EMessaging.Lib

/-- `PowError`. -/
inductive PowError where
  | invalid (difficulty : Nat)
  | malformedChallenge (reason : String)
  deriving Repr, DecidableEq

/-- `Challenge`. -/
structure Challenge where
  context : Bytes
  nonce : Bytes
  difficulty : Nat
  deriving Repr, DecidableEq

/-- `Challenge::new` on the nonce the generator returns; its `assert!` holds for the one difficulty
    the relay uses. -/
def Challenge.new (context : Bytes) (difficulty : Nat) (nonce : Bytes) : Challenge :=
  ⟨context, nonce, difficulty⟩

/-- `Challenge::to_wire`. -/
def Challenge.toWire (c : Challenge) : Bytes :=
  toBeBytes 2 c.context.length ++ c.context ++ c.nonce ++ toBeBytes 4 c.difficulty

/-- `Challenge::preimage_prefix`. -/
def Challenge.preimage (c : Challenge) : Bytes := c.context ++ c.nonce

/-- `meets_difficulty`: whole zero bytes first, then the remaining bits of the next byte. -/
def meetsDifficulty (sha256 : Bytes → Bytes) (preimage suffix : Bytes) (difficulty : Nat) : Bool :=
  let digest := sha256 (preimage ++ suffix)
  let fullBytes := difficulty / 8
  if digest.length < fullBytes || (digest.take fullBytes).any (fun b => decide (b ≠ 0)) then false
  else
    let extraBits := difficulty % 8
    if extraBits = 0 then true
    else decide (digest.getD fullBytes 0 &&& (0xFF <<< UInt8.ofNat (8 - extraBits)) = 0)

/-- `pow::verify`. -/
def powVerify (sha256 : Bytes → Bytes) (c : Challenge) (solution : Bytes) : Except PowError Unit :=
  if ¬ (1 ≤ c.difficulty ∧ c.difficulty ≤ 256) then
    .error (.malformedChallenge "difficulty out of range")
  else if meetsDifficulty sha256 c.preimage solution c.difficulty then .ok ()
  else .error (.invalid c.difficulty)

/-- `verify` is the check, on a difficulty in range. -/
theorem powVerify_eq_ok_iff {sha256 : Bytes → Bytes} {c : Challenge} {solution : Bytes}
    (hd : 1 ≤ c.difficulty ∧ c.difficulty ≤ 256) :
    powVerify sha256 c solution = .ok () ↔
      meetsDifficulty sha256 c.preimage solution c.difficulty = true := by
  rw [powVerify, if_neg (not_not.mpr hd)]
  split
  · rename_i hmeets
    exact ⟨fun _ => hmeets, fun _ => rfl⟩
  · rename_i hmeets
    constructor
    · intro h
      cases h
    · exact fun h => absurd h hmeets

end E2EMessaging.Relay
