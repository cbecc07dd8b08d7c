/-
  THE PER-IDENTITY RATE LIMITER (`relay/src/ratelimit/mod.rs`).

  Each identity has a bucket of tokens for the current window; the window starts with its first
  request and is replaced by a fresh one, anchored at the request that finds it elapsed.
-/
import Mathlib.Logic.Function.Basic
import E2EMessaging.Lib.Bytes

namespace E2EMessaging.Relay

open E2EMessaging.Lib

/-- `RateLimitError::Exceeded`. -/
structure RateLimitExceeded where
  identity : Bytes
  needed : Nat
  available : Nat
  retryAfter : Nat
  deriving Repr, DecidableEq

/-- `Bucket`. -/
structure Bucket where
  tokens : Nat
  windowStartSecs : Nat
  deriving Repr, DecidableEq

/-- `RateLimiter`; the window in whole seconds. -/
structure RateLimiter where
  capacity : Nat
  window : Nat
  buckets : Bytes → Option Bucket

/-- `RateLimiter::per_identity_in`. -/
def RateLimiter.perIdentityIn (capacity window : Nat) : RateLimiter :=
  ⟨max capacity 1, window, fun _ => none⟩

/-- `RateLimiter::per_identity`. -/
def RateLimiter.perIdentity (perMinute : Nat) : RateLimiter := .perIdentityIn perMinute 60

/-- The bucket `check` works on: the identity's own, or a full one; replaced by a full one if its
    window has elapsed.  `saturating_sub` is subtraction on naturals. -/
def RateLimiter.bucket (rl : RateLimiter) (identity : Bytes) (nowSecs : Nat) : Bucket :=
  let windowSecs := max rl.window 1
  let bucket := (rl.buckets identity).getD ⟨rl.capacity, nowSecs⟩
  if windowSecs ≤ nowSecs - bucket.windowStartSecs then ⟨rl.capacity, nowSecs⟩ else bucket

/-- `RateLimiter::check`. -/
def RateLimiter.check (rl : RateLimiter) (identity : Bytes) (nowSecs : Nat) :
    RateLimiter × Except RateLimitExceeded Unit :=
  let windowSecs := max rl.window 1
  let bucket := rl.bucket identity nowSecs
  if bucket.tokens = 0 then
    let elapsed := nowSecs - bucket.windowStartSecs
    ({ rl with buckets := Function.update rl.buckets identity (some bucket) },
      .error ⟨identity, 1, 0, windowSecs - elapsed⟩)
  else
    ({ rl with
        buckets := Function.update rl.buckets identity
          (some { bucket with tokens := bucket.tokens - 1 }) },
      .ok ())

/-- A request leaves every other identity's bucket alone. -/
theorem check_buckets (rl : RateLimiter) (identity : Bytes) (nowSecs : Nat) {b : Bytes}
    (h : b ≠ identity) : (rl.check identity nowSecs).1.buckets b = rl.buckets b := by
  rw [RateLimiter.check]
  dsimp only
  split <;> exact Function.update_of_ne h ..

end E2EMessaging.Relay
