/-
  WHAT THE RATE LIMITER ENFORCES, over every sequence of `check` calls.

  The code keeps a bucket per identity and resets it lazily, when a request finds its window elapsed.
  The rule it is there for is about the history of that identity: a request is admitted exactly if
  fewer than `capacity` requests of its window have been (`Lib/FixedWindow`).  The link between the two
  is `Tracks`: the bucket's window is the window of the last request, and its tokens are what that
  window has left.

    * `Tracks` is kept by every call (`tracks_check_own`, `tracks_check_other`), so the limiter follows
      the rule in every run — even in one whose clock goes backwards;
    * an exhausted bucket stays as it is until its window ends (`exhausted_after`), so `retry_after` is
      exact and a denied request changes nothing;
    * the bucket of an identity, and with it every answer, depends on that identity's own calls only.
-/
import E2EMessaging.Lib.Reader
import E2EMessaging.Lib.Run
import E2EMessaging.Lib.FixedWindow
import E2EMessaging.Relay.RateLimit

namespace E2EMessaging.Relay

open E2EMessaging.Lib

/-! ## Runs of the limiter -/

/-- A call of `check`: an identity and a time in whole seconds. -/
abbrev RateCall := Bytes × Nat

/-- The call is this identity's. -/
def RateCall.by (a : Bytes) (c : RateCall) : Bool := c.1 == a

/-- `check` as a step. -/
def RateLimiter.serve (rl : RateLimiter) (c : RateCall) :
    RateLimiter × Except RateLimitExceeded Unit := rl.check c.1 c.2

/-- The limiter after a sequence of calls. -/
def RateLimiter.after (rl : RateLimiter) (calls : List RateCall) : RateLimiter :=
  run (fun rl c => (rl.serve c).1) rl calls

/-- The calls of an identity along a run, with the results it got. -/
def RateLimiter.results (rl : RateLimiter) (a : Bytes) (calls : List RateCall) :
    List (RateCall × Except RateLimitExceeded Unit) :=
  transcript RateLimiter.serve (RateCall.by a) rl calls

/-- `Result::is_ok`. -/
def admits : Except RateLimitExceeded Unit → Bool
  | .ok _ => true
  | .error _ => false

/-- The requests of an identity along a run: when, and whether they were admitted. -/
def RateLimiter.history (rl : RateLimiter) (a : Bytes) (calls : List RateCall) : List (Nat × Bool) :=
  (rl.results a calls).map fun r => (r.1.2, admits r.2)

/-- `window_secs`. -/
def RateLimiter.windowSecs (rl : RateLimiter) : Nat := max rl.window 1

theorem RateLimiter.windowSecs_pos (rl : RateLimiter) : 0 < rl.windowSecs := by
  rw [RateLimiter.windowSecs]
  omega

/-! ## One call -/

section Check

variable (rl : RateLimiter) (a : Bytes) (t : Nat)

@[simp] theorem check_capacity : (rl.check a t).1.capacity = rl.capacity := by
  rw [RateLimiter.check]
  dsimp only
  split <;> rfl

@[simp] theorem check_window : (rl.check a t).1.window = rl.window := by
  rw [RateLimiter.check]
  dsimp only
  split <;> rfl

/-- What a call does: it denies and writes back a bucket without tokens, or takes a token. -/
theorem check_cases :
    ((rl.bucket a t).tokens = 0 ∧
      (rl.check a t).1.buckets a = some (rl.bucket a t) ∧
      (rl.check a t).2 =
        .error ⟨a, 1, 0, rl.windowSecs - (t - (rl.bucket a t).windowStartSecs)⟩) ∨
    (0 < (rl.bucket a t).tokens ∧
      (rl.check a t).1.buckets a =
        some ⟨(rl.bucket a t).tokens - 1, (rl.bucket a t).windowStartSecs⟩ ∧
      (rl.check a t).2 = .ok ()) := by
  rw [RateLimiter.check]
  dsimp only
  by_cases htokens : (rl.bucket a t).tokens = 0
  · rw [if_pos htokens]
    exact Or.inl ⟨htokens, Function.update_self .., rfl⟩
  · rw [if_neg htokens]
    exact Or.inr ⟨Nat.pos_of_ne_zero htokens, Function.update_self .., rfl⟩

theorem admits_check : admits (rl.check a t).2 = true ↔ 0 < (rl.bucket a t).tokens := by
  rcases check_cases rl a t with ⟨hzero, -, hres⟩ | ⟨hpos, -, hres⟩
  · rw [hres, hzero]
    exact ⟨fun h => absurd h Bool.false_ne_true, fun h => absurd h (Nat.lt_irrefl 0)⟩
  · rw [hres]
    exact ⟨fun _ => hpos, fun _ => rfl⟩

end Check

/-! ## The bucket tracks the history -/

/-- The bucket of an identity and its history: the history follows the rule, there is a bucket once
    there was a request, its window is that of the last request, and its tokens are what is left. -/
structure Tracks (rl : RateLimiter) (a : Bytes) (h : List (Nat × Bool)) : Prop where
  fixed : FixedWindow rl.capacity rl.windowSecs h
  fresh : rl.buckets a = none → h = []
  left : ∀ b, rl.buckets a = some b → lastStart rl.windowSecs h = some b.windowStartSecs ∧
    b.tokens + spent rl.windowSecs h b.windowStartSecs = rl.capacity

/-- Nothing has been spent of a window that opens now. -/
theorem spent_of_new_window {W t s : Nat} {h : List (Nat × Bool)} (hW : 0 < W)
    (hlast : lastStart W h = some s) (ht : s + W ≤ t) : spent W h t = 0 := by
  rw [spent, List.countP_eq_zero]
  intro e he hspends
  obtain ⟨s', hs', hes⟩ := (windows_of_pos hW h).last e he
  obtain rfl := Option.some.inj (hlast.symm.trans hs')
  have hstart : e.start = t := beq_iff_eq.mp (Bool.and_eq_true_iff.mp hspends).2
  omega

/-- The bucket a call works on: the window is that of the request, the tokens what is left of it. -/
theorem Tracks.bucket {rl : RateLimiter} {a : Bytes} {h : List (Nat × Bool)} (hT : Tracks rl a h)
    (t : Nat) :
    (rl.bucket a t).windowStartSecs = startOf rl.windowSecs (lastStart rl.windowSecs h) t ∧
      (rl.bucket a t).tokens +
        spent rl.windowSecs h (startOf rl.windowSecs (lastStart rl.windowSecs h) t) =
          rl.capacity := by
  have hW := rl.windowSecs_pos
  rw [RateLimiter.bucket]
  show (if rl.windowSecs ≤ _ then _ else _ : Bucket).windowStartSecs = _ ∧
    (if rl.windowSecs ≤ _ then _ else _ : Bucket).tokens + _ = _
  cases hb : rl.buckets a with
  | none =>
    obtain rfl := hT.fresh hb
    have hno : ¬ rl.windowSecs ≤ t - t := by omega
    rw [Option.getD_none, if_neg hno]
    exact ⟨rfl, rfl⟩
  | some b =>
    obtain ⟨hlast, hleft⟩ := hT.left b hb
    rw [Option.getD_some, hlast, startOf]
    by_cases hnew : b.windowStartSecs + rl.windowSecs ≤ t
    · -- the window has elapsed: the reset
      rw [if_pos (by omega : rl.windowSecs ≤ t - b.windowStartSecs), if_pos hnew,
        spent_of_new_window hW hlast hnew]
      exact ⟨rfl, rfl⟩
    · rw [if_neg (by omega : ¬ rl.windowSecs ≤ t - b.windowStartSecs), if_neg hnew]
      exact ⟨rfl, hleft⟩

theorem check_windowSecs (rl : RateLimiter) (a : Bytes) (t : Nat) :
    (rl.check a t).1.windowSecs = rl.windowSecs := congrArg (max · 1) (check_window rl a t)

/-- One's own call. -/
theorem tracks_check_own {rl : RateLimiter} {a : Bytes} {h : List (Nat × Bool)}
    (hT : Tracks rl a h) (t : Nat) :
    Tracks (rl.check a t).1 a (h ++ [(t, admits (rl.check a t).2)]) := by
  obtain ⟨hstart, hleft⟩ := hT.bucket t
  refine ⟨?_, ?_, ?_⟩
  · rw [check_windowSecs, check_capacity, fixedWindow_concat]
    refine ⟨hT.fixed, ?_⟩
    rw [admits_check]
    omega
  · intro hnone
    rcases check_cases rl a t with ⟨-, hsome, -⟩ | ⟨-, hsome, -⟩ <;>
      exact absurd (hnone.symm.trans hsome) (Option.some_ne_none _).symm
  · intro b hb
    rw [check_windowSecs, check_capacity, lastStart_concat]
    rcases check_cases rl a t with ⟨hzero, hsome, hres⟩ | ⟨hpos, hsome, hres⟩
    · -- denied: nothing more is spent
      obtain rfl := Option.some.inj (hb.symm.trans hsome)
      rw [spent_concat, hres, hstart]
      exact ⟨rfl, hleft⟩
    · obtain rfl := Option.some.inj (hb.symm.trans hsome)
      have hsame : (true && startOf rl.windowSecs (lastStart rl.windowSecs h) t ==
          startOf rl.windowSecs (lastStart rl.windowSecs h) t) = true := by simp
      simp only
      rw [spent_concat, hres, hstart, admits, if_pos hsame]
      exact ⟨rfl, by omega⟩

/-- Another's call. -/
theorem tracks_check_other {rl : RateLimiter} {a b : Bytes} {h : List (Nat × Bool)}
    (hT : Tracks rl a h) (hab : a ≠ b) (t : Nat) : Tracks (rl.check b t).1 a h := by
  have hbuckets := check_buckets rl b t hab
  refine ⟨?_, ?_, ?_⟩
  · rw [check_windowSecs, check_capacity]
    exact hT.fixed
  · rw [hbuckets]
    exact hT.fresh
  · rw [hbuckets, check_windowSecs, check_capacity]
    exact hT.left

/-- Two limiters that agree on the configuration and on a bucket answer its identity the same, and agree
    on the bucket again. -/
theorem check_congr {s s' : RateLimiter} {a : Bytes} (hcap : s.capacity = s'.capacity)
    (hwin : s.window = s'.window) (hbuckets : s.buckets a = s'.buckets a) (t : Nat) :
    (s.check a t).2 = (s'.check a t).2 ∧
      (s.check a t).1.buckets a = (s'.check a t).1.buckets a := by
  have hbucket : s.bucket a t = s'.bucket a t := by
    rw [RateLimiter.bucket, RateLimiter.bucket, hcap, hwin, hbuckets]
  unfold RateLimiter.check
  rw [hbucket, hwin]
  dsimp only
  split
  · refine ⟨rfl, ?_⟩
    show Function.update s.buckets a _ a = Function.update s'.buckets a _ a
    rw [Function.update_self, Function.update_self]
  · refine ⟨rfl, ?_⟩
    show Function.update s.buckets a _ a = Function.update s'.buckets a _ a
    rw [Function.update_self, Function.update_self]

theorem tracks_new (capacity window : Nat) (a : Bytes) :
    Tracks (.perIdentityIn capacity window) a [] :=
  ⟨fixedWindow_nil _ _, fun _ => rfl, fun b hb => absurd hb (Option.some_ne_none b).symm⟩

theorem after_concat (rl : RateLimiter) (calls : List RateCall) (c : RateCall) :
    rl.after (calls ++ [c]) = ((rl.after calls).check c.1 c.2).1 := run_concat _ rl calls c

theorem history_concat_own (rl : RateLimiter) (a : Bytes) (calls : List RateCall) (t : Nat) :
    rl.history a (calls ++ [(a, t)]) =
      rl.history a calls ++ [(t, admits ((rl.after calls).check a t).2)] := by
  have hown : RateCall.by a (a, t) = true := beq_self_eq_true a
  rw [RateLimiter.history, RateLimiter.results,
    transcript_concat_own RateLimiter.serve (RateCall.by a) hown, List.map_append]
  rfl

theorem history_concat_other (rl : RateLimiter) {a b : Bytes} (hab : a ≠ b) (calls : List RateCall)
    (t : Nat) : rl.history a (calls ++ [(b, t)]) = rl.history a calls := by
  have hother : RateCall.by a (b, t) = false := beq_eq_false_iff_ne.mpr (Ne.symm hab)
  rw [RateLimiter.history, RateLimiter.results,
    transcript_concat_other RateLimiter.serve (RateCall.by a) hother]
  rfl

/-- **The bucket tracks the history in every run.** -/
theorem tracks_after {rl : RateLimiter} {a : Bytes} (hT : Tracks rl a []) (calls : List RateCall) :
    Tracks (rl.after calls) a (rl.history a calls) := by
  induction calls using List.reverseRecOn with
  | nil => exact hT
  | append_singleton calls c ih =>
    obtain ⟨b, t⟩ := c
    rw [after_concat]
    by_cases hab : a = b
    · subst hab
      rw [history_concat_own]
      exact tracks_check_own ih t
    · rw [history_concat_other rl hab]
      exact tracks_check_other ih hab t

/-- The requests of the history are calls of the run. -/
theorem mem_calls_of_mem_history {rl : RateLimiter} {a : Bytes} {calls : List RateCall}
    {x : Nat × Bool} (hx : x ∈ rl.history a calls) : (a, x.1) ∈ calls := by
  obtain ⟨r, hr, rfl⟩ := List.mem_map.mp hx
  have hin : r.1 ∈ calls.filter (RateCall.by a) := by
    rw [← transcript_inputs RateLimiter.serve (RateCall.by a) rl]
    exact List.mem_map_of_mem hr
  obtain ⟨hmem, hby⟩ := List.mem_filter.mp hin
  have hpair : (a, r.1.2) = r.1 := by rw [← show r.1.1 = a from beq_iff_eq.mp hby]
  exact hpair.symm ▸ hmem

/-- A run changes neither the capacity nor the window. -/
theorem after_config (rl : RateLimiter) (calls : List RateCall) :
    (rl.after calls).capacity = rl.capacity ∧ (rl.after calls).window = rl.window := by
  refine run_inv (I := fun s : RateLimiter => s.capacity = rl.capacity ∧ s.window = rl.window) ?_ ⟨rfl, rfl⟩ calls
  rintro s c ⟨hcap, hwin⟩
  exact ⟨(check_capacity s c.1 c.2).trans hcap, (check_window s c.1 c.2).trans hwin⟩

/-! ## A denied request -/

/-- The bucket a call works on is a full one of this second, or the identity's own, its window not
    over. -/
theorem bucket_cases (rl : RateLimiter) (a : Bytes) (t : Nat) :
    rl.bucket a t = ⟨rl.capacity, t⟩ ∨
      (rl.buckets a = some (rl.bucket a t) ∧
        t - (rl.bucket a t).windowStartSecs < rl.windowSecs) := by
  rw [RateLimiter.bucket]
  split
  · exact Or.inl rfl
  · rename_i hnot
    cases hb : rl.buckets a with
    | none => exact Or.inl rfl
    | some b =>
      rw [hb, Option.getD_some] at hnot
      exact Or.inr ⟨rfl, Nat.lt_of_not_le hnot⟩

/-- Without tokens it is the identity's own: a full bucket has one at least. -/
theorem own_bucket_of_tokens_eq_zero {rl : RateLimiter} (hcap : 0 < rl.capacity) {a : Bytes} {t : Nat}
    (hzero : (rl.bucket a t).tokens = 0) :
    rl.buckets a = some (rl.bucket a t) ∧ t - (rl.bucket a t).windowStartSecs < rl.windowSecs := by
  rcases bucket_cases rl a t with hfull | hown
  · rw [hfull] at hzero
    exact absurd hzero (Nat.ne_of_gt hcap)
  · exact hown

/-- **A denied request changes nothing.** -/
theorem check_of_denied {rl : RateLimiter} (hcap : 0 < rl.capacity) {a : Bytes} {t : Nat}
    (hdenied : admits (rl.check a t).2 = false) : (rl.check a t).1 = rl := by
  have hzero : (rl.bucket a t).tokens = 0 := by
    have hnot : ¬ 0 < (rl.bucket a t).tokens := by
      rw [← admits_check, hdenied]
      exact Bool.false_ne_true
    omega
  obtain ⟨hown, -⟩ := own_bucket_of_tokens_eq_zero hcap hzero
  rw [RateLimiter.check]
  dsimp only
  rw [if_pos hzero, ← hown, Function.update_eq_self]

/-- An exhausted bucket admits again when its window is over, and not before. -/
theorem admits_of_exhausted {rl : RateLimiter} (hcap : 0 < rl.capacity) {a : Bytes} {s : Nat}
    (hb : rl.buckets a = some ⟨0, s⟩) (t : Nat) :
    admits (rl.check a t).2 = true ↔ s + rl.windowSecs ≤ t := by
  have hW := rl.windowSecs_pos
  rw [admits_check, RateLimiter.bucket]
  show 0 < (if rl.windowSecs ≤ _ then _ else _ : Bucket).tokens ↔ _
  rw [hb, Option.getD_some]
  by_cases hover : s + rl.windowSecs ≤ t
  · rw [if_pos (by show rl.windowSecs ≤ t - s; omega)]
    exact ⟨fun _ => hover, fun _ => hcap⟩
  · rw [if_neg (by show ¬ rl.windowSecs ≤ t - s; omega)]
    exact ⟨fun h => absurd h (Nat.lt_irrefl 0), fun h => absurd h hover⟩

/-- **It stays exhausted until then**, whoever else calls, and however often the identity itself
    does. -/
theorem exhausted_after {rl : RateLimiter} (hcap : 0 < rl.capacity) {a : Bytes} {s : Nat}
    (hb : rl.buckets a = some ⟨0, s⟩) {calls : List RateCall}
    (hcalls : ∀ t, (a, t) ∈ calls → t < s + rl.windowSecs) :
    (rl.after calls).buckets a = some ⟨0, s⟩ := by
  induction calls using List.reverseRecOn with
  | nil => exact hb
  | append_singleton calls c ih =>
    obtain ⟨b, t⟩ := c
    obtain ⟨hcap', hwin'⟩ := after_config rl calls
    have hold := ih fun t ht => hcalls t (List.mem_append_left _ ht)
    rw [after_concat]
    by_cases hab : a = b
    · subst hab
      have hcapAfter : 0 < (rl.after calls).capacity := hcap'.symm ▸ hcap
      have hearly : ¬ s + (rl.after calls).windowSecs ≤ t := by
        rw [RateLimiter.windowSecs, hwin']
        exact Nat.not_le_of_lt (hcalls t (List.mem_append_right _ List.mem_cons_self))
      have hdenied : admits ((rl.after calls).check a t).2 = false := by
        rw [← Bool.not_eq_true, admits_of_exhausted hcapAfter hold]
        exact hearly
      rw [check_of_denied hcapAfter hdenied]
      exact hold
    · rw [check_buckets _ b t hab]
      exact hold

/-! ## The subtractions -/

/-- `check` with its two subtractions as the machine does them: `window_secs - elapsed` on a `u64`,
    `tokens -= 1` on a `u32`; `checked` says if the build panics on overflow or wraps. -/
def RateLimiter.checkArith (checked : Bool) (rl : RateLimiter) (identity : Bytes) (nowSecs : Nat) :
    Outcome Empty (RateLimiter × Except RateLimitExceeded Unit) :=
  let windowSecs := max rl.window 1
  let bucket := rl.bucket identity nowSecs
  if bucket.tokens = 0 then do
    let elapsed := nowSecs - bucket.windowStartSecs
    let retryAfter ← (Arch.mk 64 checked).sub windowSecs elapsed
    .ok ({ rl with buckets := Function.update rl.buckets identity (some bucket) },
      .error ⟨identity, 1, 0, retryAfter⟩)
  else do
    let tokens ← (Arch.mk 32 checked).sub bucket.tokens 1
    .ok ({ rl with
        buckets := Function.update rl.buckets identity (some { bucket with tokens := tokens }) },
      .ok ())

/-- Neither underflows, at any time. -/
theorem checkArith_eq {rl : RateLimiter} (hcap : 0 < rl.capacity) (checked : Bool) (a : Bytes)
    (t : Nat) : rl.checkArith checked a t = .ok (rl.check a t) := by
  rw [RateLimiter.checkArith, RateLimiter.check]
  dsimp only
  by_cases hzero : (rl.bucket a t).tokens = 0
  · obtain ⟨-, hlt⟩ := own_bucket_of_tokens_eq_zero hcap hzero
    have hle : t - (rl.bucket a t).windowStartSecs ≤ max rl.window 1 := Nat.le_of_lt hlt
    rw [if_pos hzero, if_pos hzero, Arch.sub_of_le hle, Outcome.ok_bind]
  · rw [if_neg hzero, if_neg hzero, Arch.sub_of_le (Nat.one_le_iff_ne_zero.mpr hzero),
      Outcome.ok_bind]

/-! ## The limiter and its rule -/

/-- The times of the calls do not decrease for any identity. -/
def Monotonic (calls : List RateCall) : Prop :=
  ∀ a, ((calls.filter (RateCall.by a)).map (·.2)).Pairwise (· ≤ ·)

theorem Monotonic.ordered {calls : List RateCall} (h : Monotonic calls) (rl : RateLimiter)
    (a : Bytes) : Ordered (rl.history a calls) := by
  have htimes : (rl.history a calls).map (·.1) = (calls.filter (RateCall.by a)).map (·.2) := by
    rw [RateLimiter.history, List.map_map, ← transcript_inputs RateLimiter.serve (RateCall.by a) rl,
      List.map_map]
    rfl
  rw [Ordered, htimes]
  exact h a

/-- **When a request is denied, the window is named exactly**: `retry_after` is what is left of the
    window of the identity's last request. -/
theorem retryAfter_of_denied {rl : RateLimiter} {a : Bytes} {h : List (Nat × Bool)} {now : Nat}
    {e : RateLimitExceeded} (hT : Tracks rl a h) (hcap : 0 < rl.capacity) (ho : Ordered h)
    (hnow : ∀ x ∈ h, x.1 ≤ now) (hdenied : (rl.check a now).2 = .error e) :
    ∃ s, lastStart rl.windowSecs h = some s ∧ s ≤ now ∧ now + e.retryAfter = s + rl.windowSecs ∧
      rl.buckets a = some ⟨0, s⟩ := by
  rcases check_cases rl a now with ⟨hzero, -, hres⟩ | ⟨-, -, hres⟩
  · obtain ⟨hown, hlt⟩ := own_bucket_of_tokens_eq_zero hcap hzero
    obtain ⟨hlast, -⟩ := hT.left _ hown
    obtain ⟨x, hx, hsx⟩ := (ho.start_le (W := rl.windowSecs)).2 _ hlast
    have hle := Nat.le_trans hsx (hnow x hx)
    obtain rfl := Except.error.inj (hdenied.symm.trans hres)
    refine ⟨_, hlast, hle, ?_, ?_⟩
    · simp only
      omega
    · rw [hown, ← hzero]
  · rw [hres] at hdenied
    cases hdenied

/-- **The limiter is the fixed-window rule**, for every capacity, window and sequence of calls.  On any
    clock no subtraction underflows; on one that does not go backwards every identity's history follows
    the rule, any `W` seconds hold at most twice the capacity, and a denied request changes nothing and
    is told the end of its window: until then no request of the identity is admitted, from then on
    one is. -/
theorem rate_limiter_is_fixed_window (capacity window : Nat) (calls : List RateCall) :
    (∀ checked a now,
      ((RateLimiter.perIdentityIn capacity window).after calls).checkArith checked a now =
        .ok (((RateLimiter.perIdentityIn capacity window).after calls).check a now)) ∧
    (Monotonic calls → ∀ a,
      FixedWindow (max capacity 1) (max window 1)
        ((RateLimiter.perIdentityIn capacity window).history a calls) ∧
      (∀ u, admittedFrom (max window 1) u
        ((RateLimiter.perIdentityIn capacity window).history a calls) ≤ 2 * max capacity 1) ∧
      ∀ now e, (∀ t, (a, t) ∈ calls → t ≤ now) →
        (((RateLimiter.perIdentityIn capacity window).after calls).check a now).2 = .error e →
        (((RateLimiter.perIdentityIn capacity window).after calls).check a now).1 =
          (RateLimiter.perIdentityIn capacity window).after calls ∧
        (∃ s, lastStart (max window 1)
            ((RateLimiter.perIdentityIn capacity window).history a calls) = some s ∧ s ≤ now ∧
          now + e.retryAfter = s + max window 1) ∧
        ∀ more : List RateCall, (∀ t, (a, t) ∈ more → t < now + e.retryAfter) → ∀ t,
          admits ((((RateLimiter.perIdentityIn capacity window).after calls).after more).check a t).2
            = true ↔ now + e.retryAfter ≤ t) := by
  obtain ⟨hcapacity, hwindow⟩ := after_config (.perIdentityIn capacity window) calls
  have hcap : 0 < ((RateLimiter.perIdentityIn capacity window).after calls).capacity := by
    rw [hcapacity, RateLimiter.perIdentityIn]
    exact Nat.lt_of_lt_of_le Nat.one_pos (Nat.le_max_right capacity 1)
  have hsecs : ((RateLimiter.perIdentityIn capacity window).after calls).windowSecs =
      max window 1 := by
    rw [RateLimiter.windowSecs, hwindow]
    rfl
  refine ⟨fun checked a now => checkArith_eq hcap checked a now, fun hmono a => ?_⟩
  have hT := tracks_after (tracks_new capacity window a) calls
  have ho := hmono.ordered (.perIdentityIn capacity window) a
  have hfixed : FixedWindow (max capacity 1) (max window 1)
      ((RateLimiter.perIdentityIn capacity window).history a calls) := by
    have := hT.fixed
    rwa [hsecs, hcapacity] at this
  refine ⟨hfixed, fun u => hfixed.count_span_le (by omega) ho u, ?_⟩
  intro now e hnow hdenied
  have hpast : ∀ x ∈ (RateLimiter.perIdentityIn capacity window).history a calls, x.1 ≤ now :=
    fun x hx => hnow x.1 (mem_calls_of_mem_history hx)
  obtain ⟨s, hlast, hle, hretry, hown⟩ := retryAfter_of_denied hT hcap ho hpast hdenied
  have hdeny : admits (((RateLimiter.perIdentityIn capacity window).after calls).check a now).2 =
      false := by rw [hdenied]; rfl
  refine ⟨check_of_denied hcap hdeny, ⟨s, hsecs ▸ hlast, hle, hsecs ▸ hretry⟩, ?_⟩
  intro more hmore t
  rw [hretry] at hmore ⊢
  obtain ⟨hcapMore, hwinMore⟩ := after_config
    ((RateLimiter.perIdentityIn capacity window).after calls) more
  rw [admits_of_exhausted (hcapMore.symm ▸ hcap) (exhausted_after hcap hown hmore) t,
    RateLimiter.windowSecs, hwinMore]
  rfl

/-- Two identities, a capacity of one and a window of ten: the third request is denied and told to come
    back in seven seconds, and a request of the other identity does not change that. -/
theorem rate_limiter_is_fixed_window_at_ten :
    (((RateLimiter.perIdentityIn 0 10).after [([1], 0), ([2], 1)]).check [1] 3).2 =
        .error ⟨[1], 1, 0, 7⟩ ∧
      (∀ t, admits ((((RateLimiter.perIdentityIn 0 10).after [([1], 0), ([2], 1)]).after
        [([2], 4)]).check [1] t).2 = true ↔ 3 + 7 ≤ t) := by
  have hdenied : (((RateLimiter.perIdentityIn 0 10).after [([1], 0), ([2], 1)]).check [1] 3).2 =
      .error ⟨[1], 1, 0, 7⟩ := rfl
  have hmono : Monotonic [([1], 0), ([2], 1)] := by
    intro a
    refine List.Pairwise.sublist (List.filter_sublist.map fun c : RateCall => c.2) ?_
    exact List.pairwise_pair.mpr (Nat.zero_le 1)
  have hrule := (rate_limiter_is_fixed_window 0 10 [([1], 0), ([2], 1)]).2 hmono [1]
  refine ⟨hdenied, (hrule.2.2 3 _ ?_ hdenied).2.2 [([2], 4)] ?_⟩
  · intro t ht
    simp at ht
    omega
  · intro t ht
    simp at ht

/-- **An identity's results depend on its own calls only**, `retry_after` included: two runs with the
    same calls of `a`, whatever the others do between them, answer `a` the same. -/
theorem rate_limiter_isolates (rl : RateLimiter) (a : Bytes) (calls calls' : List RateCall)
    (hsame : calls.filter (RateCall.by a) = calls'.filter (RateCall.by a)) :
    rl.results a calls = rl.results a calls' := by
  -- what `a` sees of the limiter: its configuration and its own bucket
  refine transcript_eq_of_filter_eq
    (V := fun rl : RateLimiter => (rl.capacity, rl.window, rl.buckets a)) ?_ ?_ rfl hsame
  · rintro s c hc
    have hne : a ≠ c.1 := Ne.symm (beq_eq_false_iff_ne.mp hc)
    simp only [RateLimiter.serve, check_capacity, check_window, check_buckets s c.1 c.2 hne]
  · rintro s s' c hc hview
    obtain ⟨hcap, hwin, hbuckets⟩ : s.capacity = s'.capacity ∧ s.window = s'.window ∧
        s.buckets a = s'.buckets a := by simpa using hview
    have hby : c.1 = a := beq_iff_eq.mp hc
    obtain ⟨hanswer, hnext⟩ := check_congr hcap hwin hbuckets c.2
    rw [RateLimiter.serve, RateLimiter.serve, hby, check_capacity, check_window, check_capacity,
      check_window, hanswer, hnext, hcap, hwin]
    exact ⟨rfl, rfl⟩

/-- A busy neighbour. -/
theorem rate_limiter_isolates_from_neighbour :
    (RateLimiter.perIdentityIn 1 10).results [1] [([1], 0), ([2], 1), ([2], 2), ([1], 3)] =
        (RateLimiter.perIdentityIn 1 10).results [1] [([1], 0), ([1], 3)] ∧
      (RateLimiter.perIdentityIn 1 10).results [1] [([1], 0), ([1], 3)] =
        [(([1], 0), .ok ()), (([1], 3), .error ⟨[1], 1, 0, 7⟩)] :=
  ⟨rate_limiter_isolates (.perIdentityIn 1 10) [1] _ _ rfl, rfl⟩

end E2EMessaging.Relay
