/-
  COUNTING SEARCH: try 0, 1, 2, … until one passes, up to a limit.

  Programs write this loop in many ways; what they share is ONE EQUATION (`Searches`): test the
  counter, return on success, give up past the limit, else go on with the next counter.  A test may
  itself report an error or panic.  Whatever satisfies the equation stops at the FIRST counter whose
  test does not say no (`First`), and with what that test says; so two loops with the same test on the
  counters below the limit return the same.
-/
import E2EMessaging.Lib.Bytes

namespace E2EMessaging.Lib

variable {ε β : Type}

/-- `n` is reached from `c`: within the limit, and every test before it said no. -/
structure First (test : Nat → Outcome ε Bool) (limit c n : Nat) : Prop where
  ge : c ≤ n
  le : n ≤ limit
  below : ∀ m, c ≤ m → m < n → test m = .ok false

theorem First.next {test : Nat → Outcome ε Bool} {limit c n : Nat} (h : First test limit (c + 1) n)
    (hc : test c = .ok false) : First test limit c n where
  ge := by
    have := h.ge
    omega
  le := h.le
  below := by
    intro m hcm hmn
    rcases Nat.lt_or_eq_of_le hcm with hlt | rfl
    · exact h.below m hlt hmn
    · exact hc

theorem First.tail {test : Nat → Outcome ε Bool} {limit c n : Nat} (h : First test limit c n)
    (hc : test c = .ok false) (hn : test n ≠ .ok false) : First test limit (c + 1) n where
  ge := by
    rcases Nat.lt_or_eq_of_le h.ge with hlt | rfl
    · exact hlt
    · exact absurd hc hn
  le := h.le
  below := fun m hm hmn => h.below m (by omega) hmn

/-- Some test in range does not say no, or all do.  By induction on how far the limit is. -/
theorem first_or_none (test : Nat → Outcome ε Bool) {limit c : Nat} (hc : c ≤ limit) :
    (∃ n, First test limit c n ∧ test n ≠ .ok false) ∨
      ∀ m, c ≤ m → m ≤ limit → test m = .ok false := by
  by_cases htest : test c = .ok false
  · rcases Nat.lt_or_ge limit (c + 1) with hlast | hmore
    · right
      intro m hcm hml
      obtain rfl : m = c := by omega
      exact htest
    · rcases first_or_none test hmore with ⟨n, hfirst, hn⟩ | hall
      · exact Or.inl ⟨n, hfirst.next htest, hn⟩
      · right
        intro m hcm hml
        rcases Nat.lt_or_eq_of_le hcm with hlt | rfl
        · exact hall m hlt hml
        · exact htest
  · exact Or.inl ⟨c, ⟨Nat.le_refl c, hc, fun m hcm hmc => absurd hcm (Nat.not_le_of_lt hmc)⟩, htest⟩
termination_by limit - c

/-- A loop that searches: at each counter up to the limit it tests, and returns, gives up or goes on. -/
def Searches (test : Nat → Outcome ε Bool) (giveUp : ε) (out : Nat → β) (limit : Nat)
    (loop : Nat → Outcome ε β) : Prop :=
  ∀ c ≤ limit, loop c = (test c).bind fun hit =>
    if hit then .ok (out c) else if limit < c + 1 then .err giveUp else loop (c + 1)

namespace Searches

variable {test : Nat → Outcome ε Bool} {giveUp : ε} {out : Nat → β} {limit : Nat}
  {loop : Nat → Outcome ε β}

theorem go_on (hs : Searches test giveUp out limit loop) {c : Nat} (hc : c + 1 ≤ limit)
    (htest : test c = .ok false) : loop c = loop (c + 1) := by
  rw [hs c (by omega), htest]
  exact if_neg (Nat.not_lt.mpr hc)

/-- The search ends as the first test that does not say no. -/
theorem at_first (hs : Searches test giveUp out limit loop) {c n : Nat}
    (hfirst : First test limit c n) (hn : test n ≠ .ok false) :
    loop c = (test n).bind fun _ => .ok (out n) := by
  rcases Nat.lt_or_eq_of_le hfirst.ge with hlt | rfl
  · have htest := hfirst.below c (Nat.le_refl c) hlt
    have hle := hfirst.le
    rw [hs.go_on (by omega) htest]
    exact hs.at_first (hfirst.tail htest hn) hn
  · rw [hs c hfirst.le]
    cases htest : test c with
    | err e => rfl
    | panic => rfl
    | ok hit =>
      cases hit with
      | true => rfl
      | false => exact absurd htest hn
termination_by limit - c

/-- If all tests say no, the search gives up. -/
theorem exhausted (hs : Searches test giveUp out limit loop) {c : Nat} (hc : c ≤ limit)
    (hall : ∀ m, c ≤ m → m ≤ limit → test m = .ok false) : loop c = .err giveUp := by
  have htest := hall c (Nat.le_refl c) hc
  rcases Nat.lt_or_ge limit (c + 1) with hlast | hmore
  · rw [hs c hc, htest]
    exact if_pos hlast
  · rw [hs.go_on hmore htest]
    exact hs.exhausted hmore fun m hcm => hall m (by omega)
termination_by limit - c

/-- **The search returns exactly the first counter that passes.** -/
theorem ok_iff (hs : Searches test giveUp out limit loop) {c : Nat} (hc : c ≤ limit) {r : β} :
    loop c = .ok r ↔ ∃ n, First test limit c n ∧ test n = .ok true ∧ r = out n := by
  constructor
  · intro hok
    rcases first_or_none test hc with ⟨n, hfirst, hn⟩ | hall
    · rw [hs.at_first hfirst hn] at hok
      cases htest : test n with
      | err e =>
        rw [htest] at hok
        cases hok
      | panic =>
        rw [htest] at hok
        cases hok
      | ok hit =>
        rw [htest] at hok
        cases hit with
        | true => exact ⟨n, hfirst, htest, (Outcome.ok.inj hok).symm⟩
        | false => exact absurd htest hn
    · rw [hs.exhausted hc hall] at hok
      cases hok
  · rintro ⟨n, hfirst, htest, rfl⟩
    rw [hs.at_first hfirst (by rw [htest]; exact fun h => by cases h), htest]
    rfl

/-- With tests that answer: the first counter that passes, if there is one up to the limit. -/
theorem ok_iff_first (hs : Searches test giveUp out limit loop) {p : Nat → Bool}
    (htest : ∀ n ≤ limit, test n = .ok (p n)) {r : β} :
    loop 0 = .ok r ↔ ∃ n ≤ limit, p n = true ∧ (∀ m < n, p m = false) ∧ r = out n := by
  rw [hs.ok_iff (Nat.zero_le limit)]
  constructor
  · rintro ⟨n, hfirst, hn, rfl⟩
    rw [htest n hfirst.le] at hn
    refine ⟨n, hfirst.le, Outcome.ok.inj hn, ?_, rfl⟩
    intro m hm
    have hle := hfirst.le
    have hmn := hfirst.below m (Nat.zero_le m) hm
    rw [htest m (by omega)] at hmn
    exact Outcome.ok.inj hmn
  · rintro ⟨n, hn, hp, hbelow, rfl⟩
    refine ⟨n, ⟨Nat.zero_le n, hn, ?_⟩, ?_, rfl⟩
    · intro m _ hm
      rw [htest m (by omega), hbelow m hm]
    · rw [htest n hn, hp]

/-- **The search panics exactly if the test of a counter it reaches does.** -/
theorem panic_iff (hs : Searches test giveUp out limit loop) {c : Nat} (hc : c ≤ limit) :
    loop c = .panic ↔ ∃ n, First test limit c n ∧ test n = .panic := by
  constructor
  · intro hpanic
    rcases first_or_none test hc with ⟨n, hfirst, hn⟩ | hall
    · rw [hs.at_first hfirst hn] at hpanic
      cases htest : test n with
      | ok hit =>
        rw [htest] at hpanic
        cases hpanic
      | err e =>
        rw [htest] at hpanic
        cases hpanic
      | panic => exact ⟨n, hfirst, htest⟩
    · rw [hs.exhausted hc hall] at hpanic
      cases hpanic
  · rintro ⟨n, hfirst, htest⟩
    rw [hs.at_first hfirst (by rw [htest]; exact fun h => by cases h), htest]
    rfl

end Searches

end E2EMessaging.Lib
