/-
  FIXED WINDOWS: what it means that a limiter admits at most `cap` requests per window.

  The requests of one client are a HISTORY: their times, and whether each was admitted.  A window opens
  with the first request, and again with each request that comes `W` or more after the opening of the
  current one; `stamp` writes beside every request the opening of its window.  A history follows the
  fixed-window rule (`FixedWindow`) when every request is admitted exactly if fewer than `cap` requests
  of ITS OWN WINDOW have been admitted before it.

  The rule mentions no counter and no reset.  What follows from it:

    * `FixedWindow.spent_le`      — a window admits `cap` requests at most;
    * `FixedWindow.count_span_le`   — ANY span of length `W` holds at most `2 * cap`, as it can meet two
                                      windows (and does: one at its end, one at its beginning), no three.
-/
import Mathlib.Data.List.Induction

namespace E2EMessaging.Lib

/-- A request and its window. -/
structure Stamped where
  start : Nat
  time : Nat
  admitted : Bool
  deriving Repr, DecidableEq

/-- The opening of the window a request falls into, from that of the current window. -/
def startOf (W : Nat) : Option Nat → Nat → Nat
  | none, t => t
  | some s, t => if s + W ≤ t then t else s

/-- A history with its windows, from the current window on. -/
def stampFrom (W : Nat) : Option Nat → List (Nat × Bool) → List Stamped
  | _, [] => []
  | cur, (t, ok) :: h => ⟨startOf W cur t, t, ok⟩ :: stampFrom W (some (startOf W cur t)) h

/-- A history with its windows. -/
def stamp (W : Nat) (h : List (Nat × Bool)) : List Stamped := stampFrom W none h

/-- The window that is open after a history. -/
def lastStart (W : Nat) (h : List (Nat × Bool)) : Option Nat :=
  ((stamp W h).getLast?).map (·.start)

/-- The request was admitted into the window opened at `s`. -/
def Stamped.spends (s : Nat) (e : Stamped) : Bool := e.admitted && e.start == s

/-- How many requests of a history were admitted into the window opened at `s`. -/
def spent (W : Nat) (h : List (Nat × Bool)) (s : Nat) : Nat := (stamp W h).countP (·.spends s)

/-- **The fixed-window rule.** -/
def FixedWindow (cap W : Nat) (h : List (Nat × Bool)) : Prop :=
  ∀ before e after, stamp W h = before ++ e :: after →
    (e.admitted = true ↔ before.countP (·.spends e.start) < cap)

/-! ## One more request -/

theorem stampFrom_append (W : Nat) (cur : Option Nat) (h h' : List (Nat × Bool)) :
    stampFrom W cur (h ++ h') = stampFrom W cur h ++
      stampFrom W (((stampFrom W cur h).getLast?.map (·.start)).or cur) h' := by
  induction h generalizing cur with
  | nil => rfl
  | cons e h ih =>
    obtain ⟨t, ok⟩ := e
    rw [List.cons_append, stampFrom, ih, stampFrom, List.cons_append]
    congr 2
    cases hrest : stampFrom W (some (startOf W cur t)) h with
    | nil => rfl
    | cons x xs => simp [List.getLast?_cons]

theorem stamp_concat (W : Nat) (h : List (Nat × Bool)) (t : Nat) (ok : Bool) :
    stamp W (h ++ [(t, ok)]) = stamp W h ++ [⟨startOf W (lastStart W h) t, t, ok⟩] := by
  rw [stamp, stampFrom_append, Option.or_none]
  rfl

@[simp] theorem lastStart_nil (W : Nat) : lastStart W [] = none := rfl

theorem lastStart_concat (W : Nat) (h : List (Nat × Bool)) (t : Nat) (ok : Bool) :
    lastStart W (h ++ [(t, ok)]) = some (startOf W (lastStart W h) t) := by
  rw [lastStart, stamp_concat]
  simp

theorem spent_concat (W : Nat) (h : List (Nat × Bool)) (t : Nat) (ok : Bool) (s : Nat) :
    spent W (h ++ [(t, ok)]) s =
      spent W h s + if ok && startOf W (lastStart W h) t == s then 1 else 0 := by
  rw [spent, stamp_concat, List.countP_append, List.countP_singleton]
  rfl

theorem fixedWindow_nil (cap W : Nat) : FixedWindow cap W [] := by
  intro before e after h
  cases before <;> cases h

/-- The rule for one more request: it is the rule for that request. -/
theorem fixedWindow_concat {cap W : Nat} {h : List (Nat × Bool)} {t : Nat} {ok : Bool} :
    FixedWindow cap W (h ++ [(t, ok)]) ↔
      FixedWindow cap W h ∧
        (ok = true ↔ spent W h (startOf W (lastStart W h) t) < cap) := by
  constructor
  · intro hall
    constructor
    · intro before e after heq
      refine hall before e (after ++ [⟨startOf W (lastStart W h) t, t, ok⟩]) ?_
      rw [stamp_concat, heq, List.append_assoc, List.cons_append]
    · exact hall (stamp W h) ⟨startOf W (lastStart W h) t, t, ok⟩ [] (stamp_concat W h t ok)
  · rintro ⟨hall, hlast⟩ before e after heq
    rw [stamp_concat] at heq
    rcases List.eq_nil_or_concat after with rfl | ⟨init, x, rfl⟩
    · -- the request is the last one
      have hsplit := List.append_inj' heq rfl
      obtain rfl := hsplit.1
      obtain rfl := List.singleton_inj.mp hsplit.2
      exact hlast
    · -- it is an earlier one, and the last one is behind it
      have hassoc : before ++ e :: (init ++ [x]) = (before ++ e :: init) ++ [x] := by simp
      rw [List.concat_eq_append, hassoc] at heq
      exact hall before e init (List.append_inj' heq rfl).1

/-! ## Windows do not overlap -/

/-- What the stamps of a history look like: each request comes less than `W` after the opening of its
    window, two openings are equal or `W` apart, and none is later than the last. -/
structure Windows (W : Nat) (h : List (Nat × Bool)) : Prop where
  lt : ∀ e ∈ stamp W h, e.time < e.start + W
  apart : ∀ e ∈ stamp W h, ∀ e' ∈ stamp W h, e.start < e'.start → e.start + W ≤ e'.start
  last : ∀ e ∈ stamp W h, ∃ s, lastStart W h = some s ∧ (e.start = s ∨ e.start + W ≤ s)

theorem startOf_spec {W : Nat} (hW : 0 < W) (cur : Option Nat) (t : Nat) :
    t < startOf W cur t + W ∧
      ∀ s, cur = some s → startOf W cur t = s ∨ s + W ≤ startOf W cur t := by
  cases cur with
  | none => exact ⟨by rw [startOf]; omega, fun s hs => by cases hs⟩
  | some s =>
    rw [startOf]
    split
    · refine ⟨by omega, fun s' hs => ?_⟩
      obtain rfl := Option.some.inj hs
      exact Or.inr (by assumption)
    · refine ⟨by omega, fun s' hs => ?_⟩
      obtain rfl := Option.some.inj hs
      exact Or.inl rfl

theorem windows_of_pos {W : Nat} (hW : 0 < W) (h : List (Nat × Bool)) : Windows W h := by
  induction h using List.reverseRecOn with
  | nil => exact ⟨fun _ he => absurd he List.not_mem_nil, fun _ he => absurd he List.not_mem_nil,
      fun _ he => absurd he List.not_mem_nil⟩
  | append_singleton h x ih =>
    obtain ⟨t, ok⟩ := x
    obtain ⟨hlt, hnext⟩ := startOf_spec hW (lastStart W h) t
    -- an earlier request's window is the new one's or closed before it opened
    have hold : ∀ e ∈ stamp W h, e.start = startOf W (lastStart W h) t ∨
        e.start + W ≤ startOf W (lastStart W h) t := by
      intro e he
      obtain ⟨s, hs, hes⟩ := ih.last e he
      rcases hnext s hs with heq | hge
      · rw [heq]
        exact hes
      · rcases hes with hes | hes
        · exact Or.inr (by omega)
        · exact Or.inr (by omega)
    have hmem : ∀ e ∈ stamp W (h ++ [(t, ok)]),
        e ∈ stamp W h ∨ e = ⟨startOf W (lastStart W h) t, t, ok⟩ := by
      intro e he
      rw [stamp_concat, List.mem_append, List.mem_singleton] at he
      exact he
    refine ⟨?_, ?_, ?_⟩
    · intro e he
      rcases hmem e he with he | rfl
      · exact ih.lt e he
      · exact hlt
    · intro e he e' he' hee
      rcases hmem e he with he | rfl
      · rcases hmem e' he' with he' | rfl
        · exact ih.apart e he e' he' hee
        · rcases hold e he with heq | hge
          · exact absurd hee (by rw [heq]; exact Nat.lt_irrefl _)
          · exact hge
      · rcases hmem e' he' with he' | rfl
        · rcases hold e' he' with heq | hge
          · exact absurd hee (by rw [heq]; exact Nat.lt_irrefl _)
          · simp only at hee
            omega
        · exact absurd hee (Nat.lt_irrefl _)
    · intro e he
      refine ⟨_, lastStart_concat W h t ok, ?_⟩
      rcases hmem e he with he | rfl
      · exact hold e he
      · exact Or.inl rfl

/-! ## How many are admitted -/

/-- A window admits `cap` requests at most. -/
theorem FixedWindow.spent_le {cap W : Nat} {h : List (Nat × Bool)} (hf : FixedWindow cap W h)
    (s : Nat) : spent W h s ≤ cap := by
  induction h using List.reverseRecOn with
  | nil => exact Nat.zero_le cap
  | append_singleton h x ih =>
    obtain ⟨t, ok⟩ := x
    obtain ⟨hh, hx⟩ := fixedWindow_concat.mp hf
    rw [spent_concat]
    by_cases hs : (ok && startOf W (lastStart W h) t == s) = true
    · rw [if_pos hs]
      obtain ⟨hok, hstart⟩ := Bool.and_eq_true_iff.mp hs
      rw [beq_iff_eq.mp hstart] at hx
      exact hx.mp hok
    · rw [if_neg hs]
      exact ih hh

/-- Admitted requests that share a window are `cap` at most. -/
theorem FixedWindow.count_of_same_window {cap W : Nat} {h : List (Nat × Bool)}
    (hf : FixedWindow cap W h) {p : Stamped → Bool}
    (hsame : ∀ e ∈ stamp W h, ∀ e' ∈ stamp W h, p e = true → p e' = true → e.start = e'.start) :
    (stamp W h).countP (fun e => e.admitted && p e) ≤ cap := by
  by_cases hnone : ∃ e ∈ stamp W h, p e = true
  · obtain ⟨e₀, he₀, hp₀⟩ := hnone
    refine Nat.le_trans (List.countP_mono_left ?_) (hf.spent_le e₀.start)
    intro e he hpe
    obtain ⟨hadm, hp⟩ := Bool.and_eq_true_iff.mp hpe
    exact Bool.and_eq_true_iff.mpr ⟨hadm, beq_iff_eq.mpr (hsame e he e₀ he₀ hp hp₀)⟩
  · have hzero : (stamp W h).countP (fun e => e.admitted && p e) = 0 := by
      rw [List.countP_eq_zero]
      intro e he hpe
      exact hnone ⟨e, he, (Bool.and_eq_true_iff.mp hpe).2⟩
    rw [hzero]
    exact Nat.zero_le cap

/-- The times of a history do not decrease. -/
def Ordered (h : List (Nat × Bool)) : Prop := (h.map (·.1)).Pairwise (· ≤ ·)

theorem ordered_concat {h : List (Nat × Bool)} {t : Nat} {ok : Bool} :
    Ordered (h ++ [(t, ok)]) ↔ Ordered h ∧ ∀ e ∈ h, e.1 ≤ t := by
  rw [Ordered, List.map_append, List.pairwise_append]
  constructor
  · rintro ⟨hh, -, hle⟩
    exact ⟨hh, fun e he => hle e.1 (List.mem_map_of_mem he) t (List.mem_singleton.mpr rfl)⟩
  · rintro ⟨hh, hle⟩
    refine ⟨hh, List.pairwise_singleton _ _, fun a ha b hb => ?_⟩
    obtain ⟨e, he, rfl⟩ := List.mem_map.mp ha
    obtain rfl := List.mem_singleton.mp hb
    exact hle e he

/-- In a history whose times do not decrease no request comes before the opening of its window. -/
theorem Ordered.start_le {W : Nat} {h : List (Nat × Bool)} (ho : Ordered h) :
    (∀ e ∈ stamp W h, e.start ≤ e.time) ∧ ∀ s, lastStart W h = some s → ∃ e ∈ h, s ≤ e.1 := by
  induction h using List.reverseRecOn with
  | nil => exact ⟨fun _ he => absurd he List.not_mem_nil, fun _ hs => absurd hs (Option.some_ne_none _).symm⟩
  | append_singleton h x ih =>
    obtain ⟨t, ok⟩ := x
    obtain ⟨hh, ht⟩ := ordered_concat.mp ho
    obtain ⟨hstamp, hlast⟩ := ih hh
    have hnew : startOf W (lastStart W h) t ≤ t := by
      cases hcur : lastStart W h with
      | none => exact Nat.le_refl t
      | some s =>
        rw [startOf]
        split
        · exact Nat.le_refl t
        · obtain ⟨e, he, hse⟩ := hlast s hcur
          exact Nat.le_trans hse (ht e he)
    constructor
    · intro e he
      rw [stamp_concat, List.mem_append, List.mem_singleton] at he
      rcases he with he | rfl
      · exact hstamp e he
      · exact hnew
    · intro s hs
      rw [lastStart_concat] at hs
      obtain rfl := Option.some.inj hs
      exact ⟨(t, ok), by simp, hnew⟩

theorem map_stamp (W : Nat) (h : List (Nat × Bool)) :
    (stamp W h).map (fun e => (e.time, e.admitted)) = h := by
  induction h using List.reverseRecOn with
  | nil => rfl
  | append_singleton h x ih =>
    rw [stamp_concat, List.map_append, ih]
    rfl

/-- How many requests were admitted from `u` on, for as long as `W`. -/
def admittedFrom (W u : Nat) (h : List (Nat × Bool)) : Nat :=
  h.countP fun e => e.2 && (decide (u ≤ e.1) && decide (e.1 < u + W))

theorem admittedFrom_eq (W u : Nat) (h : List (Nat × Bool)) :
    admittedFrom W u h =
      (stamp W h).countP fun e =>
        e.admitted && (decide (u ≤ e.time) && decide (e.time < u + W)) := by
  rw [admittedFrom]
  conv_lhs => rw [← map_stamp W h]
  rw [List.countP_map]
  rfl

/-- Two predicates that cover a third count at least as much together. -/
theorem countP_le_add {α : Type} {p q r : α → Bool} {l : List α}
    (hpqr : ∀ a ∈ l, p a = true → q a = true ∨ r a = true) :
    l.countP p ≤ l.countP q + l.countP r := by
  induction l with
  | nil => exact Nat.le_refl 0
  | cons a l ih =>
    have hrest := ih fun b hb => hpqr b (List.mem_cons_of_mem a hb)
    rw [List.countP_cons, List.countP_cons, List.countP_cons]
    by_cases hp : p a = true
    · rcases hpqr a List.mem_cons_self hp with hq | hr
      · rw [if_pos hp, if_pos hq]
        omega
      · rw [if_pos hp, if_pos hr]
        omega
    · rw [if_neg hp]
      omega

/-- **Any span of length `W` holds at most `2 * cap` admitted requests.** -/
theorem FixedWindow.count_span_le {cap W : Nat} {h : List (Nat × Bool)} (hW : 0 < W)
    (hf : FixedWindow cap W h) (ho : Ordered h) (u : Nat) : admittedFrom W u h ≤ 2 * cap := by
  obtain ⟨hlt, hapart, -⟩ := windows_of_pos hW h
  have hle := (ho.start_le (W := W)).1
  -- a request of the span is in a window opened by `u`, or in one opened later
  let early : Stamped → Bool := fun e => decide (u ≤ e.time) && decide (e.start ≤ u)
  let late : Stamped → Bool := fun e => decide (e.time < u + W) && decide (u < e.start)
  have hearly : (stamp W h).countP (fun e => e.admitted && early e) ≤ cap := by
    refine hf.count_of_same_window fun e he e' he' hp hp' => ?_
    simp only [early, Bool.and_eq_true, decide_eq_true_eq] at hp hp'
    have h1 := hlt e he
    have h2 := hlt e' he'
    rcases Nat.lt_trichotomy e.start e'.start with hee | hee | hee
    · have := hapart e he e' he' hee
      omega
    · exact hee
    · have := hapart e' he' e he hee
      omega
  have hlate : (stamp W h).countP (fun e => e.admitted && late e) ≤ cap := by
    refine hf.count_of_same_window fun e he e' he' hp hp' => ?_
    simp only [late, Bool.and_eq_true, decide_eq_true_eq] at hp hp'
    have h1 := hle e he
    have h2 := hle e' he'
    rcases Nat.lt_trichotomy e.start e'.start with hee | hee | hee
    · have := hapart e he e' he' hee
      omega
    · exact hee
    · have := hapart e' he' e he hee
      omega
  -- and no request is in neither
  have hsplit : admittedFrom W u h ≤
      (stamp W h).countP (fun e => e.admitted && early e) +
        (stamp W h).countP (fun e => e.admitted && late e) := by
    rw [admittedFrom_eq]
    refine countP_le_add fun e _ hin => ?_
    simp only [Bool.and_eq_true, decide_eq_true_eq, early, late] at hin ⊢
    rcases Nat.lt_or_ge u e.start with hs | hs
    · exact Or.inr ⟨hin.1, hin.2.2, hs⟩
    · exact Or.inl ⟨hin.1, hin.2.1, hs⟩
  omega

end E2EMessaging.Lib
