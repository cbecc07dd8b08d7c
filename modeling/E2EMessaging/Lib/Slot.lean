/-
  ONE-SLOT STORES WITH EXPIRY, seen through their history.

  A slot holds at most one value.  `put` replaces whatever is there, `take` empties the slot and
  answers with the value unless it has expired, `clear` empties it.  A store with many keys is many
  slots over ONE history: the entries that concern the slot are `some` use, all others are `none`,
  so that positions in the history mean the same for every slot.

  `heldAt h n` is the slot before entry `n`, together with the POSITION OF THE PUT it comes from.
  `heldAt_eq_some_iff` characterises it: the put at that position, and nothing since.  From there:

  * `taken_once`     — no value is taken twice: two takes never answer with the same put;
  * `taken_of_empty` — no value is lost: if puts and clears only ever meet an empty or expired slot,
                       a value whose slot is later found empty before its expiry has been taken.
-/
import Mathlib.Data.List.Basic
import Mathlib.Data.Nat.Find

namespace E2EMessaging.Lib

variable {V : Type}

/-! ## Slots and their history -/

/-- What is done to a slot, and when. -/
inductive Use (V : Type) where
  | put (value : V) (expiry now : Nat)
  | take (now : Nat)
  | clear (now : Nat)
  deriving Repr, DecidableEq

/-- The time of a use. -/
def Use.now : Use V → Nat
  | .put _ _ now => now
  | .take now => now
  | .clear now => now

/-- The content of a slot, and the position in the history of the put it comes from. -/
structure Held (V : Type) where
  source : Nat
  value : V
  expiry : Nat
  deriving Repr, DecidableEq

/-- The answer to a take. -/
inductive Taken (V : Type) where
  | empty
  | expired
  | got (value : V)
  deriving Repr, DecidableEq

/-- What a take at time `now` answers. -/
def taken (held : Option (Held V)) (now : Nat) : Taken V :=
  match held with
  | none => .empty
  | some x => if x.expiry < now then .expired else .got x.value

/-- A history: each entry either concerns the slot or does not. -/
abbrev History (V : Type) := List (Option (Use V))

/-- The slot after use number `n` of its history. -/
def Use.leaves (n : Nat) : Use V → Option (Held V)
  | .put v e _ => some ⟨n, v, e⟩
  | .take _ => none
  | .clear _ => none

/-- The slot before entry `n`. -/
def heldAt (h : History V) : Nat → Option (Held V)
  | 0 => none
  | n + 1 =>
    match h[n]? with
    | some (some u) => u.leaves n
    | _ => heldAt h n

/-- Entry `n` does not concern the slot. -/
def Untouched (h : History V) (n : Nat) : Prop := ∀ u, h[n]? ≠ some (some u)

theorem heldAt_succ_of_use {h : History V} {n : Nat} {u : Use V} (hu : h[n]? = some (some u)) :
    heldAt h (n + 1) = u.leaves n := by
  rw [heldAt, hu]

theorem heldAt_succ_of_untouched {h : History V} {n : Nat} (hn : Untouched h n) :
    heldAt h (n + 1) = heldAt h n := by
  rw [heldAt]
  split
  · rename_i u hu
    exact absurd hu (hn u)
  · rfl

theorem touched_or_untouched (h : History V) (n : Nat) :
    (∃ u, h[n]? = some (some u)) ∨ Untouched h n := by
  by_cases hu : ∃ u, h[n]? = some (some u)
  · exact .inl hu
  · exact .inr (fun u hn => hu ⟨u, hn⟩)

/-- What is before entry `n` does not depend on what comes after. -/
theorem heldAt_append (h t : History V) {n : Nat} (hn : n ≤ h.length) :
    heldAt (h ++ t) n = heldAt h n := by
  induction n with
  | zero => rfl
  | succ n ih =>
    have hget : (h ++ t)[n]? = h[n]? := List.getElem?_append_left (Nat.lt_of_succ_le hn)
    rw [heldAt, heldAt, hget, ih (Nat.le_of_succ_le hn)]

/-- The slot after one more entry. -/
theorem heldAt_concat (h : History V) (e : Option (Use V)) :
    heldAt (h ++ [e]) (h ++ [e]).length =
      match e with
      | some u => u.leaves h.length
      | none => heldAt h h.length := by
  rw [List.length_append, List.length_singleton]
  have hlast : (h ++ [e])[h.length]? = some e := List.getElem?_concat_length
  cases e with
  | some u => exact heldAt_succ_of_use hlast
  | none =>
    have hunt : Untouched (h ++ [none]) h.length := by
      intro u hu
      rw [hlast] at hu
      simp at hu
    rw [heldAt_succ_of_untouched hunt, heldAt_append h [none] (Nat.le_refl _)]

/-! ## Slots of a log -/

variable {E : Type}

/-- The slot after a log whose entries use it as `use` says. -/
def slotOf (use : E → Option (Use V)) (log : List E) : Option (Held V) :=
  heldAt (log.map use) log.length

theorem slotOf_concat (use : E → Option (Use V)) (log : List E) (e : E) :
    slotOf use (log ++ [e]) =
      match use e with
      | some u => u.leaves log.length
      | none => slotOf use log := by
  have h := heldAt_concat (log.map use) (use e)
  rw [List.length_append, List.length_map, List.length_singleton] at h
  rw [slotOf, List.map_append, List.map_singleton, List.length_append, List.length_singleton, h]
  cases use e <;> rfl

theorem slotOf_concat_other {use : E → Option (Use V)} {log : List E} {e : E}
    (h : use e = none) : slotOf use (log ++ [e]) = slotOf use log := by
  rw [slotOf_concat, h]

/-- What a slot holds at a position of the log does not change when the log grows. -/
theorem heldAt_map_concat (use : E → Option (Use V)) (log : List E) (e : E) {k : Nat}
    (hk : k ≤ log.length) : heldAt ((log ++ [e]).map use) k = heldAt (log.map use) k := by
  rw [List.map_append]
  exact heldAt_append _ _ (by rw [List.length_map]; exact hk)

/-! ## What is in a slot -/

/-- **The content of a slot**: a put before, and nothing that concerns the slot since. -/
theorem heldAt_eq_some_iff (h : History V) (n : Nat) (x : Held V) :
    heldAt h n = some x ↔
      x.source < n ∧ (∃ now, h[x.source]? = some (some (.put x.value x.expiry now))) ∧
        ∀ m, x.source < m → m < n → Untouched h m := by
  induction n with
  | zero => simp [heldAt]
  | succ n ih =>
    rcases touched_or_untouched h n with ⟨u, hu⟩ | hunt
    · -- the last entry decides
      rw [heldAt_succ_of_use hu]
      constructor
      · intro hx
        cases u with
        | put v e now =>
          obtain rfl : (⟨n, v, e⟩ : Held V) = x := by simpa [Use.leaves] using hx
          exact ⟨Nat.lt_succ_self _, ⟨now, hu⟩, fun m hm hm' => absurd hm' (Nat.not_lt.mpr hm)⟩
        | take now => simp [Use.leaves] at hx
        | clear now => simp [Use.leaves] at hx
      · rintro ⟨hlt, ⟨now, hput⟩, hunt⟩
        rcases Nat.lt_or_ge x.source n with hsrc | hsrc
        · exact absurd hu (hunt n hsrc (Nat.lt_succ_self n) u)
        · obtain rfl : x.source = n := by omega
          obtain rfl : Use.put x.value x.expiry now = u := by simpa [hput] using hu
          rfl
    · rw [heldAt_succ_of_untouched hunt, ih]
      constructor
      · rintro ⟨hlt, hput, hall⟩
        refine ⟨Nat.lt_succ_of_lt hlt, hput, ?_⟩
        intro m hm hm'
        rcases Nat.lt_or_ge m n with hlt' | hge
        · exact hall m hm hlt'
        · obtain rfl : m = n := by omega
          exact hunt
      · rintro ⟨hlt, ⟨now, hput⟩, hall⟩
        have hne : x.source ≠ n := by
          intro heq
          rw [heq] at hput
          exact hunt _ hput
        exact ⟨by omega, ⟨now, hput⟩, fun m hm hm' => hall m hm (by omega)⟩

/-- A put stays in its slot as long as nothing concerns the slot. -/
theorem heldAt_of_put {h : History V} {i n : Nat} {v : V} {e now : Nat}
    (hput : h[i]? = some (some (.put v e now))) (hin : i < n)
    (hunt : ∀ m, i < m → m < n → Untouched h m) : heldAt h n = some ⟨i, v, e⟩ :=
  (heldAt_eq_some_iff h n ⟨i, v, e⟩).mpr ⟨hin, ⟨now, hput⟩, hunt⟩

/-- A take that answers with a value answers with the value held. -/
theorem taken_eq_got_iff {held : Option (Held V)} {now : Nat} {v : V} :
    taken held now = .got v ↔ ∃ x, held = some x ∧ now ≤ x.expiry ∧ x.value = v := by
  cases held with
  | none => simp [taken]
  | some x =>
    by_cases hx : x.expiry < now
    · simp [taken, hx, Nat.not_le.mpr hx]
    · simp [taken, hx, Nat.not_lt.mp hx]

/-- A take that answers `expired` found a value past its expiry. -/
theorem taken_eq_expired_iff {held : Option (Held V)} {now : Nat} :
    taken held now = .expired ↔ ∃ x, held = some x ∧ x.expiry < now := by
  cases held with
  | none => simp [taken]
  | some x =>
    by_cases hx : x.expiry < now
    · simp [taken, hx]
    · simp [taken, hx]

/-! ## At most once, and not lost -/

/-- **No value is taken twice.** -/
theorem taken_once {h : History V} {j j' : Nat} {x x' : Held V} {now now' : Nat}
    (hj : h[j]? = some (some (.take now))) (hj' : h[j']? = some (some (.take now')))
    (hx : heldAt h j = some x) (hx' : heldAt h j' = some x') (hsrc : x.source = x'.source) :
    j = j' := by
  obtain ⟨hlt, -, hall⟩ := (heldAt_eq_some_iff h j x).mp hx
  obtain ⟨hlt', -, hall'⟩ := (heldAt_eq_some_iff h j' x').mp hx'
  rcases Nat.lt_trichotomy j j' with hjj | heq | hjj
  · exact absurd hj (hall' j (by omega) hjj _)
  · exact heq
  · exact absurd hj' (hall j' (by omega) hjj _)

/-- Use number `n`, unless it is a take, finds the slot empty or expired. -/
def Gentle (h : History V) (n : Nat) : Prop :=
  ∀ u, h[n]? = some (some u) → (∀ now, u ≠ .take now) → ∀ x, heldAt h n = some x → x.expiry < u.now

/-- The first entry after a put that concerns the slot, if one before `k` does. -/
theorem first_touch {h : History V} {i k : Nat} (hk : ∃ m, i < m ∧ m < k ∧ ¬ Untouched h m) :
    ∃ m, i < m ∧ m < k ∧ ¬ Untouched h m ∧ ∀ m', i < m' → m' < m → Untouched h m' := by
  classical
  have hspec := Nat.find_spec hk
  refine ⟨Nat.find hk, hspec.1, hspec.2.1, hspec.2.2, ?_⟩
  intro m' hm' hlt
  by_contra hunt
  exact Nat.find_min hk hlt ⟨hm', by omega, hunt⟩

/-- **No value is lost**: a put at `i`, the slot found empty at `k` before the put's expiry — then
    some take in between answered with it. -/
theorem taken_of_empty {h : History V} {i k : Nat} {v : V} {e now : Nat}
    (hput : h[i]? = some (some (.put v e now))) (hik : i < k) (hempty : heldAt h k = none)
    (hgentle : ∀ n, n < k → Gentle h n)
    (hnow : ∀ n u, i < n → n < k → h[n]? = some (some u) → u.now ≤ e) :
    ∃ j t, i < j ∧ j < k ∧ h[j]? = some (some (.take t)) ∧ heldAt h j = some ⟨i, v, e⟩ ∧ t ≤ e := by
  have htouched : ∃ m, i < m ∧ m < k ∧ ¬ Untouched h m := by
    by_contra hno
    have hheld := heldAt_of_put hput hik (fun m hm hm' => by
      by_contra hunt
      exact hno ⟨m, hm, hm', hunt⟩)
    rw [hempty] at hheld
    cases hheld
  obtain ⟨m, him, hmk, htouch, hfirst⟩ := first_touch htouched
  have hheld := heldAt_of_put hput him hfirst
  rcases touched_or_untouched h m with ⟨u, hu⟩ | hunt
  · have hue := hnow m u him hmk hu
    by_cases htake : ∃ t, u = .take t
    · obtain ⟨t, rfl⟩ := htake
      exact ⟨m, t, him, hmk, hu, hheld, hue⟩
    · -- a put or a clear would have met an unexpired value
      have hlt := hgentle m hmk u hu (fun t ht => htake ⟨t, ht⟩) _ hheld
      dsimp only at hlt
      omega
  · exact absurd hunt htouch

end E2EMessaging.Lib
