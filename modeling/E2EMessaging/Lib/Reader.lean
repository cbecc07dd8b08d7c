/-
  READERS OF BYTE STRINGS, and what it means that a format is read EXACTLY.

  A reader finds its values at positions of a byte string: it starts at an offset and returns a value
  with the offset behind it.  What it has read is then a segment of the string, and `Spans bs i w j`
  says which: `w` stands in `bs` from `i` up to `j`.

    * `Spans` composes along a concatenation (`spans_append`), and a segment that reaches from the
      start to the end is the whole string (`spans_whole`);
    * `byteAt`, `slice` and four consecutive bytes succeed exactly where there is a segment to read
      (`byteAt_eq_ok`, `slice_eq_ok`, `fourBytes_eq_ok`).

  A reader is EXACT when it succeeds on what the writer writes and on nothing else.  Each of the
  lemmas here is an equivalence for that reason: read from left to right it inverts a successful
  read, from right to left it reads back what was written.
-/
import E2EMessaging.Lib.Codec

namespace E2EMessaging.Lib

/-! ## Sequencing -/

namespace Outcome

variable {ε α β : Type}

@[simp] theorem err_bind (e : ε) (f : α → Outcome ε β) : (err e >>= f) = err e := rfl

@[simp] theorem panic_bind (f : α → Outcome ε β) : ((panic : Outcome ε α) >>= f) = panic := rfl

theorem ok_ne_panic (a : α) : (ok a : Outcome ε α) ≠ panic := by
  intro h
  cases h

theorem err_ne_panic (e : ε) : (err e : Outcome ε α) ≠ panic := by
  intro h
  cases h

/-- A sequence panics only if its first or its second part does. -/
theorem bind_ne_panic {x : Outcome ε α} {f : α → Outcome ε β} (hx : x ≠ panic)
    (hf : ∀ v, x = ok v → f v ≠ panic) : (x >>= f) ≠ panic := by
  cases x with
  | ok v => exact hf v rfl
  | err e => exact err_ne_panic e
  | panic => exact absurd rfl hx

/-- A computation that only fails or succeeds does not panic once it is read as an outcome. -/
theorem ofExcept_ne_panic (x : Except ε α) : ofExcept x ≠ panic := by
  cases x with
  | ok a => exact ok_ne_panic a
  | error e => exact err_ne_panic e

theorem ofExcept_bind (x : Except ε α) (f : α → Except ε β) :
    ofExcept (x >>= f) = ofExcept x >>= fun a => ofExcept (f a) := by
  cases x with
  | ok a => rfl
  | error e => rfl

/-- A sequence succeeds when both parts do. -/
theorem bind_eq_ok {x : Outcome ε α} {f : α → Outcome ε β} {b : β} :
    (x >>= f) = ok b ↔ ∃ a, x = ok a ∧ f a = ok b := by
  cases x with
  | ok a => simp
  | err e => simp
  | panic => simp

/-- The computation succeeds, or reports this one error; it neither panics nor reports another. -/
def FailsOnlyWith (x : Outcome ε α) (e : ε) : Prop := (∃ v, x = ok v) ∨ x = err e

theorem failsOnlyWith_ok (v : α) (e : ε) : (ok v : Outcome ε α).FailsOnlyWith e := .inl ⟨v, rfl⟩

theorem failsOnlyWith_err (e : ε) : (err e : Outcome ε α).FailsOnlyWith e := .inr rfl

/-- If both parts fail in one way only, so does their sequence: a reader is checked part by part. -/
theorem FailsOnlyWith.bind {x : Outcome ε α} {f : α → Outcome ε β} {e : ε} (hx : x.FailsOnlyWith e)
    (hf : ∀ v, x = ok v → (f v).FailsOnlyWith e) : (x >>= f).FailsOnlyWith e := by
  rcases hx with ⟨v, rfl⟩ | rfl
  · exact hf v rfl
  · exact .inr rfl

end Outcome

/-- The same for a computation that reports errors only. -/
theorem except_bind_eq_ok {ε α β : Type} {x : Except ε α} {f : α → Except ε β} {b : β} :
    (x >>= f) = .ok b ↔ ∃ a, x = .ok a ∧ f a = .ok b := by
  cases x with
  | ok a => simp [bind, Except.bind]
  | error e => simp [bind, Except.bind]

/-- A subtraction that stays at zero or above does not overflow, on any width. -/
theorem Arch.sub_of_le {ε : Type} {a : Arch} {x y : Nat} (h : y ≤ x) :
    (a.sub x y : Outcome ε Nat) = .ok (x - y) := if_pos h

/-! ## Segments -/

/-- `w` stands in `bs` from `i` up to `j`. -/
def Spans (bs : Bytes) (i : Nat) (w : Bytes) (j : Nat) : Prop :=
  j ≤ bs.length ∧ j = i + w.length ∧ bs.drop i = w ++ bs.drop j

variable {bs v w : Bytes} {i j k : Nat}

theorem Spans.le_length (h : Spans bs i w j) : j ≤ bs.length := h.1

/-- Its end is its start and its length, so a reader's next position is determined by what it has read. -/
theorem Spans.stop_eq (h : Spans bs i w j) : j = i + w.length := h.2.1

/-- It starts there or before as well; `slice` asks for nothing else. -/
theorem Spans.start_le (h : Spans bs i w j) : i ≤ bs.length := by
  have hle := h.le_length
  have heq := h.stop_eq
  omega

/-- A segment is determined by where it starts and where it stops. -/
theorem Spans.eq_take (h : Spans bs i w j) : w = (bs.drop i).take (j - i) := by
  have hlen : j - i = w.length := by
    have heq := h.stop_eq
    omega
  rw [hlen, h.2.2, List.take_left]

/-- Segments one behind the other. -/
theorem spans_append : Spans bs i (v ++ w) k ↔ ∃ j, Spans bs i v j ∧ Spans bs j w k := by
  constructor
  · rintro ⟨hk, hlen, hdrop⟩
    rw [List.length_append] at hlen
    have hrest : bs.drop (i + v.length) = w ++ bs.drop k := by
      rw [← List.drop_drop, hdrop, List.append_assoc, List.drop_left]
    refine ⟨i + v.length, ⟨by omega, rfl, ?_⟩, by omega, by omega, hrest⟩
    rw [hrest, hdrop, List.append_assoc]
  · rintro ⟨j, ⟨-, hj, hdrop⟩, hk, hlen, hdrop'⟩
    refine ⟨hk, ?_, ?_⟩
    · rw [List.length_append]
      omega
    · rw [hdrop, hdrop', List.append_assoc]

theorem Spans.append (hv : Spans bs i v j) (hw : Spans bs j w k) : Spans bs i (v ++ w) k :=
  spans_append.mpr ⟨j, hv, hw⟩

/-- A segment from the start to the end is the whole string. -/
theorem spans_whole : Spans bs 0 w bs.length ↔ w = bs := by
  constructor
  · rintro ⟨-, -, hdrop⟩
    rw [List.drop_zero, List.drop_length, List.append_nil] at hdrop
    exact hdrop.symm
  · rintro rfl
    exact ⟨Nat.le_refl _, (Nat.zero_add _).symm, by simp⟩

/-- A prefix of what is left is a segment. -/
theorem spans_of_drop {rest : Bytes} (hi : i ≤ bs.length) (h : bs.drop i = w ++ rest) :
    rest = bs.drop (i + w.length) ∧ Spans bs i w (i + w.length) := by
  have hrest : rest = bs.drop (i + w.length) := by
    rw [← List.drop_drop, h, List.drop_left]
  have hlen := congrArg List.length h
  rw [List.length_drop, List.length_append] at hlen
  exact ⟨hrest, by omega, rfl, hrest ▸ h⟩

theorem spans_nil (h : i ≤ bs.length) : Spans bs i [] i := ⟨h, rfl, rfl⟩

/-- In range, there is a segment. -/
theorem spans_of_le (hij : i ≤ j) (hj : j ≤ bs.length) : Spans bs i ((bs.drop i).take (j - i)) j := by
  refine ⟨hj, ?_, ?_⟩
  · rw [List.length_take, List.length_drop]
    omega
  · have heq : j = i + (j - i) := by omega
    calc bs.drop i = (bs.drop i).take (j - i) ++ (bs.drop i).drop (j - i) :=
          (List.take_append_drop _ _).symm
      _ = (bs.drop i).take (j - i) ++ bs.drop j := by rw [List.drop_drop, ← heq]

/-- A byte at a position is a segment of length one. -/
theorem getElem?_eq_some_iff_spans {b : UInt8} : bs[i]? = some b ↔ Spans bs i [b] (i + 1) := by
  constructor
  · intro h
    obtain ⟨hlt, rfl⟩ := List.getElem?_eq_some_iff.mp h
    exact ⟨hlt, rfl, List.drop_eq_getElem_cons hlt⟩
  · rintro ⟨hle, -, hdrop⟩
    have hlt : i < bs.length := hle
    rw [List.drop_eq_getElem_cons hlt] at hdrop
    have hb : bs[i] = b := (List.cons.inj hdrop).1
    rw [List.getElem?_eq_getElem hlt, hb]

/-! ## Bytes and slices at a position -/

/-- Indexing succeeds exactly where there is such a segment; elsewhere it panics. -/
theorem byteAt_eq_ok {ε : Type} {b : UInt8} :
    (byteAt bs i : Outcome ε UInt8) = .ok b ↔ Spans bs i [b] (i + 1) := by
  rw [← getElem?_eq_some_iff_spans, byteAt]
  cases bs[i]? with
  | none => simp
  | some b' => simp

/-- Slicing succeeds exactly where there is a segment.  Every reader below goes back to this. -/
theorem slice_eq_ok {ε : Type} : (slice bs i j : Outcome ε Bytes) = .ok w ↔ Spans bs i w j := by
  constructor
  · intro h
    rw [slice] at h
    split at h
    · rename_i hb
      cases h
      exact spans_of_le hb.1 hb.2
    · cases h
  · intro h
    have heq := h.stop_eq
    rw [slice_in_range (by omega) h.le_length, ← h.eq_take]

/-- In range, there is a byte and there is a slice. -/
theorem byteAt_of_lt {ε : Type} (h : i < bs.length) :
    ∃ b, (byteAt bs i : Outcome ε UInt8) = .ok b ∧ Spans bs i [b] (i + 1) := by
  have hb : (byteAt bs i : Outcome ε UInt8) = .ok bs[i] := by
    rw [byteAt, List.getElem?_eq_getElem h]
  exact ⟨bs[i], hb, byteAt_eq_ok.mp hb⟩

/-- Bounds in order and in range are enough for a slice. -/
theorem slice_of_le {ε : Type} (hij : i ≤ j) (hj : j ≤ bs.length) :
    ∃ w, (slice bs i j : Outcome ε Bytes) = .ok w ∧ Spans bs i w j :=
  ⟨_, slice_in_range hij hj, spans_of_le hij hj⟩

/-- Four consecutive bytes, each at its own computed position. -/
theorem fourBytes_eq_ok {ε β : Type} {a : Arch} (ha : bs.length < 2 ^ a.bits)
    {f : UInt8 → UInt8 → UInt8 → UInt8 → Outcome ε β} {r : β} :
    (do
      let b0 ← byteAt bs i
      let b1 ← byteAt bs (← a.add i 1)
      let b2 ← byteAt bs (← a.add i 2)
      let b3 ← byteAt bs (← a.add i 3)
      f b0 b1 b2 b3) = .ok r ↔
    ∃ b0 b1 b2 b3, Spans bs i [b0, b1, b2, b3] (i + 4) ∧ f b0 b1 b2 b3 = .ok r := by
  simp only [Outcome.bind_eq_ok, byteAt_eq_ok]
  constructor
  · rintro ⟨b0, h0, i1, hi1, b1, h1, i2, hi2, b2, h2, i3, hi3, b3, h3, hf⟩
    -- a byte was read at `i`, so none of the additions overflows before its own byte is checked
    have hlt : i + 1 < 2 ^ a.bits := Nat.lt_of_le_of_lt h0.le_length ha
    rw [Arch.add_of_lt hlt] at hi1
    cases hi1
    have hlt : i + 2 < 2 ^ a.bits := Nat.lt_of_le_of_lt h1.le_length ha
    rw [Arch.add_of_lt hlt] at hi2
    cases hi2
    have hlt : i + 3 < 2 ^ a.bits := Nat.lt_of_le_of_lt h2.le_length ha
    rw [Arch.add_of_lt hlt] at hi3
    cases hi3
    refine ⟨b0, b1, b2, b3, ?_, hf⟩
    exact ((h0.append h1).append h2).append h3
  · rintro ⟨b0, b1, b2, b3, h, hf⟩
    have hlt : i + 4 < 2 ^ a.bits := Nat.lt_of_le_of_lt h.le_length ha
    have h' : Spans bs i ([b0] ++ ([b1] ++ ([b2] ++ [b3]))) (i + 4) := h
    obtain ⟨i1, h0, h'⟩ := spans_append.mp h'
    obtain ⟨i2, h1, h'⟩ := spans_append.mp h'
    obtain ⟨i3, h2, h3⟩ := spans_append.mp h'
    obtain rfl : i1 = i + 1 := h0.stop_eq
    obtain rfl : i2 = i + 2 := h1.stop_eq
    obtain rfl : i3 = i + 3 := h2.stop_eq
    exact ⟨b0, h0, i + 1, Arch.add_of_lt (by omega), b1, h1, i + 2, Arch.add_of_lt (by omega), b2,
      h2, i + 3, Arch.add_of_lt (by omega), b3, h3, hf⟩

/-! ## Numbers -/

/-- A number read from so many bytes fits in so many bytes. -/
theorem fromLeBytes_lt (bs : Bytes) : fromLeBytes bs < 256 ^ bs.length := by
  induction bs with
  | nil => decide
  | cons b bs ih =>
    have hb : b.toNat < 256 := b.toNat_lt
    rw [fromLeBytes, List.length_cons, Nat.pow_succ]
    omega

/-- Written back, it gives the bytes it was read from. -/
theorem toLeBytes_fromLeBytes (bs : Bytes) : toLeBytes bs.length (fromLeBytes bs) = bs := by
  induction bs with
  | nil => rfl
  | cons b bs ih =>
    have hb : b.toNat < 256 := b.toNat_lt
    have hdiv : (b.toNat + 256 * fromLeBytes bs) / 256 = fromLeBytes bs := by omega
    have hmod : UInt8.ofNat (b.toNat + 256 * fromLeBytes bs) = b := by
      apply UInt8.toNat_inj.mp
      rw [UInt8.toNat_ofNat']
      omega
    rw [List.length_cons, fromLeBytes, toLeBytes, hdiv, ih, hmod]

/-- The same in the other order: what is read fits. -/
theorem fromBeBytes_lt (bs : Bytes) : fromBeBytes bs < 256 ^ bs.length := by
  have h := fromLeBytes_lt bs.reverse
  rwa [List.length_reverse] at h

theorem toBeBytes_fromBeBytes (bs : Bytes) : toBeBytes bs.length (fromBeBytes bs) = bs := by
  have h := toLeBytes_fromLeBytes bs.reverse
  rw [List.length_reverse] at h
  rw [toBeBytes, fromBeBytes, h, List.reverse_reverse]

/-- A number that fits is read as it was written. -/
theorem fromBeBytes_toBeBytes_of_lt {w n : Nat} (h : n < 256 ^ w) :
    fromBeBytes (toBeBytes w n) = n := by
  rw [fromBeBytes, toBeBytes, List.reverse_reverse, fromLeBytes_toLeBytes_of_lt h]

/-- Four bytes are a number below `2^32`, and every such number is four bytes. -/
theorem fourBytes_iff {n : Nat} {c : Bytes} :
    (n < 2 ^ 32 ∧ c = toBeBytes 4 n) ↔ (c.length = 4 ∧ n = fromBeBytes c) := by
  constructor
  · rintro ⟨hn, rfl⟩
    exact ⟨length_toBeBytes 4 n, (fromBeBytes_toBeBytes_of_lt hn).symm⟩
  · rintro ⟨hc, rfl⟩
    have hlt := fromBeBytes_lt c
    have hback := toBeBytes_fromBeBytes c
    rw [hc] at hlt hback
    exact ⟨hlt, hback.symm⟩

/-- A byte string behind its four-byte length, at the front of a string. -/
theorem withLength_be32_iff {field rest : Bytes} :
    (field.length < 2 ^ 32 ∧ bs = withLength (toBeBytes 4) field ++ rest) ↔
      4 ≤ bs.length ∧ fromBeBytes (bs.take 4) ≤ (bs.drop 4).length ∧
        field = (bs.drop 4).take (fromBeBytes (bs.take 4)) ∧
        rest = (bs.drop 4).drop (fromBeBytes (bs.take 4)) := by
  constructor
  · rintro ⟨hlt, rfl⟩
    have htake : (withLength (toBeBytes 4) field ++ rest).take 4 = toBeBytes 4 field.length := by
      rw [withLength, List.append_assoc, List.take_left' (length_toBeBytes 4 _)]
    have hdrop : (withLength (toBeBytes 4) field ++ rest).drop 4 = field ++ rest := by
      rw [withLength, List.append_assoc, List.drop_left' (length_toBeBytes 4 _)]
    rw [htake, hdrop, fromBeBytes_toBeBytes_of_lt hlt, List.take_left, List.drop_left]
    refine ⟨?_, ?_, rfl, rfl⟩
    · rw [withLength, List.length_append, List.length_append, length_toBeBytes]
      omega
    · rw [List.length_append]
      omega
  · rintro ⟨hfour, hfits, rfl, rfl⟩
    have hlen : (bs.take 4).length = 4 := List.length_take_of_le hfour
    obtain ⟨hlt, hback⟩ := fourBytes_iff.mpr ⟨hlen, rfl⟩
    have hcount := List.length_take_of_le hfits
    refine ⟨hcount.symm ▸ hlt, ?_⟩
    rw [withLength, hcount, ← hback, List.append_assoc, List.take_append_drop,
      List.take_append_drop]

/-! ## Numbers and length-prefixed segments at a position

The two reads a length-prefixed format is made of, as the code does them: the remaining length is
checked before anything is read, and whatever comes next (`f`) gets the offset behind. -/

section

variable {ε β : Type} {a : Arch} {r : β}

/-- A big-endian `u32`, taken byte by byte. -/
theorem be32_eq_ok (ha : bs.length < 2 ^ a.bits) {e : ε} (f : Nat → Nat → Outcome ε β) :
    (do
      let remaining ← a.sub bs.length i
      if remaining < 4 then .err e
      else do
        let b0 ← byteAt bs i
        let b1 ← byteAt bs (← a.add i 1)
        let b2 ← byteAt bs (← a.add i 2)
        let b3 ← byteAt bs (← a.add i 3)
        let next ← a.add i 4
        f (fromBeBytes [b0, b1, b2, b3]) next) = .ok r ↔
    ∃ n, n < 2 ^ 32 ∧ Spans bs i (toBeBytes 4 n) (i + 4) ∧ f n (i + 4) = .ok r := by
  rw [Outcome.bind_eq_ok]
  constructor
  · rintro ⟨remaining, -, h⟩
    split at h
    · cases h
    · rw [fourBytes_eq_ok ha] at h
      obtain ⟨b0, b1, b2, b3, hspan, h⟩ := h
      rw [Arch.add_of_lt (Nat.lt_of_le_of_lt hspan.le_length ha), Outcome.ok_bind] at h
      obtain ⟨hn, hback⟩ := fourBytes_iff (c := [b0, b1, b2, b3]).mpr ⟨rfl, rfl⟩
      rw [hback] at hspan
      exact ⟨_, hn, hspan, h⟩
  · rintro ⟨n, hn, hspan, h⟩
    have hle := hspan.le_length
    refine ⟨bs.length - i, Arch.sub_of_le hspan.start_le, ?_⟩
    rw [if_neg (by omega), fourBytes_eq_ok ha]
    obtain ⟨b0, b1, b2, b3, hb⟩ : ∃ b0 b1 b2 b3, toBeBytes 4 n = [b0, b1, b2, b3] :=
      ⟨_, _, _, _, rfl⟩
    refine ⟨b0, b1, b2, b3, hb ▸ hspan, ?_⟩
    rw [Arch.add_of_lt (by omega), Outcome.ok_bind, ← hb, fromBeBytes_toBeBytes_of_lt hn]
    exact h

/-- A segment of a given length. -/
theorem segment_eq_ok (ha : bs.length < 2 ^ a.bits) (hi : i ≤ bs.length) {len : Nat} {e : ε}
    (f : Bytes → Nat → Outcome ε β) :
    (do
      let remaining ← a.sub bs.length i
      if remaining < len then .err e
      else do
        let stop ← a.add i len
        let segment ← slice bs i stop
        f segment stop) = .ok r ↔
    ∃ segment, segment.length = len ∧ Spans bs i segment (i + len) ∧
      f segment (i + len) = .ok r := by
  rw [Arch.sub_of_le hi, Outcome.ok_bind]
  by_cases hfits : bs.length - i < len
  · rw [if_pos hfits]
    constructor
    · intro h
      cases h
    · rintro ⟨segment, -, hspan, -⟩
      have hle := hspan.le_length
      omega
  · rw [if_neg hfits, Arch.add_of_lt (by omega), Outcome.ok_bind]
    simp only [Outcome.bind_eq_ok, slice_eq_ok]
    constructor
    · rintro ⟨segment, hspan, h⟩
      have hstop := hspan.stop_eq
      exact ⟨segment, by omega, hspan, h⟩
    · rintro ⟨segment, -, hspan, h⟩
      exact ⟨segment, hspan, h⟩

/-! From an offset inside the string both are computations without a panic, the same on every target. -/

/-- At a position in range the checked arithmetic of the reader never overflows: what is left is one comparison, and
    the four bytes. -/
theorem be32_in_range (ha : bs.length < 2 ^ a.bits) (hi : i ≤ bs.length) {e : ε}
    (f : Nat → Nat → Outcome ε β) :
    (do
      let remaining ← a.sub bs.length i
      if remaining < 4 then .err e
      else do
        let b0 ← byteAt bs i
        let b1 ← byteAt bs (← a.add i 1)
        let b2 ← byteAt bs (← a.add i 2)
        let b3 ← byteAt bs (← a.add i 3)
        let next ← a.add i 4
        f (fromBeBytes [b0, b1, b2, b3]) next) =
    if bs.length - i < 4 then .err e else f (fromBeBytes ((bs.drop i).take 4)) (i + 4) := by
  rw [Arch.sub_of_le hi, Outcome.ok_bind]
  split
  · rfl
  · rename_i hfour
    obtain ⟨b0, h0, hs0⟩ := byteAt_of_lt (ε := ε) (show i < bs.length by omega)
    obtain ⟨b1, h1, hs1⟩ := byteAt_of_lt (ε := ε) (show i + 1 < bs.length by omega)
    obtain ⟨b2, h2, hs2⟩ := byteAt_of_lt (ε := ε) (show i + 2 < bs.length by omega)
    obtain ⟨b3, h3, hs3⟩ := byteAt_of_lt (ε := ε) (show i + 3 < bs.length by omega)
    have hbytes : [b0, b1, b2, b3] = (bs.drop i).take 4 := by
      have hspan := (((hs0.append hs1).append hs2).append hs3).eq_take
      rwa [show i + 3 + 1 - i = 4 by omega] at hspan
    rw [h0, Outcome.ok_bind, Arch.add_of_lt (by omega), Outcome.ok_bind, h1, Outcome.ok_bind,
      Arch.add_of_lt (by omega), Outcome.ok_bind, h2, Outcome.ok_bind, Arch.add_of_lt (by omega),
      Outcome.ok_bind, h3, Outcome.ok_bind, Arch.add_of_lt (by omega), Outcome.ok_bind, hbytes]

/-- Nor does it for a segment: one comparison of its length with what is left. -/
theorem segment_in_range (ha : bs.length < 2 ^ a.bits) (hi : i ≤ bs.length) {len : Nat} {e : ε}
    (f : Bytes → Nat → Outcome ε β) :
    (do
      let remaining ← a.sub bs.length i
      if remaining < len then .err e
      else do
        let stop ← a.add i len
        let segment ← slice bs i stop
        f segment stop) =
    if bs.length - i < len then .err e else f ((bs.drop i).take len) (i + len) := by
  rw [Arch.sub_of_le hi, Outcome.ok_bind]
  split
  · rfl
  · rename_i hfits
    rw [Arch.add_of_lt (by omega), Outcome.ok_bind, slice_in_range (by omega) (by omega), Outcome.ok_bind,
      Nat.add_sub_cancel_left]

end

end E2EMessaging.Lib
