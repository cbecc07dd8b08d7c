/-
  THE ERROR CORRECTION OF THE QR CODE (`clients/web/src/DeviceLinking.tsx`).

  The linking screen draws its own QR code.  Its codewords are bytes, multiplied with exponent and
  logarithm tables; `rsGeneratorPoly` multiplies out (x + α⁰)(x + α¹)…, and `rsEncode` divides the data
  by it in a shift register and returns the register, the remainder.

  The tables are right: they are the arithmetic of F₂[x] modulo 0x11d, which is a field
  (`toGF_gfMul`, `isField_gf256`), and so is the generator polynomial (`bytesPoly_rsGeneratorPoly`).  The
  register is not.  It has one place for each coefficient of the generator but the leading one, which
  is 1 and belongs to the coefficient shifted OUT; the loop starts with the leading one all the same, so
  every coefficient lands one place too far to the left and the last one behind the end of the array,
  which grows.  After the first factor that is not zero the register has `ecLen + 1` places, and keeps
  them: `rs_encode_correct_iff`.
-/
import E2EMessaging.Lib.BinaryField
import E2EMessaging.Lib.Bytes

namespace E2EMessaging.Web

open E2EMessaging.Lib Polynomial

/-! ## The program -/

/-- `x <<= 1; if (x & 0x100) x ^= 0x11d;` -/
def xtime (x : Nat) : Nat :=
  let x := x <<< 1
  if x &&& 0x100 ≠ 0 then x ^^^ 0x11d else x

/-- `GF_EXP` and `GF_LOG`. -/
structure GfTables where
  exp : Bytes
  log : Bytes
  deriving DecidableEq

/-- The body of the first loop of `initGaloisField`, on the tables and `x`. -/
def fillStep (st : GfTables × Nat) (i : Nat) : GfTables × Nat :=
  (⟨st.1.exp.set i (UInt8.ofNat st.2), st.1.log.set st.2 (UInt8.ofNat i)⟩, xtime st.2)

/-- The body of its second loop. -/
def repeatStep (exp : Bytes) (i : Nat) : Bytes := exp.set i (exp.getD (i - 255) 0)

/-- `new Uint8Array(512)`, `new Uint8Array(256)`, and `n` rounds of the first loop. -/
def fillTables (n : Nat) : GfTables × Nat :=
  (List.range n).foldl fillStep (⟨List.replicate 512 0, List.replicate 256 0⟩, 1)

/-- `initGaloisField`. -/
def initGaloisField : GfTables where
  exp := (List.range' 255 257).foldl repeatStep (fillTables 255).1.exp
  log := (fillTables 255).1.log

/-- `GF_EXP[i]`. -/
def gfExp (i : Nat) : UInt8 := initGaloisField.exp.getD i 0

/-- `GF_LOG[a]`. -/
def gfLog (a : UInt8) : Nat := (initGaloisField.log.getD a.toNat 0).toNat

/-- `gfMul`. -/
def gfMul (a b : UInt8) : UInt8 :=
  if a = 0 ∨ b = 0 then 0 else gfExp (gfLog a + gfLog b)

/-- The body of the inner loop of `rsGeneratorPoly`. -/
def mulRootStep (poly : Bytes) (i : Nat) (newPoly : Bytes) (j : Nat) : Bytes :=
  (newPoly.modify j (· ^^^ poly.getD j 0)).modify (j + 1) (· ^^^ gfMul (poly.getD j 0) (gfExp i))

/-- The inner loop: the polynomial times `x + α^i`. -/
def mulRoot (poly : Bytes) (i : Nat) : Bytes :=
  (List.range poly.length).foldl (mulRootStep poly i) (List.replicate (poly.length + 1) 0)

/-- `rsGeneratorPoly`. -/
def rsGeneratorPoly (degree : Nat) : Bytes := (List.range degree).foldl mulRoot [1]

/-- `result[i] ^= x` on a JS array: behind its end the array grows, `undefined` counting as zero. -/
def xorAt (result : Bytes) (i : Nat) (x : UInt8) : Bytes :=
  if i < result.length then result.modify i (· ^^^ x)
  else result ++ List.replicate (i - result.length) 0 ++ [x]

/-- The inner loop of `rsEncode`. -/
def addMultiple (gen : Bytes) (factor : UInt8) (result : Bytes) : Bytes :=
  (List.range gen.length).foldl (fun result i => xorAt result i (gfMul (gen.getD i 0) factor)) result

/-- The outer loop of `rsEncode`, for one byte. -/
def encodeByte (gen result : Bytes) (byte : UInt8) : Bytes :=
  let factor := byte ^^^ result.getD 0 0
  -- `result.shift(); result.push(0);`
  let result := result.drop 1 ++ [0]
  if factor ≠ 0 then addMultiple gen factor result else result

/-- `rsEncode`. -/
def rsEncode (data : Bytes) (ecLen : Nat) : Bytes :=
  data.foldl (encodeByte (rsGeneratorPoly ecLen)) (List.replicate ecLen 0)

/-! ## The field -/

/-- x⁸ + x⁴ + x³ + x² + 1, the modulus 0x11d. -/
noncomputable def gfModulus : (ZMod 2)[X] := X ^ 8 + X ^ 4 + X ^ 3 + X ^ 2 + 1

/-- The modulus has degree 8: the field has elements of 8 bits. -/
theorem natDegree_gfModulus : gfModulus.natDegree = 8 := by
  rw [gfModulus]
  compute_degree!

/-- Its leading coefficient is one, so division by it is possible. -/
theorem monic_gfModulus : gfModulus.Monic := by
  rw [gfModulus]
  monicity!

/-- F₂[x] modulo 0x11d. -/
abbrev GF256 := AdjoinRoot gfModulus

/-- The class of x. -/
noncomputable def gfAlpha : GF256 := AdjoinRoot.root gfModulus

/-- A byte as an element: its bits are the coefficients. -/
noncomputable def toGF (b : UInt8) : GF256 := ofBits gfModulus b.toNat

theorem toGF_zero : toGF 0 = 0 := bitEval_zero _ _

theorem toGF_one : toGF 1 = 1 := by
  show ofBits gfModulus 1 = 1
  rw [ofBits, natDegree_gfModulus]
  exact bitEval_one 7 _

theorem toGF_xor (a b : UInt8) : toGF (a ^^^ b) = toGF a + toGF b := by
  rw [toGF, UInt8.toNat_xor]
  exact bitEval_xor add_self_adjoinRoot _ _ _ _

theorem toGF_injective {a b : UInt8} (h : toGF a = toGF b) : a = b := by
  have hlt : ∀ c : UInt8, c.toNat < 2 ^ gfModulus.natDegree := by
    intro c
    rw [natDegree_gfModulus]
    exact c.toNat_lt
  exact UInt8.toNat_inj.mp (ofBits_injective monic_gfModulus (hlt a) (hlt b) h)

/-- And every element is a byte: calculations may go back and forth. -/
theorem toGF_surjective (z : GF256) : ∃ b, toGF b = z := by
  obtain ⟨n, hn, hz⟩ := exists_ofBits monic_gfModulus z
  rw [natDegree_gfModulus] at hn
  refine ⟨UInt8.ofNat n, ?_⟩
  rw [toGF, UInt8.toNat_ofNat', Nat.mod_eq_of_lt hn]
  exact hz

/-- The modulus is zero. -/
theorem bitEval_modulus : bitEval 9 gfAlpha 0x11d = 0 := by
  have hroot : AdjoinRoot.mk gfModulus (X ^ 8 + X ^ 4 + X ^ 3 + X ^ 2 + 1) = 0 := AdjoinRoot.mk_self
  simp only [map_add, map_pow, map_one, AdjoinRoot.mk_X] at hroot
  have hbits : bitEval 9 gfAlpha 0x11d =
      gfAlpha ^ 8 + gfAlpha ^ 4 + gfAlpha ^ 3 + gfAlpha ^ 2 + 1 := by
    simp [bitEval, Finset.sum_range_succ, Nat.testBit]
    ring
  rw [hbits]
  exact hroot

/-- Doubling shifts, and takes the modulus off where a bit has been pushed out; the result is a byte again. -/
theorem xtime_cases : ∀ x < 256, xtime x < 256 ∧
    ((xtime x = x <<< 1) ∨ (xtime x = x <<< 1 ^^^ 0x11d)) := by
  decide +kernel

/-- One round of the first loop multiplies by α. -/
theorem ofBits_xtime {x : Nat} (hx : x < 256) :
    ofBits gfModulus (xtime x) = gfAlpha * ofBits gfModulus x := by
  obtain ⟨hlt, hcases⟩ := xtime_cases x hx
  rw [ofBits, ofBits, natDegree_gfModulus, ← bitEval_succ_of_lt hlt]
  show bitEval 9 gfAlpha (xtime x) = gfAlpha * bitEval 8 gfAlpha x
  rw [← bitEval_shiftLeft_one]
  rcases hcases with heq | heq
  · rw [heq]
  · rw [heq, bitEval_xor add_self_adjoinRoot, bitEval_modulus, add_zero]

/-! ## The tables -/

/-- `x` after `j` rounds. -/
def gfPow (j : Nat) : Nat := xtime^[j] 1

theorem gfPow_succ (j : Nat) : gfPow (j + 1) = xtime (gfPow j) := Function.iterate_succ_apply' ..

theorem gfPow_lt (j : Nat) : gfPow j < 256 := by
  induction j with
  | zero => decide
  | succ j ih =>
    rw [gfPow_succ]
    exact (xtime_cases _ ih).1

theorem toGF_gfPow (j : Nat) : toGF (UInt8.ofNat (gfPow j)) = gfAlpha ^ j := by
  rw [toGF, UInt8.toNat_ofNat', Nat.mod_eq_of_lt (gfPow_lt j)]
  induction j with
  | zero => exact toGF_one
  | succ j ih => rw [gfPow_succ, ofBits_xtime (gfPow_lt j), ih, pow_succ, mul_comm]

theorem gfAlpha_pow_255 : gfAlpha ^ 255 = 1 := by
  rw [← toGF_gfPow, show UInt8.ofNat (gfPow 255) = 1 by decide +kernel, toGF_one]

/-- The set of a list of numbers, as the bits of a number. -/
theorem testBit_foldl_or (l : List Nat) (m i : Nat) :
    (l.foldl (fun m x => m ||| 1 <<< x) m).testBit i = true ↔ m.testBit i = true ∨ i ∈ l := by
  induction l generalizing m with
  | nil => simp
  | cons x l ih =>
    rw [List.foldl_cons, ih, Nat.testBit_or, Bool.or_eq_true, List.mem_cons, or_assoc]
    have hone : (1 <<< x).testBit i = true ↔ i = x := by
      rw [Nat.one_shiftLeft, Nat.testBit_two_pow, decide_eq_true_iff]
      exact eq_comm
    rw [hone]

/-- Every byte but zero comes up. -/
theorem exists_gfPow : ∀ a < 256, a ≠ 0 → ∃ j < 255, gfPow j = a := by
  -- the set of the powers, as one number
  have hall : (List.iterate xtime 1 255).foldl (fun m x => m ||| 1 <<< x) 0 = 2 * (2 ^ 255 - 1) := by
    decide +kernel
  intro a ha hne
  obtain ⟨b, rfl⟩ := Nat.exists_eq_succ_of_ne_zero hne
  have hbit : (2 * (2 ^ 255 - 1)).testBit (b + 1) = true := by
    rw [Nat.testBit_succ, Nat.mul_div_cancel_left _ Nat.two_pos, Nat.testBit_two_pow_sub_one,
      decide_eq_true_iff]
    omega
  rw [← hall, testBit_foldl_or, Nat.zero_testBit] at hbit
  rcases hbit with hzero | hmem
  · exact absurd hzero Bool.false_ne_true
  · obtain ⟨j, hj, heq⟩ := List.mem_iff_getElem.mp hmem
    rw [List.length_iterate] at hj
    rw [List.getElem_iterate] at heq
    exact ⟨j, hj, heq⟩

theorem getD_set_self {l : Bytes} {i : Nat} (hi : i < l.length) (v : UInt8) :
    (l.set i v).getD i 0 = v := by
  rw [List.getD_eq_getElem?_getD, List.getElem?_set_self hi]
  rfl

theorem getD_set_ne {l : Bytes} {i j : Nat} (hij : i ≠ j) (v : UInt8) :
    (l.set i v).getD j 0 = l.getD j 0 := by
  rw [List.getD_eq_getElem?_getD, List.getElem?_set_ne hij, List.getD_eq_getElem?_getD]

/-- The tables and `x` after `n` rounds of the first loop: the powers so far, and for each of them a
    logarithm. -/
structure Filled (n : Nat) (st : GfTables × Nat) : Prop where
  x : st.2 = gfPow n
  expLength : st.1.exp.length = 512
  logLength : st.1.log.length = 256
  exp : ∀ j < n, st.1.exp.getD j 0 = UInt8.ofNat (gfPow j)
  log : ∀ j < n, ∃ i < n, st.1.log.getD (gfPow j) 0 = UInt8.ofNat i ∧ gfPow i = gfPow j

/-- One turn of the loop fills both tables one place further. -/
theorem Filled.step {n : Nat} {st : GfTables × Nat} (h : Filled n st) (hn : n < 255) :
    Filled (n + 1) (fillStep st n) := by
  have hexp : n < st.1.exp.length := by
    rw [h.expLength]
    omega
  have hlog : gfPow n < st.1.log.length := by
    rw [h.logLength]
    exact gfPow_lt n
  refine ⟨?_, ?_, ?_, ?_, ?_⟩
  · rw [gfPow_succ, ← h.x]
    rfl
  · exact (List.length_set ..).trans h.expLength
  · exact (List.length_set ..).trans h.logLength
  · intro j hj
    show (st.1.exp.set n (UInt8.ofNat st.2)).getD j 0 = _
    rcases Nat.lt_or_eq_of_le (Nat.le_of_lt_succ hj) with hlt | rfl
    · rw [getD_set_ne (by omega), h.exp j hlt]
    · rw [getD_set_self hexp, h.x]
  · intro j hj
    show ∃ i < n + 1, (st.1.log.set st.2 (UInt8.ofNat n)).getD (gfPow j) 0 = _ ∧ _
    rw [h.x]
    by_cases hsame : gfPow n = gfPow j
    · refine ⟨n, Nat.lt_succ_self n, ?_, hsame⟩
      rw [← hsame, getD_set_self hlog]
    · have hlt : j < n := by
        rcases Nat.lt_or_eq_of_le (Nat.le_of_lt_succ hj) with hlt | rfl
        · exact hlt
        · exact absurd rfl hsame
      obtain ⟨i, hi, hget, heq⟩ := h.log j hlt
      exact ⟨i, by omega, by rw [getD_set_ne hsame, hget], heq⟩

theorem filled_fillTables {n : Nat} (hn : n ≤ 255) : Filled n (fillTables n) := by
  induction n with
  | zero =>
    exact ⟨rfl, List.length_replicate, List.length_replicate, fun j hj => absurd hj (Nat.not_lt_zero j),
      fun j hj => absurd hj (Nat.not_lt_zero j)⟩
  | succ n ih =>
    rw [fillTables, List.range_succ, List.foldl_append]
    exact (ih (by omega)).step (by omega)

/-- The second loop continues the powers, as α²⁵⁵ = 1. -/
theorem repeat_range' {exp : Bytes} (hlen : exp.length = 512)
    (hexp : ∀ j < 255, toGF (exp.getD j 0) = gfAlpha ^ j) {n : Nat} (hn : n ≤ 257) :
    ((List.range' 255 n).foldl repeatStep exp).length = 512 ∧
      ∀ j < 255 + n, toGF (((List.range' 255 n).foldl repeatStep exp).getD j 0) = gfAlpha ^ j := by
  induction n with
  | zero => exact ⟨hlen, hexp⟩
  | succ n ih =>
    obtain ⟨hlen', hexp'⟩ := ih (by omega)
    rw [List.range'_1_concat, List.foldl_append]
    refine ⟨(List.length_set ..).trans hlen', ?_⟩
    intro j hj
    show toGF ((((List.range' 255 n).foldl repeatStep exp).set (255 + n) _).getD j 0) = _
    rcases Nat.lt_or_eq_of_le (Nat.le_of_lt_succ (show j < (255 + n) + 1 by omega)) with hlt | rfl
    · rw [getD_set_ne (by omega), hexp' j hlt]
    · rw [getD_set_self (by omega), Nat.add_sub_cancel_left, hexp' n (by omega), pow_add,
        gfAlpha_pow_255, one_mul]

/-- **`GF_EXP` holds the powers of α.** -/
theorem toGF_gfExp {i : Nat} (hi : i < 512) : toGF (gfExp i) = gfAlpha ^ i := by
  have hfilled := filled_fillTables (Nat.le_refl 255)
  have hpow : ∀ j < 255, toGF ((fillTables 255).1.exp.getD j 0) = gfAlpha ^ j := by
    intro j hj
    rw [hfilled.exp j hj, toGF_gfPow]
  rw [gfExp]
  simp only [initGaloisField]
  exact (repeat_range' hfilled.expLength hpow (Nat.le_refl 257)).2 i hi

/-- **`GF_LOG` holds logarithms.** -/
theorem gfLog_spec {a : UInt8} (ha : a ≠ 0) : gfLog a < 255 ∧ gfAlpha ^ gfLog a = toGF a := by
  have hne : a.toNat ≠ 0 := fun h => ha (UInt8.toNat_inj.mp h)
  obtain ⟨j, hj, hpow⟩ := exists_gfPow a.toNat a.toNat_lt hne
  obtain ⟨i, hi, hget, heq⟩ := (filled_fillTables (Nat.le_refl 255)).log j hj
  have hlog : gfLog a = i := by
    rw [hpow] at hget
    rw [gfLog, initGaloisField, hget, UInt8.toNat_ofNat', Nat.mod_eq_of_lt (by omega)]
  rw [hlog]
  refine ⟨hi, ?_⟩
  rw [← toGF_gfPow, heq, hpow, UInt8.ofNat_toNat]

/-- **`gfMul` is the multiplication of F₂[x] modulo 0x11d.** -/
theorem toGF_gfMul (a b : UInt8) : toGF (gfMul a b) = toGF a * toGF b := by
  rw [gfMul]
  split
  · rename_i hzero
    rcases hzero with rfl | rfl
    · rw [toGF_zero, zero_mul]
    · rw [toGF_zero, mul_zero]
  · rename_i hne
    obtain ⟨ha, hb⟩ := not_or.mp hne
    obtain ⟨hla, hpa⟩ := gfLog_spec ha
    obtain ⟨hlb, hpb⟩ := gfLog_spec hb
    rw [toGF_gfExp (by omega), pow_add, hpa, hpb]

/-- The quotient is a field: what is not zero is a power of α, and α²⁵⁵ = 1. -/
theorem isField_gf256 : IsField GF256 where
  exists_pair_ne := by
    refine ⟨0, 1, fun h => ?_⟩
    rw [← toGF_zero, ← toGF_one] at h
    exact absurd (toGF_injective h) (by decide)
  mul_comm := mul_comm
  mul_inv_cancel := by
    intro z hz
    obtain ⟨b, rfl⟩ := toGF_surjective z
    have hb : b ≠ 0 := by
      rintro rfl
      exact hz toGF_zero
    obtain ⟨hlt, hpow⟩ := gfLog_spec hb
    refine ⟨gfAlpha ^ (255 - gfLog b), ?_⟩
    rw [← hpow, ← pow_add, Nat.add_sub_cancel' (Nat.le_of_lt hlt), gfAlpha_pow_255]

/-! ## The generator -/

/-- The polynomial with the given coefficients, highest degree first. -/
noncomputable def bytesPoly (l : Bytes) : GF256[X] :=
  ∑ j ∈ Finset.range l.length, C (toGF (l.getD j 0)) * X ^ (l.length - 1 - j)

theorem getD_modify (l : Bytes) {j : Nat} (hj : j < l.length) (v : UInt8) (k : Nat) :
    (l.modify j (· ^^^ v)).getD k 0 = if k = j then l.getD k 0 ^^^ v else l.getD k 0 := by
  rw [List.getD_eq_getElem?_getD, List.getElem?_modify, List.getD_eq_getElem?_getD]
  by_cases hk : k = j
  · subst hk
    simp [List.getElem?_eq_getElem hj]
  · simp [hk, Ne.symm hk]

/-- Changing one coefficient. -/
theorem bytesPoly_modify (l : Bytes) {j : Nat} (hj : j < l.length) (v : UInt8) :
    bytesPoly (l.modify j (· ^^^ v)) = bytesPoly l + C (toGF v) * X ^ (l.length - 1 - j) := by
  rw [bytesPoly, bytesPoly, List.length_modify]
  have hterm : ∀ k ∈ Finset.range l.length,
      C (toGF ((l.modify j (· ^^^ v)).getD k 0)) * X ^ (l.length - 1 - k) =
        C (toGF (l.getD k 0)) * X ^ (l.length - 1 - k) +
          if k = j then C (toGF v) * X ^ (l.length - 1 - j) else 0 := by
    intro k _
    rw [getD_modify l hj]
    by_cases hk : k = j
    · rw [if_pos hk, if_pos hk, toGF_xor, C_add, add_mul, hk]
    · rw [if_neg hk, if_neg hk, add_zero]
  rw [Finset.sum_congr rfl hterm, Finset.sum_add_distrib, Finset.sum_ite_eq',
    if_pos (Finset.mem_range.mpr hj)]

theorem bytesPoly_replicate (n : Nat) : bytesPoly (List.replicate n 0) = 0 := by
  rw [bytesPoly]
  refine Finset.sum_eq_zero fun j hj => ?_
  have hj' : j < n := by
    rw [List.length_replicate] at hj
    exact Finset.mem_range.mp hj
  rw [List.getD_eq_getElem?_getD, List.getElem?_replicate, if_pos hj', Option.getD_some, toGF_zero,
    C_0, zero_mul]

/-- After `n` rounds: `n` coefficients have been multiplied by `x + α^i`. -/
theorem mulRoot_range (poly : Bytes) {i n : Nat} (hi : i < 512) (hn : n ≤ poly.length) :
    ((List.range n).foldl (mulRootStep poly i) (List.replicate (poly.length + 1) 0)).length =
        poly.length + 1 ∧
      bytesPoly ((List.range n).foldl (mulRootStep poly i) (List.replicate (poly.length + 1) 0)) =
        (∑ j ∈ Finset.range n, C (toGF (poly.getD j 0)) * X ^ (poly.length - 1 - j)) *
          (X + C (gfAlpha ^ i)) := by
  induction n with
  | zero =>
    refine ⟨List.length_replicate, ?_⟩
    rw [Finset.range_zero, Finset.sum_empty, zero_mul]
    exact bytesPoly_replicate _
  | succ n ih =>
    obtain ⟨hlen, hpoly⟩ := ih (by omega)
    rw [List.range_succ, List.foldl_append, List.foldl_cons, List.foldl_nil]
    generalize (List.range n).foldl (mulRootStep poly i) (List.replicate (poly.length + 1) 0) =
      newPoly at hlen hpoly
    rw [mulRootStep]
    refine ⟨by rw [List.length_modify, List.length_modify, hlen], ?_⟩
    have hfirst : n < newPoly.length := by omega
    have hsecond : n + 1 < (newPoly.modify n (· ^^^ poly.getD n 0)).length := by
      rw [List.length_modify]
      omega
    rw [bytesPoly_modify _ hsecond, bytesPoly_modify _ hfirst, List.length_modify, hlen, hpoly,
      Finset.sum_range_succ, toGF_gfMul, toGF_gfExp hi, C_mul]
    -- the two coefficients that change are those of `xⁿ (x + α^i)`
    have hpow : poly.length + 1 - 1 - n = (poly.length - 1 - n) + 1 := by omega
    have hpow' : poly.length + 1 - 1 - (n + 1) = poly.length - 1 - n := by omega
    rw [hpow, hpow', pow_succ]
    ring

/-- Multiplying by a linear factor makes the polynomial one coefficient longer. -/
theorem length_mulRoot (poly : Bytes) {i : Nat} (hi : i < 512) :
    (mulRoot poly i).length = poly.length + 1 := (mulRoot_range poly hi (Nat.le_refl _)).1

/-- The inner loop of `rsGeneratorPoly` is a multiplication by one linear factor. -/
theorem bytesPoly_mulRoot (poly : Bytes) {i : Nat} (hi : i < 512) :
    bytesPoly (mulRoot poly i) = bytesPoly poly * (X + C (gfAlpha ^ i)) :=
  (mulRoot_range poly hi (Nat.le_refl _)).2

/-- **The generator polynomial is (x + α⁰)(x + α¹)…**, with one coefficient more than its degree. -/
theorem bytesPoly_rsGeneratorPoly {degree : Nat} (hd : degree ≤ 512) :
    (rsGeneratorPoly degree).length = degree + 1 ∧
      bytesPoly (rsGeneratorPoly degree) = ∏ i ∈ Finset.range degree, (X + C (gfAlpha ^ i)) := by
  induction degree with
  | zero =>
    refine ⟨rfl, ?_⟩
    show bytesPoly [1] = _
    simp [bytesPoly, toGF_one]
  | succ degree ih =>
    obtain ⟨hlen, hpoly⟩ := ih (by omega)
    have hstep : rsGeneratorPoly (degree + 1) = mulRoot (rsGeneratorPoly degree) degree := by
      rw [rsGeneratorPoly, List.range_succ, List.foldl_append]
      rfl
    rw [hstep, length_mulRoot _ (by omega), bytesPoly_mulRoot _ (by omega), hlen, hpoly,
      Finset.prod_range_succ]
    exact ⟨rfl, rfl⟩

/-! ## The register -/

/-- A write behind the end makes the array longer: this is how too short an array grows in JavaScript. -/
theorem length_xorAt (result : Bytes) (i : Nat) (x : UInt8) :
    (xorAt result i x).length = max result.length (i + 1) := by
  rw [xorAt]
  split
  · rw [List.length_modify]
    omega
  · rw [List.length_append, List.length_append, List.length_replicate, List.length_singleton]
    omega

/-- Adding a multiple of the generator makes the array as long as the generator, at least. -/
theorem length_addMultiple (gen : Bytes) (factor : UInt8) (result : Bytes) :
    (addMultiple gen factor result).length = max result.length gen.length := by
  rw [addMultiple]
  induction gen.length with
  | zero => exact (Nat.max_zero _).symm
  | succ n ih =>
    rw [List.range_succ, List.foldl_append, List.foldl_cons, List.foldl_nil, length_xorAt, ih]
    omega

/-- A factor that is not zero makes the register as long as the generator. -/
theorem length_encodeByte {gen result : Bytes} (hpos : 0 < result.length) (byte : UInt8) :
    (encodeByte gen result byte).length =
      if byte ^^^ result.getD 0 0 = 0 then result.length else max result.length gen.length := by
  have hshift : (result.drop 1 ++ [0]).length = result.length := by
    rw [List.length_append, List.length_drop, List.length_singleton]
    omega
  rw [encodeByte]
  by_cases hzero : byte ^^^ result.getD 0 0 = 0
  · rw [if_neg (not_not.mpr hzero), if_pos hzero, hshift]
  · rw [if_pos hzero, if_neg hzero, length_addMultiple, hshift]

/-- It does not shrink again. -/
theorem length_foldl_encodeByte {gen : Bytes} (hgen : 0 < gen.length) (data : Bytes) {result : Bytes}
    (hlen : result.length = gen.length) : (data.foldl (encodeByte gen) result).length = gen.length := by
  induction data generalizing result with
  | nil => exact hlen
  | cons byte data ih =>
    refine ih ?_
    rw [length_encodeByte (by omega), hlen, Nat.max_self]
    split <;> rfl

/-- Zeros leave the empty register empty. -/
theorem encodeByte_zero (gen : Bytes) {n : Nat} (hn : 0 < n) :
    encodeByte gen (List.replicate n 0) 0 = List.replicate n 0 := by
  obtain ⟨k, rfl⟩ := Nat.exists_eq_succ_of_ne_zero (Nat.ne_of_gt hn)
  rw [encodeByte]
  have hfactor : (0 : UInt8) ^^^ (List.replicate (k + 1) (0 : UInt8)).getD 0 0 = 0 := by
    rw [List.replicate_succ]
    exact UInt8.xor_self
  rw [if_neg (not_not.mpr hfactor)]
  rw [List.replicate_succ, List.drop_one, List.tail_cons, ← List.replicate_succ']
  rfl

/-- Nothing is added for a zero coefficient, so zeros are encoded as zeros. -/
theorem rsEncode_zeros {data : Bytes} {ecLen : Nat} (hec : 0 < ecLen) (hzero : ∀ b ∈ data, b = 0) :
    rsEncode data ecLen = List.replicate ecLen 0 := by
  rw [rsEncode]
  induction data with
  | nil => rfl
  | cons byte data ih =>
    obtain rfl := hzero byte List.mem_cons_self
    rw [List.foldl_cons, encodeByte_zero _ hec]
    exact ih fun b hb => hzero b (List.mem_cons_of_mem _ hb)

/-- One byte that is not zero, and the result has a byte too many. -/
theorem length_rsEncode_of_ne_zero {data : Bytes} {ecLen : Nat} (hec : 0 < ecLen)
    (hle : ecLen ≤ 512) (hne : ∃ b ∈ data, b ≠ 0) : (rsEncode data ecLen).length = ecLen + 1 := by
  have hgen := (bytesPoly_rsGeneratorPoly hle).1
  rw [rsEncode]
  generalize rsGeneratorPoly ecLen = gen at hgen
  rw [← hgen]
  induction data with
  | nil =>
    obtain ⟨b, hb, -⟩ := hne
    cases hb
  | cons byte data ih =>
    rw [List.foldl_cons]
    by_cases hbyte : byte = 0
    · subst hbyte
      rw [encodeByte_zero _ hec]
      obtain ⟨b, hb, hb0⟩ := hne
      rcases List.mem_cons.mp hb with rfl | hb
      · exact absurd rfl hb0
      · exact ih ⟨b, hb, hb0⟩
    · -- the first one: the loop writes behind the end
      refine length_foldl_encodeByte (by omega) data ?_
      have hfirst : byte ^^^ (List.replicate ecLen (0 : UInt8)).getD 0 0 = byte := by
        rw [List.getD_eq_getElem?_getD, List.getElem?_replicate, if_pos hec]
        exact UInt8.xor_zero
      rw [length_encodeByte (by rw [List.length_replicate]; exact hec), hfirst, if_neg hbyte,
        List.length_replicate]
      omega

/-- The register has one byte too many at most. -/
theorem length_rsEncode_le (data : Bytes) {ecLen : Nat} (hec : 0 < ecLen) (hle : ecLen ≤ 512) :
    (rsEncode data ecLen).length ≤ ecLen + 1 := by
  by_cases hzero : ∀ b ∈ data, b = 0
  · rw [rsEncode_zeros hec hzero, List.length_replicate]
    omega
  · have hne : ∃ b ∈ data, b ≠ 0 := by
      by_contra hall
      exact hzero fun b hb => by_contra fun hb0 => hall ⟨b, hb, hb0⟩
    exact Nat.le_of_eq (length_rsEncode_of_ne_zero hec hle hne)

/-- What `rsEncode` is for: `ecLen` bytes that make data and correction together vanish at the first
    `ecLen` powers of α. -/
structure RsCorrect (data : Bytes) (ecLen : Nat) : Prop where
  length : (rsEncode data ecLen).length = ecLen
  roots : ∀ i < ecLen, (bytesPoly (data ++ rsEncode data ecLen)).eval (gfAlpha ^ i) = 0

/-- **The tables are the field, and the encoder is right exactly on zeros.** -/
theorem rs_encode_correct_iff (data : Bytes) (ecLen : Nat) (hec : 1 ≤ ecLen)
    (hsize : data.length + ecLen ≤ 255) :
    ((∀ a b, toGF (gfMul a b) = toGF a * toGF b) ∧ RsCorrect data ecLen) ↔ ∀ b ∈ data, b = 0 := by
  constructor
  · rintro ⟨-, hlength, -⟩
    by_contra hne
    have hne' : ∃ b ∈ data, b ≠ 0 := by
      by_contra hall
      exact hne fun b hb => by_contra fun hb0 => hall ⟨b, hb, hb0⟩
    have hlong := length_rsEncode_of_ne_zero hec (by omega) hne'
    omega
  · intro hzero
    refine ⟨toGF_gfMul, ?_, ?_⟩
    · rw [rsEncode_zeros hec hzero, List.length_replicate]
    · intro i _
      have hdata : data = List.replicate data.length 0 := List.eq_replicate_iff.mpr ⟨rfl, hzero⟩
      rw [rsEncode_zeros hec hzero, hdata, List.replicate_append_replicate, bytesPoly_replicate,
        eval_zero]

/-- No data at all, and two bytes of it. -/
theorem rs_encode_correct_on_zeros : RsCorrect [] 1 ∧ RsCorrect [0, 0] 18 :=
  ⟨((rs_encode_correct_iff [] 1 (by decide) (by decide)).mpr (by simp)).2,
    ((rs_encode_correct_iff [0, 0] 18 (by decide) (by decide)).mpr (by simp)).2⟩

/-- **One byte of data and one of correction**: `rsEncode([1], 1)` is two bytes. -/
theorem rs_encode_one_byte : rsEncode [1] 1 = [1, 1] ∧ ¬ RsCorrect [1] 1 := by
  have hout : rsEncode [1] 1 = [1, 1] := by decide +kernel
  refine ⟨hout, fun h => ?_⟩
  have hlen := h.length
  rw [hout] at hlen
  exact absurd hlen (by decide)

end E2EMessaging.Web
