/-
  NUMBERS AS POLYNOMIALS OVER F₂, and arithmetic modulo one of them.

  The bits of a number are the coefficients of a polynomial over F₂ (`bitEval` evaluates it).  Exclusive
  or is then addition, a left shift is multiplication by the variable, and reducing by exclusive or with
  the modulus is reducing modulo it.  In the quotient by a monic polynomial of degree `w` the numbers
  below `2 ^ w` are the elements, each once (`ofBits_injective`, `exists_ofBits`).

  Nothing here is about a particular modulus, or about tables: a program that multiplies with tables is
  right if the entries of its table are the powers of the variable.
-/
import Mathlib.RingTheory.AdjoinRoot
import Mathlib.Algebra.Field.ZMod
import Mathlib.FieldTheory.Finite.Basic

namespace E2EMessaging.Lib

open Polynomial

/-! ## Evaluation at an element -/

section BitEval

variable {R : Type} [CommRing R]

/-- The polynomial whose coefficients are the `w` low bits of `n`, at `x`. -/
def bitEval (w : Nat) (x : R) (n : Nat) : R :=
  ∑ k ∈ Finset.range w, if n.testBit k then x ^ k else 0

@[simp] theorem bitEval_zero (w : Nat) (x : R) : bitEval w x 0 = 0 := by
  simp [bitEval]

theorem bitEval_one (w : Nat) (x : R) : bitEval (w + 1) x 1 = 1 := by
  rw [bitEval, Finset.sum_range_succ']
  have hrest : ∀ k ∈ Finset.range w, (if (1 : Nat).testBit (k + 1) then x ^ (k + 1) else 0) = 0 := by
    intro k _
    rw [if_neg]
    simp [Nat.testBit_succ]
  rw [Finset.sum_eq_zero hrest]
  simp

/-- Where `y + y = 0`, exclusive or is addition. -/
theorem bitEval_xor (h2 : ∀ y : R, y + y = 0) (w : Nat) (x : R) (a b : Nat) :
    bitEval w x (a ^^^ b) = bitEval w x a + bitEval w x b := by
  rw [bitEval, bitEval, bitEval, ← Finset.sum_add_distrib]
  refine Finset.sum_congr rfl fun k _ => ?_
  rw [Nat.testBit_xor]
  cases a.testBit k <;> cases b.testBit k <;> simp [h2]

/-- A shift multiplies by the variable. -/
theorem bitEval_shiftLeft_one (w : Nat) (x : R) (n : Nat) :
    bitEval (w + 1) x (n <<< 1) = x * bitEval w x n := by
  rw [bitEval, Finset.sum_range_succ', bitEval, Finset.mul_sum]
  have hlow : (n <<< 1).testBit 0 = false := by simp
  rw [hlow, if_neg Bool.false_ne_true, add_zero]
  refine Finset.sum_congr rfl fun k _ => ?_
  have hbit : (n <<< 1).testBit (k + 1) = n.testBit k := by simp
  rw [hbit, mul_ite, mul_zero, pow_succ, mul_comm x]

/-- High bits that are not there do not count. -/
theorem bitEval_succ_of_lt {w n : Nat} (hn : n < 2 ^ w) (x : R) :
    bitEval (w + 1) x n = bitEval w x n := by
  rw [bitEval, Finset.sum_range_succ, Nat.testBit_lt_two_pow hn, if_neg Bool.false_ne_true, add_zero]
  rfl

end BitEval

/-! ## The quotient by a polynomial -/

section Quotient

variable {m : (ZMod 2)[X]}

theorem add_self_adjoinRoot (y : AdjoinRoot m) : y + y = 0 := by
  rw [← two_smul (ZMod 2) y, show (2 : ZMod 2) = 0 from rfl, zero_smul]

/-- The element a number stands for. -/
noncomputable def ofBits (m : (ZMod 2)[X]) (n : Nat) : AdjoinRoot m :=
  bitEval m.natDegree (AdjoinRoot.root m) n

theorem ofBits_eq_mk (n : Nat) :
    ofBits m n = AdjoinRoot.mk m (bitEval m.natDegree X n) := by
  rw [ofBits, bitEval, bitEval, map_sum]
  refine Finset.sum_congr rfl fun k _ => ?_
  split
  · rw [map_pow, AdjoinRoot.mk_X]
  · rw [map_zero]

theorem coeff_bitEval_X {w k : Nat} (hk : k < w) (n : Nat) :
    (bitEval w (X : (ZMod 2)[X]) n).coeff k = if n.testBit k then 1 else 0 := by
  rw [bitEval, finsetSum_coeff]
  have hterm : ∀ j ∈ Finset.range w, (if n.testBit j then (X : (ZMod 2)[X]) ^ j else 0).coeff k =
      if k = j then (if n.testBit k then 1 else 0) else 0 := by
    intro j _
    by_cases hjk : k = j
    · subst hjk
      rw [if_pos rfl]
      split <;> simp
    · rw [if_neg hjk]
      split
      · exact (coeff_X_pow j k).trans (if_neg hjk)
      · exact coeff_zero k
  rw [Finset.sum_congr rfl hterm, Finset.sum_ite_eq, if_pos (Finset.mem_range.mpr hk)]

theorem degree_bitEval_X_lt (w n : Nat) : (bitEval w (X : (ZMod 2)[X]) n).degree < w := by
  rw [bitEval]
  refine (degree_sum_le _ _).trans_lt ?_
  refine (Finset.sup_lt_iff (WithBot.bot_lt_coe w)).mpr fun k hk => ?_
  split
  · rw [degree_X_pow]
    exact WithBot.coe_lt_coe.mpr (Finset.mem_range.mp hk)
  · rw [degree_zero]
    exact WithBot.bot_lt_coe w

/-- **Different numbers are different elements.** -/
theorem ofBits_injective {a b : Nat} (hm : m.Monic) (ha : a < 2 ^ m.natDegree)
    (hb : b < 2 ^ m.natDegree) (h : ofBits m a = ofBits m b) : a = b := by
  rw [ofBits_eq_mk, ofBits_eq_mk, AdjoinRoot.mk_eq_mk] at h
  have hdeg : (bitEval m.natDegree (X : (ZMod 2)[X]) a - bitEval m.natDegree X b).degree < m.degree := by
    refine (degree_sub_le _ _).trans_lt ?_
    rw [degree_eq_natDegree hm.ne_zero]
    exact max_lt (degree_bitEval_X_lt _ a) (degree_bitEval_X_lt _ b)
  have heq := sub_eq_zero.mp (eq_zero_of_dvd_of_degree_lt h hdeg)
  refine Nat.eq_of_testBit_eq fun k => ?_
  rcases Nat.lt_or_ge k m.natDegree with hk | hk
  · have hcoeff := congrArg (fun p => coeff p k) heq
    simp only [coeff_bitEval_X hk] at hcoeff
    cases hak : a.testBit k <;> cases hbk : b.testBit k <;> simp [hak, hbk] at hcoeff ⊢
  · have hpow := Nat.pow_le_pow_right (n := 2) (by decide) hk
    rw [Nat.testBit_lt_two_pow (Nat.lt_of_lt_of_le ha hpow),
      Nat.testBit_lt_two_pow (Nat.lt_of_lt_of_le hb hpow)]

/-- **Every element is a number**: there are as many as numbers below `2 ^ w`. -/
theorem exists_ofBits (hm : m.Monic) (z : AdjoinRoot m) : ∃ n < 2 ^ m.natDegree, ofBits m n = z := by
  have hfinite : Module.Finite (ZMod 2) (AdjoinRoot m) := (AdjoinRoot.powerBasis' hm).finite
  have hfin : Finite (AdjoinRoot m) := Module.finite_of_finite (ZMod 2)
  have hcard : Nat.card (AdjoinRoot m) = 2 ^ m.natDegree := by
    rw [Module.natCard_eq_pow_finrank (K := ZMod 2), (AdjoinRoot.powerBasis' hm).finrank,
      AdjoinRoot.powerBasis'_dim, Nat.card_zmod]
  have hinj : Function.Injective fun n : Fin (2 ^ m.natDegree) => ofBits m n := by
    intro a b hab
    exact Fin.ext (ofBits_injective hm a.isLt b.isLt hab)
  have hle : Nat.card (AdjoinRoot m) ≤ Nat.card (Fin (2 ^ m.natDegree)) := by
    rw [hcard, Nat.card_fin]
  obtain ⟨n, hn⟩ := (hinj.bijective_of_nat_card_le hle).2 z
  exact ⟨n, n.isLt, hn⟩

end Quotient

end E2EMessaging.Lib
