/-
  ONE-TIME TICKETS.

  A ticket is issued, and then either redeemed by one holder or voided; after that nothing happens
  to it any more:

      unissued ─▶ active ─┬─▶ held by t
                          └─▶ void

  `Status.Later` is "some steps further on".  Two facts carry every argument about double
  spending: a ticket has ONE status, so it has at most one holder; and a ticket that was voided
  stays void (`Later.of_void`).  `countP_le_of_injection` turns an injection between the
  entries of a log into an inequality between their numbers.
-/
import Mathlib.Data.Fintype.Card
import Mathlib.Data.List.FinRange
import Mathlib.Logic.Relation

namespace E2EMessaging.Lib

/-- What has become of a ticket; `τ` is the type of its possible holders. -/
inductive Status (τ : Type) where
  | unissued
  | active
  | held (t : τ)
  | void
  deriving Repr, DecidableEq

namespace Status

variable {τ : Type}

/-- One step in the life of a ticket. -/
inductive Next : Status τ → Status τ → Prop where
  | issue : Next unissued active
  | redeem (t : τ) : Next active (held t)
  | revoke : Next active void

/-- Any number of steps. -/
def Later : Status τ → Status τ → Prop := Relation.ReflTransGen Next

theorem Later.refl (a : Status τ) : Later a a := Relation.ReflTransGen.refl

theorem Later.trans {a b c : Status τ} (h : Later a b) (h' : Later b c) : Later a c :=
  Relation.ReflTransGen.trans h h'

theorem Next.later {a b : Status τ} (h : Next a b) : Later a b := Relation.ReflTransGen.single h

/-- **A voided ticket stays void.** -/
theorem Later.of_void {b : Status τ} (h : Later (void : Status τ) b) : b = void := by
  induction h with
  | refl => rfl
  | tail _ hstep ih =>
    rw [ih] at hstep
    cases hstep

end Status

/-! ## Counting along an injection -/

/-- A count is the number of positions counted. -/
theorem countP_eq_card {α : Type} (l : List α) (p : α → Bool) :
    l.countP p = (Finset.univ.filter fun i : Fin l.length => p (l.get i) = true).card := by
  have hnodup := (List.nodup_finRange l.length).card_eq_countP
    (P := fun i : Fin l.length => p (l.get i) = true)
  rw [List.toFinset_finRange] at hnodup
  conv_lhs => rw [← List.map_get_finRange l, List.countP_map]
  rw [hnodup]
  simp [Function.comp_def]

/-- **Positions with `p` sent one-to-one to positions with `q`:** there are no more of the first. -/
theorem countP_le_of_injection {α : Type} {l : List α} {p q : α → Bool} (f : Nat → Nat)
    (hmaps : ∀ (k : Nat) a, l[k]? = some a → p a = true → ∃ b, l[f k]? = some b ∧ q b = true)
    (hinj : ∀ (k k' : Nat) a a', l[k]? = some a → l[k']? = some a' → p a = true → p a' = true →
      f k = f k' → k = k') : l.countP p ≤ l.countP q := by
  rw [countP_eq_card, countP_eq_card]
  have hat : ∀ i : Fin l.length, l[i.val]? = some (l.get i) := fun i => by simp
  have hlt : ∀ i : Fin l.length, p (l.get i) = true → f i < l.length := by
    intro i hi
    obtain ⟨b, hb, -⟩ := hmaps i _ (hat i) hi
    exact (List.getElem?_eq_some_iff.mp hb).1
  refine Finset.card_le_card_of_injOn
    (fun i => if h : f i < l.length then ⟨f i, h⟩ else i) ?_ ?_
  · intro i hi
    have hp : p (l.get i) = true := by simpa using hi
    obtain ⟨b, hb, hq⟩ := hmaps i _ (hat i) hp
    simp only [dif_pos (hlt i hp)]
    obtain ⟨_, rfl⟩ := List.getElem?_eq_some_iff.mp hb
    simpa using hq
  · intro i hi j hj heq
    have hpi : p (l.get i) = true := by simpa using hi
    have hpj : p (l.get j) = true := by simpa using hj
    simp only [dif_pos (hlt i hpi), dif_pos (hlt j hpj), Fin.mk.injEq] at heq
    exact Fin.ext (hinj i j _ _ (hat i) (hat j) hpi hpj heq)

end E2EMessaging.Lib
