/-
  SYMBOLIC DEDUCTION: what can be derived from a set of known messages.

  A deduction system over a type `M` of messages is a relation `rule premises conclusion`.
  `Derives rule K` is the least set that contains the known messages `K` and is closed under the
  rules — the knowledge of a Dolev–Yao adversary who has seen `K`.

  Secrecy is proved by the CLOSED-SET method (`not_derives_of_closed`): exhibit a set of messages
  that contains `K`, is closed under every rule, and does not contain the secret.
-/
import Mathlib.Data.Set.Basic

namespace E2EMessaging.Lib

variable {M : Type}

/-- The messages derivable from `K` by the rules. -/
inductive Derives (rule : List M → M → Prop) (K : Set M) : M → Prop where
  | known {m : M} (h : m ∈ K) : Derives rule K m
  | apply {ps : List M} {m : M} (hr : rule ps m) (hps : ∀ p ∈ ps, Derives rule K p) :
      Derives rule K m

/-- A set of messages closed under the rules. -/
def ClosedUnder (rule : List M → M → Prop) (S : Set M) : Prop :=
  ∀ ps m, rule ps m → (∀ p ∈ ps, p ∈ S) → m ∈ S

/-- Everything derivable stays inside any closed set that contains the knowledge. -/
theorem Derives.mem_of_closed {rule : List M → M → Prop} {K S : Set M} (hS : ClosedUnder rule S)
    (hK : K ⊆ S) {m : M} (h : Derives rule K m) : m ∈ S := by
  induction h with
  | known hm => exact hK hm
  | apply hr _ ih => exact hS _ _ hr ih

/-- **The closed-set method**: a message outside some closed set around the knowledge is secret. -/
theorem not_derives_of_closed {rule : List M → M → Prop} {K S : Set M} (hS : ClosedUnder rule S)
    (hK : K ⊆ S) {m : M} (hm : m ∉ S) : ¬ Derives rule K m :=
  fun h => hm (h.mem_of_closed hS hK)

/-- A rule without premises. -/
theorem Derives.axm {rule : List M → M → Prop} {K : Set M} {m : M} (hr : rule [] m) :
    Derives rule K m :=
  .apply hr (fun _ hp => absurd hp List.not_mem_nil)

/-- A rule with two premises. -/
theorem Derives.binary {rule : List M → M → Prop} {K : Set M} {p q m : M} (hr : rule [p, q] m)
    (hp : Derives rule K p) (hq : Derives rule K q) : Derives rule K m := by
  refine .apply hr ?_
  intro x hx
  rcases List.mem_cons.mp hx with rfl | hx
  · exact hp
  · rw [List.mem_singleton.mp hx]
    exact hq

end E2EMessaging.Lib
