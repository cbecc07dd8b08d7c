/-
  RECORDED COMPUTATIONS: what a computation returns, and the calls it makes on the way.

  "Every call is made with an argument in range" is not a statement about the result of a computation,
  so the computation is run with a record of its calls.  Recording changes nothing (`result_bind`): the
  results alone are those of the computation without the record.

  Two targets run the same code.  `Agrees P x y Q` says of a computation on both, `x` and `y`: they do the
  same, without a panic, every call satisfies `P`, and a value returned satisfies `Q`.  Its rules follow the
  code, as those of a Hoare triple do: `Q` of the first part is what the calls of the second rely on
  (`Agrees.bind`).
-/
import E2EMessaging.Lib.Reader

namespace E2EMessaging.Lib

/-- The calls made, in order, and the result. -/
structure Recorded (ε κ α : Type) where
  calls : List κ
  result : Outcome ε α

namespace Recorded

variable {ε κ α β : Type}

/-- No call. -/
def lift (x : Outcome ε α) : Recorded ε κ α := ⟨[], x⟩

/-- The calls of what comes after a result. -/
def callsAfter (f : α → Recorded ε κ β) : Outcome ε α → List κ
  | .ok v => (f v).calls
  | .err _ => []
  | .panic => []

instance : Monad (Recorded ε κ) where
  pure v := lift (.ok v)
  bind x f := ⟨x.calls ++ callsAfter f x.result, x.result >>= fun v => (f v).result⟩

@[simp] theorem result_lift (x : Outcome ε α) : (lift x : Recorded ε κ α).result = x := rfl

@[simp] theorem result_bind (x : Recorded ε κ α) (f : α → Recorded ε κ β) :
    (x >>= f).result = x.result >>= fun v => (f v).result := rfl

@[simp] theorem result_ite (c : Prop) [Decidable c] (x y : Recorded ε κ α) :
    (if c then x else y).result = if c then x.result else y.result := apply_ite result c x y

theorem calls_bind (x : Recorded ε κ α) (f : α → Recorded ε κ β) :
    (x >>= f).calls = x.calls ++ callsAfter f x.result := rfl

/-- The same on both sides, without a panic; the calls satisfy `P`, a value satisfies `Q`. -/
structure Agrees (P : κ → Prop) (x y : Recorded ε κ α) (Q : α → Prop) : Prop where
  same : x = y
  calls : ∀ k ∈ x.calls, P k
  noPanic : x.result ≠ .panic
  value : ∀ v, x.result = .ok v → Q v

variable {P : κ → Prop}

theorem agrees_lift {x : Outcome ε α} {Q : α → Prop} (hpanic : x ≠ .panic)
    (hvalue : ∀ v, x = .ok v → Q v) : Agrees P (lift x) (lift x) Q :=
  ⟨rfl, fun _ h => (List.not_mem_nil h).elim, hpanic, hvalue⟩

theorem agrees_ok {v : α} {Q : α → Prop} (hv : Q v) :
    Agrees P (lift (.ok v) : Recorded ε κ α) (lift (.ok v)) Q := by
  refine agrees_lift (Outcome.ok_ne_panic v) fun w hw => ?_
  cases hw
  exact hv

theorem agrees_err (e : ε) (Q : α → Prop) : Agrees P (lift (.err e)) (lift (.err e)) Q :=
  agrees_lift (Outcome.err_ne_panic e) fun _ h => (by cases h)

theorem Agrees.bind {x y : Recorded ε κ α} {R : α → Prop} (hxy : Agrees P x y R)
    {f g : α → Recorded ε κ β} {Q : β → Prop} (hfg : ∀ v, R v → Agrees P (f v) (g v) Q) :
    Agrees P (x >>= f) (y >>= g) Q := by
  obtain ⟨rfl, hcalls, hpanic, hvalue⟩ := hxy
  obtain ⟨calls, result⟩ := x
  cases result with
  | panic => exact absurd rfl hpanic
  | err e =>
    refine ⟨rfl, fun k hk => ?_, Outcome.err_ne_panic e, fun v h => by cases h⟩
    rw [calls_bind, callsAfter, List.append_nil] at hk
    exact hcalls k hk
  | ok v =>
    have hrest := hfg v (hvalue v rfl)
    refine ⟨?_, fun k hk => ?_, hrest.noPanic, hrest.value⟩
    · show Recorded.mk (calls ++ (f v).calls) (f v).result = Recorded.mk (calls ++ (g v).calls) (g v).result
      rw [hrest.same]
    · rcases List.mem_append.mp hk with hk | hk
      · exact hcalls k hk
      · exact hrest.calls k hk

/-- A part that makes no call and does not panic. -/
theorem agrees_lift_bind {x : Outcome ε α} (hpanic : x ≠ .panic) {f g : α → Recorded ε κ β}
    {Q : β → Prop} (hfg : ∀ v, x = .ok v → Agrees P (f v) (g v) Q) :
    Agrees P (lift x >>= f) (lift x >>= g) Q :=
  (agrees_lift hpanic fun _ hv => hv).bind hfg

theorem Agrees.ite {c : Prop} [Decidable c] {x x' y y' : Recorded ε κ α} {Q : α → Prop}
    (hthen : c → Agrees P x y Q) (helse : ¬ c → Agrees P x' y' Q) :
    Agrees P (if c then x else x') (if c then y else y') Q := by
  split
  · rename_i hc
    exact hthen hc
  · rename_i hc
    exact helse hc

end Recorded

end E2EMessaging.Lib
