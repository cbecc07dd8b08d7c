/-
  REGISTERS read off a log.

  A component that keeps values logs what it does.  What it holds in one place is what was last written
  there (`lastOf`), and that its reads are right is a property of every entry and the log BEFORE it
  (`Throughout`).  Both grow by one entry at a time (`lastOf_concat`, `Throughout.concat`), which is the form in
  which a step keeps them.
-/
import E2EMessaging.Lib.Run

namespace E2EMessaging.Lib

variable {ε ν : Type}

/-- What was written last; `writes` says what an entry has written, if anything. -/
def lastOf (writes : ε → Option ν) (log : List ε) : Option ν := (log.filterMap writes).getLast?

theorem lastOf_concat_none {writes : ε → Option ν} {log : List ε} {e : ε} (h : writes e = none) :
    lastOf writes (log ++ [e]) = lastOf writes log := by
  rw [lastOf, lastOf, List.filterMap_append, List.filterMap_cons_none h, List.filterMap_nil, List.append_nil]

theorem lastOf_concat_some {writes : ε → Option ν} {log : List ε} {e : ε} {v : ν} (h : writes e = some v) :
    lastOf writes (log ++ [e]) = some v := by
  rw [lastOf, List.filterMap_append, List.filterMap_cons_some h, List.filterMap_nil, List.getLast?_concat]

/-- The last entry decides, if it has written. -/
theorem lastOf_concat (writes : ε → Option ν) (log : List ε) (e : ε) :
    lastOf writes (log ++ [e]) = (writes e).or (lastOf writes log) := by
  cases h : writes e with
  | none => rw [lastOf_concat_none h, Option.none_or]
  | some v => rw [lastOf_concat_some h, Option.some_or]

/-- What was written last was written by some entry. -/
theorem exists_of_lastOf {writes : ε → Option ν} {log : List ε} {v : ν} (h : lastOf writes log = some v) :
    ∃ e ∈ log, writes e = some v :=
  List.mem_filterMap.mp (List.mem_of_getLast? h)

/-- Every entry, with the log before it. -/
def Throughout (P : List ε → ε → Prop) (log : List ε) : Prop :=
  ∀ (n : Nat) e, log[n]? = some e → P (log.take n) e

theorem Throughout.nil {P : List ε → ε → Prop} : Throughout P [] := fun _ _ h => by cases h

/-- One entry more. -/
theorem Throughout.concat {P : List ε → ε → Prop} {log : List ε} (h : Throughout P log) {e : ε} (he : P log e) :
    Throughout P (log ++ [e]) := by
  intro n e' hn
  rcases getElem?_concat_eq_some.mp hn with hold | ⟨rfl, rfl⟩
  · have hlt := (List.getElem?_eq_some_iff.mp hold).1
    rw [List.take_append_of_le_length (Nat.le_of_lt hlt)]
    exact h n e' hold
  · rw [List.take_left]
    exact he

end E2EMessaging.Lib
