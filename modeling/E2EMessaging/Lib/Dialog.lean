/-
  DIALOGS over a pipe of questions and answers.

  A computation that asks its peer and goes on with the answers is a tree (`Dialog`): a result, or a question
  and what to do with its answer.  `Reaches d es d'` says that `d` has exchanged `es` and goes on as `d'`;
  sequencing splits the exchanges in two (`reaches_bind_ret`).

  A client holds its dialogs one at a time over a PIPE: questions are written one after the other, answers
  come whenever the peer writes one, asked for or not, and are taken in the order in which they come.  Nothing
  on the pipe says which question an answer belongs to.  A dialog that is given up while it waits takes no
  answer, and the next one takes the one that would have been its: after `lost` dialogs have been given up,
  question number `n` is paired with answer number `n - lost` (`Pipe.Paired`).  Of a peer whose answer number
  `m` is to question number `m` that is the answer to the question itself exactly if none has been given up
  (`Pipe.Paired.own`).
-/
import Mathlib.Data.List.Basic
import E2EMessaging.Lib.Bytes
import E2EMessaging.Lib.Run

namespace E2EMessaging.Lib

/-- A computation that asks questions. -/
inductive Dialog (ι ο α : Type) where
  | ret (a : α)
  | ask (i : ι) (k : ο → Dialog ι ο α)

namespace Dialog

variable {ι ο α β ε : Type}

/-- One dialog after another. -/
def bind : Dialog ι ο α → (α → Dialog ι ο β) → Dialog ι ο β
  | .ret a, f => f a
  | .ask i k, f => .ask i fun o => (k o).bind f

/-- Having exchanged `es`, the dialog goes on as `d'`. -/
inductive Reaches (d : Dialog ι ο α) : List (ι × ο) → Dialog ι ο α → Prop where
  | start : Reaches d [] d
  | answered {es : List (ι × ο)} {i : ι} {k : ο → Dialog ι ο α} (h : Reaches d es (.ask i k)) (o : ο) :
      Reaches d (es ++ [(i, o)]) (k o)

/-- The first exchange, seen from the front. -/
theorem Reaches.ask {i : ι} {k : ο → Dialog ι ο α} {o : ο} {es : List (ι × ο)} {d' : Dialog ι ο α}
    (h : Reaches (k o) es d') : Reaches (.ask i k) ((i, o) :: es) d' := by
  induction h with
  | start => exact .answered .start o
  | answered _ o' ih => exact ih.answered o'

/-- A finished dialog has asked nothing, or its first question has been answered. -/
theorem reaches_cases {d : Dialog ι ο α} {es : List (ι × ο)} {d' : Dialog ι ο α} (h : Reaches d es d') :
    (es = [] ∧ d' = d) ∨
      ∃ i k o es', d = .ask i k ∧ es = (i, o) :: es' ∧ Reaches (k o) es' d' := by
  induction h with
  | start => exact Or.inl ⟨rfl, rfl⟩
  | @answered es i k _ o ih =>
    rcases ih with ⟨rfl, rfl⟩ | ⟨i', k', o', es', rfl, rfl, h'⟩
    · exact Or.inr ⟨i, k, o, [], rfl, rfl, .start⟩
    · exact Or.inr ⟨i', k', o', es' ++ [(i, o)], rfl, rfl, h'.answered o⟩

theorem reaches_ret {a : α} {es : List (ι × ο)} {d' : Dialog ι ο α}
    (h : Reaches (.ret a : Dialog ι ο α) es d') : es = [] ∧ d' = .ret a := by
  rcases reaches_cases h with h | ⟨_, _, _, _, hd, -, -⟩
  · exact h
  · cases hd

theorem reaches_ask_ret {i : ι} {k : ο → Dialog ι ο α} {es : List (ι × ο)} {a : α}
    (h : Reaches (.ask i k) es (.ret a)) : ∃ o es', es = (i, o) :: es' ∧ Reaches (k o) es' (.ret a) := by
  rcases reaches_cases h with ⟨-, hd⟩ | ⟨i', k', o, es', hd, rfl, h'⟩
  · cases hd
  · cases hd
    exact ⟨o, es', rfl, h'⟩

/-- **Sequencing splits the exchanges.**  By induction on the first dialog. -/
theorem reaches_bind_ret {d : Dialog ι ο α} {f : α → Dialog ι ο β} {es : List (ι × ο)} {b : β}
    (h : Reaches (d.bind f) es (.ret b)) :
    ∃ a es₁ es₂, es = es₁ ++ es₂ ∧ Reaches d es₁ (.ret a) ∧ Reaches (f a) es₂ (.ret b) := by
  induction d generalizing es with
  | ret a => exact ⟨a, [], es, rfl, .start, h⟩
  | ask i k ih =>
    obtain ⟨o, es', rfl, h'⟩ := reaches_ask_ret h
    obtain ⟨a, es₁, es₂, rfl, h₁, h₂⟩ := ih o h'
    exact ⟨a, (i, o) :: es₁, es₂, rfl, h₁.ask, h₂⟩

/-! ## Dialogs that may fail -/

/-- Go on with a value; an error or a panic ends the dialog. -/
def andThen (d : Dialog ι ο (Outcome ε α)) (f : α → Dialog ι ο (Outcome ε β)) :
    Dialog ι ο (Outcome ε β) :=
  d.bind fun
    | .ok a => f a
    | .err e => .ret (.err e)
    | .panic => .ret .panic

/-- **A value at the end is a value at every stage.** -/
theorem reaches_andThen_ok {d : Dialog ι ο (Outcome ε α)} {f : α → Dialog ι ο (Outcome ε β)}
    {es : List (ι × ο)} {b : β} (h : Reaches (d.andThen f) es (.ret (.ok b))) :
    ∃ a es₁ es₂, es = es₁ ++ es₂ ∧ Reaches d es₁ (.ret (.ok a)) ∧ Reaches (f a) es₂ (.ret (.ok b)) := by
  obtain ⟨x, es₁, es₂, rfl, h₁, h₂⟩ := reaches_bind_ret h
  cases x with
  | ok a => exact ⟨a, es₁, es₂, rfl, h₁, h₂⟩
  | err e => cases (reaches_ret h₂).2
  | panic => cases (reaches_ret h₂).2

end Dialog

/-! ## Pipes -/

/-- A dialog under way: the number of its first question, how many had been given up before it, what it has
    exchanged, the question it waits for, and how it goes on. -/
structure Talk (ι ο α : Type) where
  dialog : Dialog ι ο α
  first : Nat
  lost : Nat
  exchanged : List (ι × ο)
  question : ι
  next : ο → Dialog ι ο α

/-- A dialog that has come to its end. -/
structure Ended (ι ο α : Type) where
  dialog : Dialog ι ο α
  first : Nat
  lost : Nat
  exchanged : List (ι × ο)
  result : α

/-- The questions written, the answers that have come (more than the questions, for all the pipe knows), how
    many of them have been taken, how many dialogs were given up while they waited. -/
structure Pipe (ι ο α : Type) where
  asked : List ι
  answers : List ο
  taken : Nat
  lost : Nat
  current : Option (Talk ι ο α)
  ended : List (Ended ι ο α)

/-- What happens on a pipe; a question can be written, or cannot. -/
inductive PipeAct (ι ο α : Type) where
  | start (d : Dialog ι ο α) (writable : Bool)
  | answer (o : ο)
  | take (writable : Bool)
  | giveUp

namespace Pipe

variable {ι ο α : Type}

/-- A pipe nothing has been written to. -/
def fresh : Pipe ι ο α := ⟨[], [], 0, 0, none, []⟩

/-- A dialog has got to `d`: it ends, or asks, or cannot. -/
def goOn (p : Pipe ι ο α) (dialog : Dialog ι ο α) (first lost : Nat) (exchanged : List (ι × ο))
    (writable : Bool) : Dialog ι ο α → Pipe ι ο α
  | .ret a => { p with current := none, ended := p.ended ++ [⟨dialog, first, lost, exchanged, a⟩] }
  | .ask i k =>
    if writable then
      { p with asked := p.asked ++ [i], current := some ⟨dialog, first, lost, exchanged, i, k⟩ }
    else { p with current := none }

/-- One step. -/
def step (p : Pipe ι ο α) : PipeAct ι ο α → Pipe ι ο α
  | .start d writable =>
    match p.current with
    | some _ => p
    | none => p.goOn d p.asked.length p.lost [] writable d
  | .answer o => { p with answers := p.answers ++ [o] }
  | .take writable =>
    match p.current, p.answers[p.taken]? with
    | some t, some o =>
      { p with taken := p.taken + 1 }.goOn t.dialog t.first t.lost (t.exchanged ++ [(t.question, o)])
        writable (t.next o)
    | _, _ => p
  | .giveUp =>
    match p.current with
    | none => p
    | some _ => { p with current := none, lost := p.lost + 1 }

/-- Question number `first + j` is paired with answer number `first + j - lost`. -/
def Paired (asked : List ι) (answers : List ο) (first lost : Nat) (exchanged : List (ι × ο)) : Prop :=
  ∀ (j : Nat) i o, exchanged[j]? = some (i, o) →
    asked[first + j]? = some i ∧ answers[first + j - lost]? = some o

/-- **Nothing has been given up, and the peer's answer number `m` is to question number `m`**: then every question
    of the dialog has got the answer to itself. -/
theorem Paired.own {asked : List ι} {answers : List ο} {first : Nat} {es : List (ι × ο)}
    (h : Paired asked answers first 0 es) {Answers : ι → ο → Prop}
    (hpeer : ∀ (m : Nat) i o, asked[m]? = some i → answers[m]? = some o → Answers i o) :
    ∀ (j : Nat) i o, es[j]? = some (i, o) → Answers i o := by
  intro j i o hj
  obtain ⟨hi, ho⟩ := h j i o hj
  exact hpeer (first + j) i o hi ho

/-- What is known of the dialog under way. -/
structure Waits (p : Pipe ι ο α) (t : Talk ι ο α) : Prop where
  reaches : t.dialog.Reaches t.exchanged (.ask t.question t.next)
  lost : t.lost = p.lost
  before : t.lost ≤ t.first
  last : t.first + t.exchanged.length + 1 = p.asked.length
  question : p.asked[t.first + t.exchanged.length]? = some t.question
  paired : Paired p.asked p.answers t.first t.lost t.exchanged

/-- What is known of a dialog that has ended. -/
structure Sound (asked : List ι) (answers : List ο) (e : Ended ι ο α) : Prop where
  reaches : e.dialog.Reaches e.exchanged (.ret e.result)
  before : e.lost ≤ e.first
  paired : Paired asked answers e.first e.lost e.exchanged

/-- **The invariant**: every question has taken an answer, or was that of a dialog given up, or waits.  Nothing
    is said of how many answers have come. -/
structure Inv (p : Pipe ι ο α) : Prop where
  balance : p.asked.length = p.taken + p.lost + p.current.toList.length
  current : ∀ t, p.current = some t → p.Waits t
  ended : ∀ e ∈ p.ended, Sound p.asked p.answers e

theorem inv_fresh : (fresh : Pipe ι ο α).Inv where
  balance := rfl
  current := fun _ h => by cases h
  ended := fun _ h => absurd h List.not_mem_nil

section Growth

variable {asked asked' : List ι} {answers answers' : List ο} (hasked : asked <+: asked')
  (hanswers : answers <+: answers')
include hasked hanswers

/-- Pairs stay as questions and answers are added. -/
theorem Paired.mono {first lost : Nat} {es : List (ι × ο)} (h : Paired asked answers first lost es) :
    Paired asked' answers' first lost es := by
  intro j i o hj
  obtain ⟨hi, ho⟩ := h j i o hj
  exact ⟨getElem?_of_initial hasked hi, getElem?_of_initial hanswers ho⟩

theorem Sound.mono {e : Ended ι ο α} (h : Sound asked answers e) : Sound asked' answers' e :=
  ⟨h.reaches, h.before, h.paired.mono hasked hanswers⟩

end Growth

/-- The dialog that starts or goes on has got to `d`. -/
theorem Inv.goOn {p : Pipe ι ο α} {dialog d : Dialog ι ο α} {first : Nat} {es : List (ι × ο)}
    (hbalance : p.asked.length = p.taken + p.lost) (hended : ∀ e ∈ p.ended, Sound p.asked p.answers e)
    (hreaches : dialog.Reaches es d) (hbefore : p.lost ≤ first) (hlast : first + es.length = p.asked.length)
    (hpaired : Paired p.asked p.answers first p.lost es) (writable : Bool) :
    (p.goOn dialog first p.lost es writable d).Inv := by
  cases d with
  | ret a =>
    refine ⟨hbalance, nofun, fun e he => ?_⟩
    rcases List.mem_append.mp he with he | he
    · exact hended e he
    · obtain rfl := List.mem_singleton.mp he
      exact ⟨hreaches, hbefore, hpaired⟩
  | ask i k =>
    rw [Pipe.goOn]
    split
    · have hgrows : p.asked <+: p.asked ++ [i] := List.prefix_append _ _
      have hlen : (p.asked ++ [i]).length = p.asked.length + 1 := by simp
      refine ⟨?_, ?_, fun e he => (hended e he).mono hgrows List.prefix_rfl⟩
      · show (p.asked ++ [i]).length = p.taken + p.lost + 1
        omega
      · intro t ht
        cases ht
        refine ⟨hreaches, rfl, hbefore, ?_, ?_, hpaired.mono hgrows List.prefix_rfl⟩
        · show first + es.length + 1 = (p.asked ++ [i]).length
          omega
        · show (p.asked ++ [i])[first + es.length]? = some i
          rw [hlast]
          exact List.getElem?_concat_length
    · exact ⟨hbalance, nofun, hended⟩

/-- **Every step keeps the invariant.** -/
theorem Inv.step {p : Pipe ι ο α} (h : p.Inv) (a : PipeAct ι ο α) : (p.step a).Inv := by
  obtain ⟨hbalance, hcurrent, hended⟩ := h
  cases a with
  | start d writable =>
    rw [Pipe.step]
    cases hc : p.current with
    | some t =>
      rw [hc] at hbalance
      exact ⟨by rw [hc]; exact hbalance, hcurrent, hended⟩
    | none =>
      rw [hc] at hbalance
      have hlost : p.lost ≤ p.asked.length := by
        have : p.asked.length = p.taken + p.lost := hbalance
        omega
      exact Inv.goOn hbalance hended .start hlost rfl (fun j i o hj => by cases hj) writable
  | answer o =>
    have hgrows : p.answers <+: p.answers ++ [o] := List.prefix_append _ _
    refine ⟨hbalance, fun t ht => ?_, fun e he => (hended e he).mono List.prefix_rfl hgrows⟩
    obtain ⟨hreaches, hl, hbefore, hlast, hquestion, hpaired⟩ := hcurrent t ht
    exact ⟨hreaches, hl, hbefore, hlast, hquestion, hpaired.mono List.prefix_rfl hgrows⟩
  | take writable =>
    rw [Pipe.step]
    cases hc : p.current with
    | none => exact ⟨hbalance, hcurrent, hended⟩
    | some t =>
      cases ho : p.answers[p.taken]? with
      | none => exact ⟨hbalance, hcurrent, hended⟩
      | some o =>
        obtain ⟨hreaches, hl, hbefore, hlast, hquestion, hpaired⟩ := hcurrent t hc
        rw [hc] at hbalance
        have hcount : p.asked.length = p.taken + p.lost + 1 := hbalance
        dsimp only
        rw [hl]
        -- the answer that is taken is the one `lost` places before the question
        refine Inv.goOn (p := { p with taken := p.taken + 1 }) ?_ hended (hreaches.answered o)
          (hl ▸ hbefore) ?_ ?_ writable
        · show p.asked.length = p.taken + 1 + p.lost
          omega
        · rw [List.length_append]
          exact hlast
        · intro j i' o' hj
          rcases getElem?_concat_eq_some.mp hj with hold | ⟨rfl, heq⟩
          · exact hl ▸ hpaired j i' o' hold
          · obtain ⟨rfl, rfl⟩ := Prod.mk.inj heq
            refine ⟨hquestion, ?_⟩
            show p.answers[t.first + t.exchanged.length - p.lost]? = some o'
            rw [show t.first + t.exchanged.length - p.lost = p.taken by omega]
            exact ho
  | giveUp =>
    rw [Pipe.step]
    cases hc : p.current with
    | none => exact ⟨hbalance, hcurrent, hended⟩
    | some t =>
      rw [hc] at hbalance
      have hcount : p.asked.length = p.taken + p.lost + 1 := hbalance
      refine ⟨?_, nofun, hended⟩
      show p.asked.length = p.taken + (p.lost + 1)
      omega

end Pipe

end E2EMessaging.Lib
