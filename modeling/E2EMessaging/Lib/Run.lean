/-
  RUNS of a deterministic step function.

  Every stateful component of this development is a step function `σ → ι → σ`: a state, an
  action, the next state.  A RUN is a list of actions folded through it.  This file packages the
  inductions every component needs, once:

  * `run_inv`       — a property kept by every step holds after every run;
  * `Meets`         — "each action of the run meets a condition in the state it is performed in";
  * `meets_inv`     — a property kept by every step THAT MEETS THE CONDITION holds after every run
                      whose steps all do, hence (`Meets.initial`) in every state on the way;
  * `meets_sim`     — the same for a relation to an abstract state that moves along;
  * `meets_iff`     — two conditions that agree under an invariant agree on runs;
  * `meets_concat`  — the last action of a run, peeled off: the form in which an EXACT condition
                      on runs is proved, by induction from the end;
  * `transcript`    — what one party sees of a run of a component that answers: its own inputs, and
                      the answers to them.  `transcript_eq_of_filter_eq` is the unwinding rule: what a
                      party sees is determined by what it sends, if the others' steps leave its view
                      of the state alone.
-/
import Mathlib.Data.List.Induction

namespace E2EMessaging.Lib

variable {σ ι : Type}

/-- The state after performing `acts` in order, starting in `s`. -/
def run (step : σ → ι → σ) (s : σ) (acts : List ι) : σ := acts.foldl step s

@[simp] theorem run_nil (step : σ → ι → σ) (s : σ) : run step s [] = s := rfl

@[simp] theorem run_cons (step : σ → ι → σ) (s : σ) (a : ι) (acts : List ι) :
    run step s (a :: acts) = run step (step s a) acts := rfl

theorem run_append (step : σ → ι → σ) (s : σ) (as bs : List ι) :
    run step s (as ++ bs) = run step (run step s as) bs := List.foldl_append

theorem run_concat (step : σ → ι → σ) (s : σ) (as : List ι) (a : ι) :
    run step s (as ++ [a]) = step (run step s as) a := by
  rw [run_append]
  rfl

/-- `Meets step ok s acts`: along the run from `s`, every action `a` satisfies `ok` in the state
    it is performed in. -/
def Meets (step : σ → ι → σ) (ok : σ → ι → Prop) : σ → List ι → Prop
  | _, [] => True
  | s, a :: acts => ok s a ∧ Meets step ok (step s a) acts

instance decidableMeets (step : σ → ι → σ) (ok : σ → ι → Prop) [∀ s a, Decidable (ok s a)] :
    (s : σ) → (acts : List ι) → Decidable (Meets step ok s acts)
  | _, [] => .isTrue trivial
  | s, a :: acts =>
    have := decidableMeets step ok (step s a) acts
    inferInstanceAs (Decidable (ok s a ∧ Meets step ok (step s a) acts))

theorem meets_append (step : σ → ι → σ) (ok : σ → ι → Prop) (s : σ) (as bs : List ι) :
    Meets step ok s (as ++ bs) ↔ Meets step ok s as ∧ Meets step ok (run step s as) bs := by
  induction as generalizing s with
  | nil => simp [Meets]
  | cons a as ih =>
    simp only [List.cons_append, Meets, ih, run_cons]
    exact and_assoc.symm

theorem meets_concat (step : σ → ι → σ) (ok : σ → ι → Prop) (s : σ) (as : List ι) (a : ι) :
    Meets step ok s (as ++ [a]) ↔ Meets step ok s as ∧ ok (run step s as) a := by
  rw [meets_append]
  simp [Meets]

/-- A run that meets the condition meets it on every prefix: whatever `meets_inv` gives at the end
    of a run it gives in every state the run passes through. -/
theorem Meets.initial {step : σ → ι → σ} {ok : σ → ι → Prop} {s : σ} {as acts : List ι}
    (h : Meets step ok s acts) (hp : as <+: acts) : Meets step ok s as := by
  obtain ⟨bs, rfl⟩ := hp
  exact ((meets_append step ok s as bs).mp h).1

/-- **The guarded invariant rule.** -/
theorem meets_inv {step : σ → ι → σ} {ok : σ → ι → Prop} {I : σ → Prop}
    (hstep : ∀ s a, I s → ok s a → I (step s a)) {s : σ} {acts : List ι} (hs : I s)
    (h : Meets step ok s acts) : I (run step s acts) := by
  induction acts generalizing s with
  | nil => exact hs
  | cons a acts ih => exact ih (hstep s a hs h.1) h.2

/-- **The invariant rule.** -/
theorem run_inv {step : σ → ι → σ} {I : σ → Prop} (hstep : ∀ s a, I s → I (step s a)) {s : σ}
    (hs : I s) (acts : List ι) : I (run step s acts) := by
  induction acts generalizing s with
  | nil => exact hs
  | cons a acts ih => exact ih (hstep s a hs)

/-- A condition that holds of every step from a state in the invariant. -/
theorem Meets.imp {step : σ → ι → σ} {ok P : σ → ι → Prop} {I : σ → Prop}
    (hstep : ∀ s a, I s → ok s a → I (step s a) ∧ P s a) {s : σ} {acts : List ι} (hs : I s)
    (h : Meets step ok s acts) : Meets step P s acts := by
  induction acts generalizing s with
  | nil => trivial
  | cons a acts ih =>
    obtain ⟨hnext, hP⟩ := hstep s a hs h.1
    exact ⟨hP, ih hnext h.2⟩

/-- Two conditions on steps that agree wherever the invariant and `ok` hold agree on every run that
    meets `ok`. -/
theorem meets_congr {step : σ → ι → σ} {ok P Q : σ → ι → Prop} {I : σ → Prop}
    (hstep : ∀ s a, I s → ok s a → I (step s a) ∧ (P s a ↔ Q s a)) {s : σ} {acts : List ι}
    (hs : I s) (h : Meets step ok s acts) : Meets step P s acts ↔ Meets step Q s acts := by
  induction acts generalizing s with
  | nil => exact Iff.rfl
  | cons a acts ih =>
    obtain ⟨hnext, hiff⟩ := hstep s a hs h.1
    exact and_congr hiff (ih hnext h.2)

/-- **The rule for exact conditions.**  `P` and `Q` agree wherever the invariant holds, and steps that
    meet `Q` keep the invariant: then a run meets `P` if and only if it meets `Q`. -/
theorem meets_iff {step : σ → ι → σ} {P Q : σ → ι → Prop} {I : σ → Prop}
    (hiff : ∀ s a, I s → (P s a ↔ Q s a)) (hstep : ∀ s a, I s → Q s a → I (step s a)) {s : σ}
    (hs : I s) (acts : List ι) : Meets step P s acts ↔ Meets step Q s acts := by
  induction acts generalizing s with
  | nil => exact Iff.rfl
  | cons a acts ih =>
    constructor
    · rintro ⟨hP, hrest⟩
      have hQ := (hiff s a hs).mp hP
      exact ⟨hQ, (ih (hstep s a hs hQ)).mp hrest⟩
    · rintro ⟨hQ, hrest⟩
      exact ⟨(hiff s a hs).mpr hQ, (ih (hstep s a hs hQ)).mpr hrest⟩

/-- **The simulation rule.**  An abstract state `t` stands for the state `s` (`R t s`); every step
    that meets the condition is matched by abstract steps `T`. -/
theorem meets_sim {step : σ → ι → σ} {ok : σ → ι → Prop} {τ : Type} {R : τ → σ → Prop}
    {T : τ → τ → Prop} (hrefl : ∀ t, T t t) (htrans : ∀ {t u v}, T t u → T u v → T t v)
    (hstep : ∀ t s a, R t s → ok s a → ∃ t', T t t' ∧ R t' (step s a)) {t : τ} {s : σ}
    {acts : List ι} (hR : R t s) (h : Meets step ok s acts) :
    ∃ t', T t t' ∧ R t' (run step s acts) := by
  induction acts generalizing t s with
  | nil => exact ⟨t, hrefl t, hR⟩
  | cons a acts ih =>
    obtain ⟨t₁, hT, hR₁⟩ := hstep t s a hR h.1
    obtain ⟨t₂, hT', hR₂⟩ := ih hR₁ h.2
    exact ⟨t₂, htrans hT hT', hR₂⟩

/-- Runs commute with a simulation `f` of one step function by another. -/
theorem run_map {τ κ : Type} {step : σ → ι → σ} {step' : τ → κ → τ} {f : σ → τ} {g : ι → κ}
    (hstep : ∀ s a, f (step s a) = step' (f s) (g a)) (s : σ) (acts : List ι) :
    f (run step s acts) = run step' (f s) (acts.map g) := by
  induction acts generalizing s with
  | nil => rfl
  | cons a acts ih =>
    rw [run_cons, ih, hstep]
    rfl

/-- A log that only grows keeps its entries at their positions. -/
theorem getElem?_of_initial {l l' : List ι} (hp : l <+: l') {k : Nat} {a : ι}
    (h : l[k]? = some a) : l'[k]? = some a := by
  obtain ⟨t, rfl⟩ := hp
  rw [List.getElem?_append_left (List.getElem?_eq_some_iff.mp h).1]
  exact h

/-- An entry of a log with one more entry. -/
theorem getElem?_concat_eq_some {l : List ι} {a b : ι} {k : Nat} :
    (l ++ [a])[k]? = some b ↔ l[k]? = some b ∨ (k = l.length ∧ b = a) := by
  rcases Nat.lt_trichotomy k l.length with hlt | rfl | hgt
  · rw [List.getElem?_append_left hlt]
    constructor
    · exact .inl
    · rintro (hold | ⟨rfl, -⟩)
      · exact hold
      · exact absurd hlt (Nat.lt_irrefl _)
  · simp [eq_comm]
  · have hbound : (l ++ [a]).length ≤ k := by
      rw [List.length_append]
      exact hgt
    rw [List.getElem?_eq_none hbound, List.getElem?_eq_none (Nat.le_of_lt hgt)]
    simp [Nat.ne_of_gt hgt]

/-- An entry of a list in which one entry has been modified. -/
theorem getElem?_modify_eq_some {l : List ι} {f : ι → ι} {i k : Nat} {b : ι} :
    (l.modify i f)[k]? = some b ↔
      (k = i ∧ ∃ a, l[i]? = some a ∧ b = f a) ∨ (k ≠ i ∧ l[k]? = some b) := by
  rw [List.getElem?_modify]
  by_cases hk : i = k
  · subst hk
    cases l[i]? with
    | none => simp
    | some a => simp [eq_comm]
  · simp [hk, Ne.symm hk]

/-- A predicate that holds at one position at most. -/
theorem countP_le_one {l : List ι} {p : ι → Bool}
    (h : ∀ (j k : Nat) (a b : ι), l[j]? = some a → l[k]? = some b → p a → p b → j = k) :
    l.countP p ≤ 1 := by
  induction l with
  | nil => exact Nat.zero_le 1
  | cons a l ih =>
    cases ha : p a with
    | false =>
      rw [List.countP_cons_of_neg (by rw [ha]; exact Bool.false_ne_true)]
      apply ih
      intro j k b b' hj hk hb hb'
      exact Nat.succ.inj (h (j + 1) (k + 1) b b' hj hk hb hb')
    | true =>
      have hzero : l.countP p = 0 := by
        rw [List.countP_eq_zero]
        intro b hb hpb
        obtain ⟨k, hk⟩ := List.mem_iff_getElem?.mp hb
        exact Nat.succ_ne_zero k (h 0 (k + 1) a b rfl hk ha hpb).symm
      have hone : (a :: l).countP p = 1 := by rw [List.countP_cons_of_pos ha, hzero]
      exact Nat.le_of_eq hone

/-! ## What one party sees of a run -/

section Transcript

variable {ο ν : Type} (step : σ → ι → σ × ο) (own : ι → Bool)

/-- The inputs of one party along a run, each with its answer. -/
def transcript : σ → List ι → List (ι × ο)
  | _, [] => []
  | s, i :: is =>
    if own i then (i, (step s i).2) :: transcript (step s i).1 is else transcript (step s i).1 is

theorem transcript_append (s : σ) (is js : List ι) :
    transcript step own s (is ++ js) =
      transcript step own s is ++ transcript step own (run (fun s i => (step s i).1) s is) js := by
  induction is generalizing s with
  | nil => rfl
  | cons i is ih =>
    rw [List.cons_append, transcript, transcript, ih, run_cons]
    split <;> rfl

theorem transcript_concat_own {s : σ} {is : List ι} {i : ι} (hi : own i = true) :
    transcript step own s (is ++ [i]) =
      transcript step own s is ++ [(i, (step (run (fun s i => (step s i).1) s is) i).2)] := by
  rw [transcript_append, transcript, if_pos hi]
  rfl

theorem transcript_concat_other {s : σ} {is : List ι} {i : ι} (hi : own i = false) :
    transcript step own s (is ++ [i]) = transcript step own s is := by
  rw [transcript_append, transcript, if_neg (Bool.eq_false_iff.mp hi)]
  exact List.append_nil _

theorem transcript_inputs (s : σ) (is : List ι) :
    (transcript step own s is).map (·.1) = is.filter own := by
  induction is generalizing s with
  | nil => rfl
  | cons i is ih =>
    rw [transcript]
    by_cases hi : own i = true
    · rw [if_pos hi, List.filter_cons_of_pos hi, List.map_cons, ih]
    · rw [if_neg hi, List.filter_cons_of_neg hi, ih]

variable {step own}

/-- The others' inputs can be left out. -/
theorem transcript_filter {V : σ → ν}
    (hother : ∀ s i, own i = false → V (step s i).1 = V s)
    (hown : ∀ s s' i, own i = true → V s = V s' →
      (step s i).2 = (step s' i).2 ∧ V (step s i).1 = V (step s' i).1)
    {s s' : σ} (hview : V s = V s') (is : List ι) :
    transcript step own s is = transcript step own s' (is.filter own) := by
  induction is generalizing s s' with
  | nil => rfl
  | cons i is ih =>
    cases hi : own i with
    | true =>
      obtain ⟨hans, hnext⟩ := hown s s' i hi hview
      rw [List.filter_cons_of_pos hi, transcript, transcript, if_pos hi, if_pos hi, hans, ih hnext]
    | false =>
      have hnot : ¬ own i = true := Bool.eq_false_iff.mp hi
      rw [List.filter_cons_of_neg hnot, transcript, if_neg hnot]
      exact ih ((hother s i hi).trans hview)

/-- **The unwinding rule.**  Two runs in which a party sends the same inputs answer it the same, if no
    input of another changes its view of the state, and its view determines what it is answered. -/
theorem transcript_eq_of_filter_eq {V : σ → ν}
    (hother : ∀ s i, own i = false → V (step s i).1 = V s)
    (hown : ∀ s s' i, own i = true → V s = V s' →
      (step s i).2 = (step s' i).2 ∧ V (step s i).1 = V (step s' i).1)
    {s s' : σ} (hview : V s = V s') {is is' : List ι} (hsame : is.filter own = is'.filter own) :
    transcript step own s is = transcript step own s' is' := by
  rw [transcript_filter hother hown hview is, hsame, transcript_filter hother hown rfl is']

end Transcript

end E2EMessaging.Lib
