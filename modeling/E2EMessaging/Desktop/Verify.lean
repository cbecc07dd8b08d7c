/-
  SAFETY-NUMBER VERIFICATION ON THE DESKTOP (`clients/desktop-tauri/src-tauri/src/verify.rs`).

  The number a verification state was created with is not in the state: `VerificationState::new` puts it
  into the thread-local `EXPECTED`, and `verify_safety_number` compares with what is there THEN.  With
  several conversations on one thread, that is the number of the conversation created LAST.

  A thread is modelled with every state it has been given, each with the number it descends from.
  `verified_against_own_number_iff` says which calls answer for the right number: all calls of a run do
  if and only if each of them finds its own number in `EXPECTED`, or does not look (a warning stays), or
  does not get past it (an unverified state, and an input other than the number there).
-/
import E2EMessaging.Lib.Run

namespace E2EMessaging.Desktop

open E2EMessaging.Lib

/-! ## The source -/

/-- `VerificationState`. -/
inductive VerificationState where
  | unverified
  | verified
  | keyChangedWarning (previous current : String)
  deriving Repr, DecidableEq

/-- `verify_safety_number`; `expected` is the content of `EXPECTED`. -/
def verifySafetyNumber (expected : Option String) (state : VerificationState) (input : String) :
    VerificationState :=
  match state, expected with
  | .unverified, some expected => if input = expected then .verified else .unverified
  | .verified, some expected =>
    if input = expected then .verified else .keyChangedWarning expected input
  | .keyChangedWarning previous current, _ => .keyChangedWarning previous current
  | state, none => state

/-- A state, and the number that the state it descends from was created with. -/
structure Tracked where
  state : VerificationState
  number : String
  deriving Repr, DecidableEq

/-- A thread: its `EXPECTED`, and the states it was given so far. -/
structure VerifyThread where
  expected : Option String
  states : List Tracked
  deriving Repr, DecidableEq

/-- A thread that has made no call. -/
def VerifyThread.start : VerifyThread where
  expected := none
  states := []

inductive VerifyCall where
  /-- `VerificationState::new(expected)`. -/
  | new (expected : String)
  /-- `verify_safety_number(s, input)`, on the `i`-th state. -/
  | verify (i : Nat) (input : String)
  deriving Repr, DecidableEq

/-- One call; the state it returns is the last one. -/
def VerifyThread.step (t : VerifyThread) : VerifyCall → VerifyThread
  | .new expected =>
    { expected := some expected
      states := t.states ++ [⟨.unverified, expected⟩] }
  | .verify i input =>
    match t.states[i]? with
    | none => t
    | some s =>
      { t with states := t.states ++ [⟨verifySafetyNumber t.expected s.state input, s.number⟩] }

/-! ## Answers for the right number -/

/-- `answer` is an answer for `number`: an unverified state becomes verified, and a verified one stays
    verified, only on an input equal to `number`; a warning names `number` as the previous one. -/
def AnswersFor (number : String) (state : VerificationState) (input : String)
    (answer : VerificationState) : Prop :=
  (state = .unverified → answer = .verified → input = number) ∧
    (state = .verified → answer = .verified → input = number) ∧
    ∀ previous current, answer = .keyChangedWarning previous current → previous = number

/-- A call of `verify_safety_number` answers for the number that its state descends from. -/
def AnswersForOwn (t : VerifyThread) : VerifyCall → Prop
  | .new _ => True
  | .verify i input => ∀ s, t.states[i]? = some s →
      AnswersFor s.number s.state input (verifySafetyNumber t.expected s.state input)

/-- `EXPECTED` does not mislead the call. -/
def NotMisled (expected : Option String) (s : Tracked) (input : String) : Prop :=
  expected = some s.number ∨ (s.state = .unverified ∧ expected ≠ some input) ∨
    ∃ previous current, s.state = .keyChangedWarning previous current

/-- `EXPECTED` does not mislead a call of the run. -/
def ReadsOwn (t : VerifyThread) : VerifyCall → Prop
  | .new _ => True
  | .verify i input => ∀ s, t.states[i]? = some s → NotMisled t.expected s input

variable {number input expected : String} {t : VerifyThread}

theorem answersFor_unverified :
    AnswersFor number .unverified input (verifySafetyNumber (some expected) .unverified input) ↔
      expected = number ∨ expected ≠ input := by
  by_cases hinput : input = expected
  · subst hinput
    simp [AnswersFor, verifySafetyNumber]
  · have hne : expected ≠ input := fun h => hinput h.symm
    simp [AnswersFor, verifySafetyNumber, hinput, hne]

/-- A verified state: either it stays verified, or there is a warning that names `EXPECTED`. -/
theorem answersFor_verified :
    AnswersFor number .verified input (verifySafetyNumber (some expected) .verified input) ↔
      expected = number := by
  by_cases hinput : input = expected
  · subst hinput
    simp [AnswersFor, verifySafetyNumber]
  · simp [AnswersFor, verifySafetyNumber, hinput]

/-- **One call.**  It answers for `s.number` exactly if `EXPECTED` does not mislead it. -/
theorem answersFor_iff (s : Tracked)
    (hwarning : ∀ previous current, s.state = .keyChangedWarning previous current →
      previous = s.number) :
    AnswersFor s.number s.state input (verifySafetyNumber (some expected) s.state input) ↔
      NotMisled (some expected) s input := by
  obtain ⟨state, number⟩ := s
  cases state with
  | unverified =>
    rw [answersFor_unverified]
    simp [NotMisled]
  | verified =>
    rw [answersFor_verified]
    simp [NotMisled]
  | keyChangedWarning previous current =>
    have hprevious := hwarning previous current rfl
    simp [AnswersFor, NotMisled, verifySafetyNumber, hprevious]

/-! ## Runs -/

/-- A thread with a state has an `EXPECTED`, and every warning names its own number. -/
structure VerifyThread.Inv (t : VerifyThread) : Prop where
  expected : ∀ s ∈ t.states, ∃ e, t.expected = some e
  warnings : ∀ s ∈ t.states, ∀ previous current,
    s.state = .keyChangedWarning previous current → previous = s.number

theorem VerifyThread.Inv.start : VerifyThread.start.Inv where
  expected := fun _ hs => (by cases hs)
  warnings := fun _ hs => (by cases hs)

theorem VerifyThread.Inv.answers_iff (h : t.Inv) (a : VerifyCall) :
    AnswersForOwn t a ↔ ReadsOwn t a := by
  cases a with
  | new expected => exact Iff.rfl
  | verify i input =>
    refine forall_congr' fun s => forall_congr' fun hs => ?_
    have hmem := List.mem_of_getElem? hs
    obtain ⟨e, he⟩ := h.expected s hmem
    rw [he]
    exact answersFor_iff s (h.warnings s hmem)

theorem VerifyThread.Inv.step (h : t.Inv) (a : VerifyCall) (hanswers : AnswersForOwn t a) :
    (t.step a).Inv := by
  cases a with
  | new expected =>
    refine ⟨fun _ _ => ⟨expected, rfl⟩, fun s hs previous current hwarning => ?_⟩
    rcases List.mem_append.mp hs with hs | hs
    · exact h.warnings s hs previous current hwarning
    · rw [List.mem_singleton.mp hs] at hwarning
      cases hwarning
  | verify i input =>
    rw [VerifyThread.step]
    split
    · exact h
    · rename_i s hs
      have hmem := List.mem_of_getElem? hs
      refine ⟨fun _ _ => h.expected s hmem, fun s' hs' previous current hwarning => ?_⟩
      rcases List.mem_append.mp hs' with hs' | hs'
      · exact h.warnings s' hs' previous current hwarning
      · rw [List.mem_singleton.mp hs'] at hwarning ⊢
        exact (hanswers s hs).2.2 previous current hwarning

/-- **Which runs verify each conversation against its own number.**  In every sequence of calls on one
    thread, for any number of conversations, all calls of `verify_safety_number` answer for the number
    that their state was created with IF AND ONLY IF each call finds that number in `EXPECTED`, or its
    state is unverified and the input is not what `EXPECTED` holds, or its state is a warning. -/
theorem verified_against_own_number_iff (calls : List VerifyCall) :
    Meets VerifyThread.step AnswersForOwn .start calls ↔
      Meets VerifyThread.step ReadsOwn .start calls := by
  refine meets_iff (I := VerifyThread.Inv) ?_ ?_ .start calls
  · exact fun t a h => h.answers_iff a
  · exact fun t a h hreads => h.step a ((h.answers_iff a).mpr hreads)

/-- As long as only one number is used on a thread, `EXPECTED` is that number. -/
structure VerifyThread.OneNumber (number : String) (t : VerifyThread) : Prop where
  expected : ∀ e, t.expected = some e → e = number
  states : ∀ s ∈ t.states, s.number = number

theorem VerifyThread.OneNumber.step (h : t.OneNumber number) (a : VerifyCall)
    (hone : ∀ expected, a = .new expected → expected = number) : (t.step a).OneNumber number := by
  cases a with
  | new expected =>
    have hnumber := hone expected rfl
    subst hnumber
    refine ⟨fun e he => (Option.some.inj he).symm, fun s hs => ?_⟩
    rcases List.mem_append.mp hs with hs | hs
    · exact h.states s hs
    · rw [List.mem_singleton.mp hs]
  | verify i input =>
    rw [VerifyThread.step]
    split
    · exact h
    · rename_i s hs
      refine ⟨h.expected, fun s' hs' => ?_⟩
      rcases List.mem_append.mp hs' with hs' | hs'
      · exact h.states s' hs'
      · rw [List.mem_singleton.mp hs']
        exact h.states s (List.mem_of_getElem? hs)

/-- One conversation to a thread, as in the tests: every call answers for its number. -/
theorem one_conversation_answers (number : String) {calls : List VerifyCall}
    (hone : Meets VerifyThread.step (fun _ a => ∀ expected, a = .new expected → expected = number)
      .start calls) : Meets VerifyThread.step AnswersForOwn .start calls := by
  refine Meets.imp (I := fun t => t.Inv ∧ t.OneNumber number) ?_ ⟨.start, ?_⟩ hone
  · rintro t a ⟨hinv, hnumber⟩ hok
    have hanswers : AnswersForOwn t a := by
      rw [hinv.answers_iff]
      cases a with
      | new expected => trivial
      | verify i input =>
        intro s hs
        have hmem := List.mem_of_getElem? hs
        obtain ⟨e, he⟩ := hinv.expected s hmem
        left
        rw [he, hnumber.expected e he, hnumber.states s hmem]
    exact ⟨⟨hinv.step a hanswers, hnumber.step a hok⟩, hanswers⟩
  · exact ⟨fun _ he => (by cases he), fun _ hs => (by cases hs)⟩

/-- Conversation B is created after A; then B's number verifies A. -/
theorem other_number_verifies :
    ¬ Meets VerifyThread.step AnswersForOwn .start [.new "A", .new "B", .verify 0 "B"] ∧
      (run VerifyThread.step .start [.new "A", .new "B", .verify 0 "B"]).states[2]? =
        some ⟨.verified, "A"⟩ := by
  refine ⟨?_, by decide⟩
  rintro ⟨-, -, hanswers, -⟩
  have heq : "B" = "A" := (hanswers ⟨.unverified, "A"⟩ rfl).1 rfl (by decide)
  exact absurd heq (by decide)

end E2EMessaging.Desktop
