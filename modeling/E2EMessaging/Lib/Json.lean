/-
  JSON TEXTS, as `JSON.parse` reads and `JSON.stringify` writes them.

  A text is a list of UTF-16 code units.  The reader is a PUSHDOWN MACHINE that takes the units one by one
  (`step`): it knows what may come next (`Mode`) and which arrays and objects are open around it (`Frame`).
  So it is total without any bound, and reading a concatenation is reading one part after the other.

  * A number keeps its spelling, and an object its fields in the order of the text, a repeated name
    included (`field` takes the last).
  * A number ends where something follows that does not continue it.  So after the last digit the machine
    does not know yet that the value is complete; `Settled` says that it makes no difference.

  The results: what is written is read back, lone surrogates included (`parse_stringify`), and it is
  well-formed UTF-16 (`wellFormed_stringify`), so that an encoder changes nothing in it.
-/
import Mathlib.Data.List.Basic

namespace E2EMessaging.Lib.Json

/-- A text: its UTF-16 code units. -/
abbrev Text := List UInt16

/-- The code unit of a character of the basic plane. -/
def unit (c : Char) : UInt16 := UInt16.ofNat c.toNat

/-- The code units of a string without characters beyond the basic plane. -/
def units (s : String) : Text := s.toList.map unit

/-- A JSON value. -/
inductive JsonValue where
  | null
  | bool (b : Bool)
  | number (spelling : Text)
  | string (s : Text)
  | array (items : List JsonValue)
  | object (fields : List (Text × JsonValue))
  deriving Repr

/-- The value of a field: of several with the name, the last. -/
def field (name : Text) (fields : List (Text × JsonValue)) : Option JsonValue :=
  (fields.reverse.find? fun f => f.1 = name).map Prod.snd

/-! ## Reading -/

def isSpace (u : UInt16) : Bool := u = 0x20 ∨ u = 0x09 ∨ u = 0x0A ∨ u = 0x0D

def isDigit (u : UInt16) : Bool := unit '0' ≤ u ∧ u ≤ unit '9'

/-- The value of a hexadecimal digit. -/
def hexValue (u : UInt16) : Option Nat :=
  if unit '0' ≤ u ∧ u ≤ unit '9' then some (u.toNat - 48)
  else if unit 'a' ≤ u ∧ u ≤ unit 'f' then some (u.toNat - 87)
  else if unit 'A' ≤ u ∧ u ≤ unit 'F' then some (u.toNat - 55)
  else none

/-- How far a number has been read: up to its sign, a leading zero, other digits before the point, the
    point, digits after it, the exponent's letter, its sign, its digits. -/
inductive NumberPhase where
  | minus
  | zero
  | int
  | point
  | fraction
  | letter
  | sign
  | exponent
  deriving Repr, DecidableEq

namespace NumberPhase

/-- What may follow the digits before the point. -/
def afterInt (u : UInt16) : Option NumberPhase :=
  if u = unit '.' then some point
  else if u = unit 'e' ∨ u = unit 'E' then some letter
  else none

/-- One more unit of the number. -/
def next : NumberPhase → UInt16 → Option NumberPhase
  | minus, u => if u = unit '0' then some zero else if isDigit u then some int else none
  | zero, u => afterInt u
  | int, u => if isDigit u then some int else afterInt u
  | point, u => if isDigit u then some fraction else none
  | fraction, u =>
    if isDigit u then some fraction
    else if u = unit 'e' ∨ u = unit 'E' then some letter
    else none
  | letter, u =>
    if u = unit '+' ∨ u = unit '-' then some sign
    else if isDigit u then some exponent
    else none
  | sign, u => if isDigit u then some exponent else none
  | exponent, u => if isDigit u then some exponent else none

/-- The first unit of a number. -/
def first (u : UInt16) : Option NumberPhase :=
  if u = unit '-' then some minus
  else if u = unit '0' then some zero
  else if isDigit u then some int
  else none

/-- The number may end here. -/
def complete : NumberPhase → Bool
  | minus => false
  | zero => true
  | int => true
  | point => false
  | fraction => true
  | letter => false
  | sign => false
  | exponent => true

end NumberPhase

/-- Inside a string: between two characters, after a backslash, or with hexadecimal digits to come. -/
inductive StringPhase where
  | plain
  | escape
  | hex (left value : Nat)
  deriving Repr, DecidableEq

/-- An array or object around what is being read; its items or fields so far, the last first. -/
inductive Frame where
  | array (items : List JsonValue)
  | object (fields : List (Text × JsonValue)) (name : Text)
  deriving Repr

/-- What may come next. -/
inductive Mode where
  | value
  | firstItem
  | afterItem (items : List JsonValue)
  | firstName
  | name (fields : List (Text × JsonValue))
  | colon (fields : List (Text × JsonValue)) (name : Text)
  | afterField (fields : List (Text × JsonValue))
  | done (v : JsonValue)
  /-- In a string: a name, after these fields, or a value. -/
  | inString (owner : Option (List (Text × JsonValue))) (read : Text) (phase : StringPhase)
  | inNumber (read : Text) (phase : NumberPhase)
  | inWord (rest : Text) (v : JsonValue)
  deriving Repr

/-- The machine between two units. -/
abbrev State := Mode × List Frame

/-- A value is complete. -/
def closeValue (v : JsonValue) : List Frame → State
  | [] => (.done v, [])
  | .array items :: stack => (.afterItem (v :: items), stack)
  | .object fields name :: stack => (.afterField ((name, v) :: fields), stack)

/-- The first unit of a value. -/
def openValue (stack : List Frame) (u : UInt16) : Option State :=
  if u = unit '"' then some (.inString none [] .plain, stack)
  else if u = unit '[' then some (.firstItem, stack)
  else if u = unit '{' then some (.firstName, stack)
  else if u = unit 'n' then some (.inWord (units "ull") .null, stack)
  else if u = unit 't' then some (.inWord (units "rue") (.bool true), stack)
  else if u = unit 'f' then some (.inWord (units "alse") (.bool false), stack)
  else (NumberPhase.first u).map fun phase => (.inNumber [u] phase, stack)

/-- One unit after a complete value. -/
def stepAfter : State → UInt16 → Option State
  | (.afterItem items, stack), u =>
    if isSpace u then some (.afterItem items, stack)
    else if u = unit ',' then some (.value, .array items :: stack)
    else if u = unit ']' then some (closeValue (.array items.reverse) stack)
    else none
  | (.afterField fields, stack), u =>
    if isSpace u then some (.afterField fields, stack)
    else if u = unit ',' then some (.name fields, stack)
    else if u = unit '}' then some (closeValue (.object fields.reverse) stack)
    else none
  | (.done v, stack), u => if isSpace u then some (.done v, stack) else none
  | _, _ => none

/-- The character after a backslash, other than `u`. -/
def escaped (u : UInt16) : Option UInt16 :=
  if u = unit '"' ∨ u = unit '\\' ∨ u = unit '/' then some u
  else if u = unit 'b' then some 0x08
  else if u = unit 'f' then some 0x0C
  else if u = unit 'n' then some 0x0A
  else if u = unit 'r' then some 0x0D
  else if u = unit 't' then some 0x09
  else none

/-- One unit inside a string. -/
def stepString (owner : Option (List (Text × JsonValue))) (read : Text) (stack : List Frame) :
    StringPhase → UInt16 → Option State
  | .plain, u =>
    if u = unit '"' then
      match owner with
      | none => some (closeValue (.string read.reverse) stack)
      | some fields => some (.colon fields read.reverse, stack)
    else if u = unit '\\' then some (.inString owner read .escape, stack)
    else if u < 0x20 then none
    else some (.inString owner (u :: read) .plain, stack)
  | .escape, u =>
    if u = unit 'u' then some (.inString owner read (.hex 4 0), stack)
    else (escaped u).map fun v => (.inString owner (v :: read) .plain, stack)
  | .hex left value, u =>
    match hexValue u with
    | none => none
    | some d =>
      if left = 1 then some (.inString owner (UInt16.ofNat (value * 16 + d) :: read) .plain, stack)
      else some (.inString owner read (.hex (left - 1) (value * 16 + d)), stack)

/-- **One unit of the text**; `none` is a `SyntaxError`. -/
def step : State → UInt16 → Option State
  | (.value, stack), u => if isSpace u then some (.value, stack) else openValue stack u
  | (.firstItem, stack), u =>
    if isSpace u then some (.firstItem, stack)
    else if u = unit ']' then some (closeValue (.array []) stack)
    else openValue (.array [] :: stack) u
  | (.firstName, stack), u =>
    if isSpace u then some (.firstName, stack)
    else if u = unit '"' then some (.inString (some []) [] .plain, stack)
    else if u = unit '}' then some (closeValue (.object []) stack)
    else none
  | (.name fields, stack), u =>
    if isSpace u then some (.name fields, stack)
    else if u = unit '"' then some (.inString (some fields) [] .plain, stack)
    else none
  | (.colon fields name, stack), u =>
    if isSpace u then some (.colon fields name, stack)
    else if u = unit ':' then some (.value, .object fields name :: stack)
    else none
  | (.inString owner read phase, stack), u => stepString owner read stack phase u
  | (.inNumber read phase, stack), u =>
    match phase.next u with
    | some phase => some (.inNumber (u :: read) phase, stack)
    | none =>
      -- the unit is not part of the number: it comes after a complete value
      if phase.complete then stepAfter (closeValue (.number read.reverse) stack) u else none
  | (.inWord [] _, _), _ => none
  | (.inWord [c] v, stack), u => if u = c then some (closeValue v stack) else none
  | (.inWord (c :: cs) v, stack), u => if u = c then some (.inWord cs v, stack) else none
  | st, u => stepAfter st u

/-- The value, if the text may end here. -/
def finish : State → Option JsonValue
  | (.done v, _) => some v
  | (.inNumber read phase, []) => if phase.complete then some (.number read.reverse) else none
  | _ => none

/-- Reading on from a state. -/
def runFrom (st : State) (text : Text) : Option State := text.foldlM step st

/-- **`JSON.parse`.** -/
def parse (text : Text) : Option JsonValue := (runFrom (.value, []) text).bind finish

/-! ## Writing -/

def isHigh (u : UInt16) : Bool := 0xD800 ≤ u ∧ u ≤ 0xDBFF

def isLow (u : UInt16) : Bool := 0xDC00 ≤ u ∧ u ≤ 0xDFFF

/-- A hexadecimal digit, in lower case. -/
def hexUnit (n : Nat) : UInt16 := if n < 10 then UInt16.ofNat (n + 48) else UInt16.ofNat (n + 87)

/-- `\u` and four digits. -/
def unicodeEscape (u : UInt16) : Text :=
  [unit '\\', unit 'u', hexUnit (u.toNat / 4096), hexUnit (u.toNat / 256 % 16),
    hexUnit (u.toNat / 16 % 16), hexUnit (u.toNat % 16)]

/-- The letter that stands for a unit after a backslash. -/
def shortEscape (u : UInt16) : Option UInt16 :=
  if u = unit '"' then some (unit '"')
  else if u = unit '\\' then some (unit '\\')
  else if u = 0x08 then some (unit 'b')
  else if u = 0x0C then some (unit 'f')
  else if u = 0x0A then some (unit 'n')
  else if u = 0x0D then some (unit 'r')
  else if u = 0x09 then some (unit 't')
  else none

/-- A unit that is not half of a surrogate pair. -/
def quoteUnit (u : UInt16) : Text :=
  match shortEscape u with
  | some c => [unit '\\', c]
  | none => if u < 0x20 ∨ isHigh u ∨ isLow u then unicodeEscape u else [u]

/-- A string without its quotes.  A surrogate without its partner is escaped. -/
def quoteBody : Text → Text
  | [] => []
  | [u] => quoteUnit u
  | u :: v :: us =>
    if isHigh u ∧ isLow v then u :: v :: quoteBody us else quoteUnit u ++ quoteBody (v :: us)

def quote (s : Text) : Text := unit '"' :: (quoteBody s ++ [unit '"'])

mutual

/-- **`JSON.stringify`**, of a value without repeated names. -/
def stringify : JsonValue → Text
  | .null => units "null"
  | .bool true => units "true"
  | .bool false => units "false"
  | .number spelling => spelling
  | .string s => quote s
  | .array [] => [unit '[', unit ']']
  | .array (v :: vs) => unit '[' :: (stringify v ++ stringifyItems vs)
  | .object [] => [unit '{', unit '}']
  | .object ((name, v) :: fields) =>
    unit '{' :: (quote name ++ unit ':' :: (stringify v ++ stringifyFields fields))

/-- The items after the first, and the bracket. -/
def stringifyItems : List JsonValue → Text
  | [] => [unit ']']
  | v :: vs => unit ',' :: (stringify v ++ stringifyItems vs)

/-- The fields after the first, and the brace. -/
def stringifyFields : List (Text × JsonValue) → Text
  | [] => [unit '}']
  | (name, v) :: fields =>
    unit ',' :: (quote name ++ unit ':' :: (stringify v ++ stringifyFields fields))

end

/-- The phase a number has been read up to. -/
def numberPhase : Text → Option NumberPhase
  | [] => none
  | u :: us => (NumberPhase.first u).bind fun phase => us.foldlM NumberPhase.next phase

/-- A text that spells a number. -/
def IsNumber (spelling : Text) : Prop := ∃ phase, numberPhase spelling = some phase ∧ phase.complete

mutual

/-- The numbers of a value are spelled as numbers. -/
def Spelled : JsonValue → Prop
  | .number spelling => IsNumber spelling
  | .array items => SpelledItems items
  | .object fields => SpelledFields fields
  | _ => True

def SpelledItems : List JsonValue → Prop
  | [] => True
  | v :: vs => Spelled v ∧ SpelledItems vs

def SpelledFields : List (Text × JsonValue) → Prop
  | [] => True
  | (_, v) :: fields => Spelled v ∧ SpelledFields fields

end

/-! ## What is written is read back -/

/-- A run is its first step and the rest, if that step is possible. -/
theorem runFrom_cons (st : State) (u : UInt16) (us : Text) :
    runFrom st (u :: us) = (step st u).bind fun st => runFrom st us := List.foldlM_cons

/-- A run over two texts goes on where the first has led. -/
theorem runFrom_append (st : State) (xs ys : Text) :
    runFrom st (xs ++ ys) = (runFrom st xs).bind fun st => runFrom st ys := List.foldlM_append

theorem runFrom_cons_of_step {st st' : State} {u : UInt16} (h : step st u = some st') (us : Text) :
    runFrom st (u :: us) = runFrom st' us := by
  rw [runFrom_cons, h]
  rfl

/-! ### Strings -/

section Strings

variable {owner : Option (List (Text × JsonValue))} {read : Text} {stack : List Frame}

theorem hexValue_hexUnit : ∀ n < 16, hexValue (hexUnit n) = some n := by decide

/-- A hex digit of an escape adds to its value while more are to come. -/
theorem step_hex {n : Nat} (hn : n < 16) {left value : Nat} (hleft : left ≠ 1) :
    step (.inString owner read (.hex left value), stack) (hexUnit n) =
      some (.inString owner read (.hex (left - 1) (value * 16 + n)), stack) := by
  show stepString owner read stack (.hex left value) (hexUnit n) = _
  simp only [stepString, hexValue_hexUnit n hn, if_neg hleft]

/-- The last one ends the escape with one unit of the string. -/
theorem step_lastHex {n : Nat} (hn : n < 16) {value : Nat} :
    step (.inString owner read (.hex 1 value), stack) (hexUnit n) =
      some (.inString owner (UInt16.ofNat (value * 16 + n) :: read) .plain, stack) := by
  show stepString owner read stack (.hex 1 value) (hexUnit n) = _
  simp only [stepString, hexValue_hexUnit n hn, if_true]

/-- So an escape that was written for a unit is read as that unit. -/
theorem run_unicodeEscape (u : UInt16) (rest : Text) :
    runFrom (.inString owner read .plain, stack) (unicodeEscape u ++ rest) =
      runFrom (.inString owner (u :: read) .plain, stack) rest := by
  have hu : u.toNat < 65536 := u.toNat_lt
  have hvalue : (((0 * 16 + u.toNat / 4096) * 16 + u.toNat / 256 % 16) * 16 + u.toNat / 16 % 16) * 16 +
      u.toNat % 16 = u.toNat := by omega
  have hslash : step (.inString owner read .plain, stack) (unit '\\') =
    some (.inString owner read .escape, stack) := rfl
  have hletter : step (.inString owner read .escape, stack) (unit 'u') =
    some (.inString owner read (.hex 4 0), stack) := rfl
  rw [unicodeEscape]
  simp only [List.cons_append, List.nil_append]
  rw [runFrom_cons_of_step hslash, runFrom_cons_of_step hletter,
    runFrom_cons_of_step (step_hex (by omega) (by decide)),
    runFrom_cons_of_step (step_hex (by omega) (by decide)),
    runFrom_cons_of_step (step_hex (by omega) (by decide)),
    runFrom_cons_of_step (step_lastHex (by omega)), hvalue, UInt16.ofNat_toNat]

/-- A unit that needs no escape. -/
theorem step_plain {u : UInt16} (hquote : u ≠ unit '"') (hslash : u ≠ unit '\\') (hcontrol : ¬ u < 0x20) :
    step (.inString owner read .plain, stack) u = some (.inString owner (u :: read) .plain, stack) := by
  show stepString owner read stack .plain u = _
  simp only [stepString, if_neg hquote, if_neg hslash, if_neg hcontrol]

/-- The short escapes are read as what they stand for. -/
theorem step_shortEscape {u c : UInt16} (h : shortEscape u = some c) :
    step (.inString owner read .escape, stack) c = some (.inString owner (u :: read) .plain, stack) := by
  rw [shortEscape] at h
  split_ifs at h with h1 h2 h3 h4 h5 h6 h7
  all_goals
    obtain rfl := Option.some.inj h
    subst u
    rfl

/-- However a unit was written, as itself or as an escape, it is read back, and the machine is where it was. -/
theorem run_quoteUnit (u : UInt16) (rest : Text) :
    runFrom (.inString owner read .plain, stack) (quoteUnit u ++ rest) =
      runFrom (.inString owner (u :: read) .plain, stack) rest := by
  have hslash : step (.inString owner read .plain, stack) (unit '\\') =
    some (.inString owner read .escape, stack) := rfl
  rw [quoteUnit]
  cases h : shortEscape u with
  | some c =>
    show runFrom _ (unit '\\' :: c :: rest) = _
    rw [runFrom_cons_of_step hslash, runFrom_cons_of_step (step_shortEscape h)]
  | none =>
    by_cases hplain : u < 0x20 ∨ isHigh u ∨ isLow u
    · simp only [if_pos hplain]
      exact run_unicodeEscape u rest
    · simp only [if_neg hplain]
      have hquote : u ≠ unit '"' := by
        rintro rfl
        cases h
      have hslash : u ≠ unit '\\' := by
        rintro rfl
        cases h
      exact runFrom_cons_of_step (step_plain hquote hslash fun hlt => hplain (Or.inl hlt)) rest

/-- Half of a surrogate pair is read as it is. -/
theorem step_surrogate {u : UInt16} (hu : 0xD800 ≤ u) :
    step (.inString owner read .plain, stack) u = some (.inString owner (u :: read) .plain, stack) := by
  apply step_plain
  · rintro rfl
    exact absurd hu (by decide)
  · rintro rfl
    exact absurd hu (by decide)
  · intro hlt
    have h1 := UInt16.le_iff_toNat_le.mp hu
    have h2 := UInt16.lt_iff_toNat_lt.mp hlt
    exact absurd (Nat.lt_of_le_of_lt h1 h2) (by decide)

/-- The body of a quoted string, from inside the quotes. -/
theorem run_quoteBody (s rest : Text) :
    runFrom (.inString owner read .plain, stack) (quoteBody s ++ rest) =
      runFrom (.inString owner (s.reverse ++ read) .plain, stack) rest := by
  induction s using quoteBody.induct generalizing read with
  | case1 => rfl
  | case2 u => exact run_quoteUnit u rest
  | case3 u v us hpair ih =>
    have hhigh : 0xD800 ≤ u := (of_decide_eq_true hpair.1).1
    have hlow : 0xDC00 ≤ v := (of_decide_eq_true hpair.2).1
    have hlow' : 0xD800 ≤ v := UInt16.le_trans (by decide) hlow
    rw [quoteBody, if_pos hpair, List.cons_append, List.cons_append,
      runFrom_cons_of_step (step_surrogate hhigh), runFrom_cons_of_step (step_surrogate hlow'), ih]
    simp
  | case4 u v us hpair ih =>
    rw [quoteBody, if_neg hpair, List.append_assoc, run_quoteUnit, ih]
    simp

/-- A quoted value. -/
theorem run_quote_value (s : Text) :
    runFrom (.value, stack) (quote s) = some (closeValue (.string s) stack) := by
  have hopen : step (.value, stack) (unit '"') = some (.inString none [] .plain, stack) := rfl
  rw [quote, runFrom_cons_of_step hopen, run_quoteBody, List.append_nil]
  show some (closeValue (.string s.reverse.reverse) stack) = _
  rw [List.reverse_reverse]

/-- A quoted name and its colon, where a name may come. -/
theorem run_name {st : State} {fields : List (Text × JsonValue)}
    (hopen : step st (unit '"') = some (.inString (some fields) [] .plain, stack)) (name rest : Text) :
    runFrom st (quote name ++ unit ':' :: rest) = runFrom (.value, .object fields name :: stack) rest := by
  have hclose : step (.inString (some fields) (name.reverse ++ []) .plain, stack) (unit '"') =
      some (.colon fields name, stack) := by
    show some (Mode.colon fields (name.reverse ++ []).reverse, stack) = _
    rw [List.append_nil, List.reverse_reverse]
  have hcolon : step (.colon fields name, stack) (unit ':') =
    some (.value, .object fields name :: stack) := rfl
  rw [quote, List.cons_append, runFrom_cons_of_step hopen, List.append_assoc, run_quoteBody,
    List.singleton_append, runFrom_cons_of_step hclose, runFrom_cons_of_step hcolon]

end Strings

/-! ### Numbers -/

/-- The spelling of a number is kept unit by unit; what is checked is only that it goes on as a number may. -/
theorem run_inNumber {us read : Text} {phase phase' : NumberPhase}
    (h : us.foldlM NumberPhase.next phase = some phase') (stack : List Frame) :
    runFrom (.inNumber read phase, stack) us = some (.inNumber (us.reverse ++ read) phase', stack) := by
  induction us generalizing read phase with
  | nil =>
    obtain rfl := Option.some.inj h
    rfl
  | cons u us ih =>
    rw [List.foldlM_cons] at h
    cases hnext : phase.next u with
    | none =>
      rw [hnext] at h
      cases h
    | some phase₁ =>
      rw [hnext] at h
      have hstep : step (.inNumber read phase, stack) u = some (.inNumber (u :: read) phase₁, stack) := by
        simp only [step, hnext]
      rw [runFrom_cons_of_step hstep, ih h]
      simp

/-- A unit that starts a number starts nothing else. -/
theorem first_cases {u : UInt16} {phase : NumberPhase} (h : NumberPhase.first u = some phase) :
    isSpace u = false ∧ u ≠ unit ']' ∧ ∀ stack, openValue stack u = some (.inNumber [u] phase, stack) := by
  have hrange : u = unit '-' ∨ isDigit u = true := by
    rw [NumberPhase.first] at h
    split_ifs at h with hminus hzero hdigit
    · exact Or.inl hminus
    · subst hzero
      exact Or.inr rfl
    · exact Or.inr hdigit
  have hne : ∀ c : UInt16, c ≠ unit '-' → isDigit c = false → u ≠ c := by
    rintro c hminus hdigit rfl
    rcases hrange with h | h
    · exact hminus h
    · rw [h] at hdigit
      cases hdigit
  refine ⟨?_, hne _ (by decide) (by decide), ?_⟩
  · refine decide_eq_false ?_
    simp only [not_or]
    exact ⟨hne _ (by decide) (by decide), hne _ (by decide) (by decide), hne _ (by decide) (by decide),
      hne _ (by decide) (by decide)⟩
  · intro stack
    rw [openValue, if_neg (hne _ (by decide) (by decide)), if_neg (hne _ (by decide) (by decide)),
      if_neg (hne _ (by decide) (by decide)), if_neg (hne _ (by decide) (by decide)),
      if_neg (hne _ (by decide) (by decide)), if_neg (hne _ (by decide) (by decide)), h]
    rfl

/-- Other units do not continue a number. -/
theorem next_eq_none {u : UInt16} (hdigit : isDigit u = false)
    (hother : u ∉ [unit '+', unit '-', unit '.', unit 'e', unit 'E']) (phase : NumberPhase) :
    phase.next u = none := by
  simp only [List.mem_cons, List.not_mem_nil, or_false, not_or] at hother
  obtain ⟨hplus, hminus, hpoint, he, hE⟩ := hother
  have hzero : u ≠ unit '0' := by
    rintro rfl
    cases hdigit
  cases phase <;> simp [NumberPhase.next, NumberPhase.afterInt, *]

/-- What may follow a value is not part of a number. -/
theorem next_of_mem {u : UInt16} (hu : u ∈ [unit ',', unit ']', unit '}']) (phase : NumberPhase) :
    phase.next u = none := by
  simp only [List.mem_cons, List.not_mem_nil, or_false] at hu
  rcases hu with rfl | rfl | rfl
  · exact next_eq_none (by decide) (by decide) phase
  · exact next_eq_none (by decide) (by decide) phase
  · exact next_eq_none (by decide) (by decide) phase

/-! ### Values -/

/-- The value has been read, to its last unit. -/
def Settled (v : JsonValue) (stack : List Frame) (st : State) : Prop :=
  st = closeValue v stack ∨
    ∃ spelling phase, v = .number spelling ∧ NumberPhase.complete phase = true ∧
      st = (.inNumber spelling.reverse phase, stack)

/-- Behind a value only a comma or a closing bracket is looked at, and they close the value first. -/
theorem Settled.step {v : JsonValue} {stack : List Frame} {st : State} (h : Settled v stack st)
    {u : UInt16} (hu : u ∈ [unit ',', unit ']', unit '}']) :
    Json.step st u = stepAfter (closeValue v stack) u := by
  rcases h with rfl | ⟨spelling, phase, rfl, hcomplete, rfl⟩
  · cases stack with
    | nil => rfl
    | cons frame stack =>
      cases frame with
      | array items => rfl
      | object fields name => rfl
  · simp only [Json.step, next_of_mem hu, hcomplete, if_true, List.reverse_reverse]

/-- At the end of the text a value on an empty stack is the result. -/
theorem Settled.finish {v : JsonValue} {st : State} (h : Settled v [] st) : Json.finish st = some v := by
  rcases h with rfl | ⟨spelling, phase, rfl, hcomplete, rfl⟩
  · rfl
  · simp only [Json.finish, hcomplete, if_true, List.reverse_reverse]

/-- A number is written with its spelling; nothing in it tells that it has ended, so it is settled, not closed. -/
theorem stringify_number {spelling : Text} (h : IsNumber spelling) (stack : List Frame) :
    ∃ st, runFrom (.value, stack) spelling = some st ∧ Settled (.number spelling) stack st := by
  obtain ⟨phase, hphase, hcomplete⟩ := h
  cases spelling with
  | nil => cases hphase
  | cons u us =>
    rw [numberPhase] at hphase
    obtain ⟨phase₁, hfirst, hrest⟩ := Option.bind_eq_some_iff.mp hphase
    obtain ⟨hspace, -, hopen⟩ := first_cases hfirst
    have hstep : Json.step (.value, stack) u = some (.inNumber [u] phase₁, stack) := by
      simp only [Json.step, hspace, hopen]
      rfl
    refine ⟨(.inNumber (u :: us).reverse phase, stack), ?_, Or.inr ⟨_, phase, rfl, hcomplete, rfl⟩⟩
    rw [runFrom_cons_of_step hstep, run_inNumber hrest]
    simp

/-- A value does not start like the end of an array. -/
theorem firstItem_eq_value {v : JsonValue} (hv : Spelled v) (stack : List Frame) (rest : Text) :
    runFrom (.firstItem, stack) (stringify v ++ rest) =
      runFrom (.value, .array [] :: stack) (stringify v ++ rest) := by
  have hfirst : ∃ u us, stringify v = u :: us ∧ isSpace u = false ∧ u ≠ unit ']' := by
    cases v with
    | null => exact ⟨_, _, rfl, by decide, by decide⟩
    | bool b =>
      cases b with
      | false => exact ⟨_, _, rfl, by decide, by decide⟩
      | true => exact ⟨_, _, rfl, by decide, by decide⟩
    | number spelling =>
      obtain ⟨phase, hphase, -⟩ := hv
      cases spelling with
      | nil => cases hphase
      | cons u us =>
        obtain ⟨phase₁, hfirst, -⟩ := Option.bind_eq_some_iff.mp hphase
        exact ⟨u, us, rfl, (first_cases hfirst).1, (first_cases hfirst).2.1⟩
    | string s => exact ⟨_, _, rfl, by decide, by decide⟩
    | array items =>
      cases items with
      | nil => exact ⟨_, _, rfl, by decide, by decide⟩
      | cons v vs => exact ⟨_, _, rfl, by decide, by decide⟩
    | object fields =>
      cases fields with
      | nil => exact ⟨_, _, rfl, by decide, by decide⟩
      | cons f fields => exact ⟨_, _, rfl, by decide, by decide⟩
  obtain ⟨u, us, htext, hspace, hbracket⟩ := hfirst
  rw [htext, List.cons_append, runFrom_cons, runFrom_cons]
  simp only [Json.step, hspace, if_neg hbracket]
  rfl

mutual

/-- A written value is read to its end. -/
theorem run_stringify (v : JsonValue) (hv : Spelled v) (stack : List Frame) :
    ∃ st, runFrom (.value, stack) (stringify v) = some st ∧ Settled v stack st := by
  cases v with
  | null => exact ⟨_, rfl, Or.inl rfl⟩
  | bool b =>
    cases b with
    | false => exact ⟨_, rfl, Or.inl rfl⟩
    | true => exact ⟨_, rfl, Or.inl rfl⟩
  | number spelling => exact stringify_number hv stack
  | string s => exact ⟨_, run_quote_value s, Or.inl rfl⟩
  | array items =>
    cases items with
    | nil => exact ⟨_, rfl, Or.inl rfl⟩
    | cons v vs =>
      have hopen : step (.value, stack) (unit '[') = some (.firstItem, stack) := rfl
      obtain ⟨st, hrun, hst⟩ := run_stringify v hv.1 (.array [] :: stack)
      refine ⟨closeValue (.array (v :: vs)) stack, ?_, Or.inl rfl⟩
      show runFrom (.value, stack) (unit '[' :: (stringify v ++ stringifyItems vs)) = _
      rw [runFrom_cons_of_step hopen, firstItem_eq_value hv.1, runFrom_append, hrun]
      exact run_stringifyItems vs hv.2 [] v hst
  | object fields =>
    cases fields with
    | nil => exact ⟨_, rfl, Or.inl rfl⟩
    | cons f fields =>
      obtain ⟨name, v⟩ := f
      have hopen : step (.value, stack) (unit '{') = some (.firstName, stack) := rfl
      have hname : step (.firstName, stack) (unit '"') = some (.inString (some []) [] .plain, stack) := rfl
      obtain ⟨st, hrun, hst⟩ := run_stringify v hv.1 (.object [] name :: stack)
      refine ⟨closeValue (.object ((name, v) :: fields)) stack, ?_, Or.inl rfl⟩
      show runFrom (.value, stack)
        (unit '{' :: (quote name ++ unit ':' :: (stringify v ++ stringifyFields fields))) = _
      rw [runFrom_cons_of_step hopen, run_name hname, runFrom_append, hrun]
      exact run_stringifyFields fields hv.2 [] (name, v) hst

/-- The rest of an array: each item settles before the comma, and the bracket closes the last. -/
theorem run_stringifyItems (vs : List JsonValue) (hvs : SpelledItems vs) (items : List JsonValue)
    {stack : List Frame} (v : JsonValue) {st : State} (hst : Settled v (.array items :: stack) st) :
    runFrom st (stringifyItems vs) =
      some (closeValue (.array (items.reverse ++ v :: vs)) stack) := by
  cases vs with
  | nil =>
    show runFrom st [unit ']'] = _
    have hstep : step st (unit ']') = some (closeValue (.array (v :: items).reverse) stack) := hst.step (by decide)
    rw [runFrom_cons_of_step hstep, List.reverse_cons]
    rfl
  | cons w ws =>
    have hstep : step st (unit ',') = some (.value, .array (v :: items) :: stack) := hst.step (by decide)
    obtain ⟨st', hrun, hst'⟩ := run_stringify w hvs.1 (.array (v :: items) :: stack)
    show runFrom st (unit ',' :: (stringify w ++ stringifyItems ws)) = _
    rw [runFrom_cons_of_step hstep, runFrom_append, hrun]
    have htail := run_stringifyItems ws hvs.2 (v :: items) w hst'
    rw [List.reverse_cons, List.append_assoc] at htail
    exact htail

/-- The rest of an object, in the same way, with a name before each value. -/
theorem run_stringifyFields (fs : List (Text × JsonValue)) (hfs : SpelledFields fs)
    (fields : List (Text × JsonValue)) {stack : List Frame} (f : Text × JsonValue) {st : State}
    (hst : Settled f.2 (.object fields f.1 :: stack) st) :
    runFrom st (stringifyFields fs) =
      some (closeValue (.object (fields.reverse ++ f :: fs)) stack) := by
  cases fs with
  | nil =>
    show runFrom st [unit '}'] = _
    have hstep : step st (unit '}') = some (closeValue (.object (f :: fields).reverse) stack) :=
      hst.step (by decide)
    rw [runFrom_cons_of_step hstep, List.reverse_cons]
    rfl
  | cons g gs =>
    obtain ⟨name, w⟩ := g
    have hstep : step st (unit ',') = some (.name (f :: fields), stack) := hst.step (by decide)
    have hname : step (.name (f :: fields), stack) (unit '"') =
      some (.inString (some (f :: fields)) [] .plain, stack) := rfl
    obtain ⟨st', hrun, hst'⟩ := run_stringify w hfs.1 (.object (f :: fields) name :: stack)
    show runFrom st (unit ',' :: (quote name ++ unit ':' :: (stringify w ++ stringifyFields gs))) = _
    rw [runFrom_cons_of_step hstep, run_name hname, runFrom_append, hrun]
    have htail := run_stringifyFields gs hfs.2 (f :: fields) (name, w) hst'
    rw [List.reverse_cons, List.append_assoc] at htail
    exact htail

end

/-- **What is written is read back.** -/
theorem parse_stringify {v : JsonValue} (hv : Spelled v) : parse (stringify v) = some v := by
  obtain ⟨st, hrun, hst⟩ := run_stringify v hv []
  rw [parse, hrun]
  exact hst.finish

/-! ## What is written is well-formed -/

/-- No surrogate without its partner. -/
def wellFormed : Text → Bool
  | [] => true
  | [u] => !(isHigh u || isLow u)
  | u :: v :: us =>
    if isHigh u then isLow v && wellFormed us
    else if isLow u then false
    else wellFormed (v :: us)

/-- A unit that is no surrogate. -/
def isSingle (u : UInt16) : Bool := !(isHigh u || isLow u)

/-- A unit that is no surrogate in front does not matter to the surrogates behind. -/
theorem wellFormed_cons {u : UInt16} (hu : isSingle u = true) (us : Text) :
    wellFormed (u :: us) = wellFormed us := by
  cases us with
  | nil => exact hu
  | cons v us =>
    rw [isSingle, Bool.not_eq_true', Bool.or_eq_false_iff] at hu
    simp only [wellFormed, hu.1, hu.2]
    rfl

theorem wellFormed_append {xs : Text} (h : ∀ u ∈ xs, isSingle u = true) (ys : Text) :
    wellFormed (xs ++ ys) = wellFormed ys := by
  induction xs with
  | nil => rfl
  | cons x xs ih =>
    rw [List.cons_append, wellFormed_cons (h x List.mem_cons_self),
      ih fun u hu => h u (List.mem_cons_of_mem _ hu)]

/-- Everything below the surrogates stands for itself; so does all of ASCII. -/
theorem isSingle_of_lt {u : UInt16} (h : u.toNat < 0xD800) : isSingle u = true := by
  have hhigh : isHigh u = false := by
    refine decide_eq_false fun hp => ?_
    have hle : 0xD800 ≤ u.toNat := UInt16.le_iff_toNat_le.mp hp.1
    omega
  have hlow : isLow u = false := by
    refine decide_eq_false fun hp => ?_
    have hle : 0xDC00 ≤ u.toNat := UInt16.le_iff_toNat_le.mp hp.1
    omega
  rw [isSingle, hhigh, hlow]
  rfl

theorem isSingle_hexUnit : ∀ n < 16, isSingle (hexUnit n) = true := by decide

/-- A written unit has no lone surrogate: one that is alone in the string has been escaped. -/
theorem wellFormed_quoteUnit (u : UInt16) (rest : Text) :
    wellFormed (quoteUnit u ++ rest) = wellFormed rest := by
  rw [quoteUnit]
  cases h : shortEscape u with
  | some c =>
    have hc : isSingle c = true := by
      rw [shortEscape] at h
      split_ifs at h
      all_goals
        obtain rfl := Option.some.inj h
        decide
    show wellFormed (unit '\\' :: c :: rest) = _
    rw [wellFormed_cons (by decide), wellFormed_cons hc]
  | none =>
    by_cases hplain : u < 0x20 ∨ isHigh u ∨ isLow u
    · simp only [if_pos hplain]
      have hu : u.toNat < 65536 := u.toNat_lt
      show wellFormed (unit '\\' :: unit 'u' :: hexUnit _ :: hexUnit _ :: hexUnit _ :: hexUnit _ :: rest) = _
      rw [wellFormed_cons (by decide), wellFormed_cons (by decide),
        wellFormed_cons (isSingle_hexUnit _ (by omega)), wellFormed_cons (isSingle_hexUnit _ (by omega)),
        wellFormed_cons (isSingle_hexUnit _ (by omega)), wellFormed_cons (isSingle_hexUnit _ (by omega))]
    · simp only [if_neg hplain]
      rw [not_or, not_or] at hplain
      refine wellFormed_cons ?_ rest
      rw [isSingle, Bool.not_eq_true', Bool.or_eq_false_iff]
      exact ⟨Bool.eq_false_iff.mpr hplain.2.1, Bool.eq_false_iff.mpr hplain.2.2⟩

/-- So a written string may be encoded as UTF-8 without loss. -/
theorem wellFormed_quote (s rest : Text) : wellFormed (quote s ++ rest) = wellFormed rest := by
  have hbody : ∀ rest, wellFormed (quoteBody s ++ rest) = wellFormed rest := by
    induction s using quoteBody.induct with
    | case1 => exact fun _ => rfl
    | case2 u => exact fun rest => wellFormed_quoteUnit u rest
    | case3 u v us hpair ih =>
      intro rest
      rw [quoteBody, if_pos hpair, List.cons_append, List.cons_append]
      simp only [wellFormed, hpair.1, hpair.2, if_true, Bool.true_and]
      exact ih rest
    | case4 u v us hpair ih =>
      intro rest
      rw [quoteBody, if_neg hpair, List.append_assoc, wellFormed_quoteUnit, ih]
  rw [quote, List.cons_append, wellFormed_cons (by decide), List.append_assoc, hbody,
    List.singleton_append, wellFormed_cons (by decide)]

/-- The units of a number. -/
theorem isSingle_of_digit {u : UInt16} (h : isDigit u = true) : isSingle u = true := by
  have hle : u.toNat ≤ 57 := UInt16.le_iff_toNat_le.mp (of_decide_eq_true h).2
  exact isSingle_of_lt (by omega)

theorem isSingle_of_first {phase : NumberPhase} {u : UInt16} (h : NumberPhase.first u = some phase) :
    isSingle u = true := by
  rw [NumberPhase.first] at h
  split_ifs at h with hminus hzero hdigit
  · subst hminus
    decide
  · subst hzero
    decide
  · exact isSingle_of_digit hdigit

theorem isSingle_of_next {phase phase' : NumberPhase} {u : UInt16} (h : phase.next u = some phase') :
    isSingle u = true := by
  by_contra hsurrogate
  have hdigit : isDigit u = false := Bool.eq_false_iff.mpr fun hd => hsurrogate (isSingle_of_digit hd)
  have hother : u ∉ [unit '+', unit '-', unit '.', unit 'e', unit 'E'] := fun hmem =>
    hsurrogate (List.all_eq_true.mp (show List.all _ isSingle = true by decide) u hmem)
  rw [next_eq_none hdigit hother] at h
  cases h

theorem isSingle_of_isNumber {spelling : Text} (h : IsNumber spelling) : ∀ u ∈ spelling, isSingle u = true := by
  have hrest : ∀ (us : Text) (phase phase' : NumberPhase), us.foldlM NumberPhase.next phase = some phase' →
      ∀ u ∈ us, isSingle u = true := by
    intro us
    induction us with
    | nil => exact fun _ _ _ u hu => absurd hu List.not_mem_nil
    | cons v us ih =>
      intro phase phase' hfold u hu
      obtain ⟨phase₁, hnext, hfold⟩ := Option.bind_eq_some_iff.mp ((List.foldlM_cons).symm.trans hfold)
      rcases List.mem_cons.mp hu with rfl | hu
      · exact isSingle_of_next hnext
      · exact ih phase₁ phase' hfold u hu
  obtain ⟨phase, hphase, -⟩ := h
  cases spelling with
  | nil => cases hphase
  | cons v us =>
    obtain ⟨phase₁, hfirst, hfold⟩ := Option.bind_eq_some_iff.mp hphase
    intro u hu
    rcases List.mem_cons.mp hu with rfl | hu
    · exact isSingle_of_first hfirst
    · exact hrest us phase₁ phase hfold u hu

mutual

/-- **What is written is well-formed**, whatever well-formed text follows. -/
theorem wellFormed_stringify (v : JsonValue) (hv : Spelled v) (rest : Text) :
    wellFormed (stringify v ++ rest) = wellFormed rest := by
  cases v with
  | null => exact wellFormed_append (List.all_eq_true.mp (by decide)) rest
  | bool b =>
    cases b with
    | false => exact wellFormed_append (List.all_eq_true.mp (by decide)) rest
    | true => exact wellFormed_append (List.all_eq_true.mp (by decide)) rest
  | number spelling => exact wellFormed_append (isSingle_of_isNumber hv) rest
  | string s => exact wellFormed_quote s rest
  | array items =>
    cases items with
    | nil => exact wellFormed_append (List.all_eq_true.mp (by decide)) rest
    | cons v vs =>
      show wellFormed (unit '[' :: (stringify v ++ stringifyItems vs) ++ rest) = _
      rw [List.cons_append, wellFormed_cons (by decide), List.append_assoc, wellFormed_stringify v hv.1,
        wellFormed_stringifyItems vs hv.2]
  | object fields =>
    cases fields with
    | nil => exact wellFormed_append (List.all_eq_true.mp (by decide)) rest
    | cons f fields =>
      obtain ⟨name, v⟩ := f
      show wellFormed (unit '{' :: (quote name ++ unit ':' :: (stringify v ++ stringifyFields fields)) ++ rest) = _
      rw [List.cons_append, wellFormed_cons (by decide), List.append_assoc, wellFormed_quote,
        List.cons_append, wellFormed_cons (by decide), List.append_assoc, wellFormed_stringify v hv.1,
        wellFormed_stringifyFields fields hv.2]

theorem wellFormed_stringifyItems (vs : List JsonValue) (hvs : SpelledItems vs) (rest : Text) :
    wellFormed (stringifyItems vs ++ rest) = wellFormed rest := by
  cases vs with
  | nil => exact wellFormed_append (List.all_eq_true.mp (by decide)) rest
  | cons w ws =>
    show wellFormed (unit ',' :: (stringify w ++ stringifyItems ws) ++ rest) = _
    rw [List.cons_append, wellFormed_cons (by decide), List.append_assoc, wellFormed_stringify w hvs.1,
      wellFormed_stringifyItems ws hvs.2]

theorem wellFormed_stringifyFields (fs : List (Text × JsonValue)) (hfs : SpelledFields fs) (rest : Text) :
    wellFormed (stringifyFields fs ++ rest) = wellFormed rest := by
  cases fs with
  | nil => exact wellFormed_append (List.all_eq_true.mp (by decide)) rest
  | cons f fs =>
    obtain ⟨name, w⟩ := f
    show wellFormed (unit ',' :: (quote name ++ unit ':' :: (stringify w ++ stringifyFields fs)) ++ rest) = _
    rw [List.cons_append, wellFormed_cons (by decide), List.append_assoc, wellFormed_quote,
      List.cons_append, wellFormed_cons (by decide), List.append_assoc, wellFormed_stringify w hfs.1,
      wellFormed_stringifyFields fs hfs.2]

end

end E2EMessaging.Lib.Json
