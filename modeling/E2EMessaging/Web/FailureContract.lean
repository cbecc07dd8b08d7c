/-
  WHAT A RELAY CAN MAKE THE TRANSPORT DO (`handleMessage` and the operations of
  `clients/web/src/relay_transport.ts`), with the frames as TEXTS.

  The documentation of `RelayTransport` says that failures "are surfaced as `RelayError` — never swallowed,
  never cause an unhandled exception".  A frame is any text, `JSON.parse` makes any value of it, and the code
  reads fields of that value and converts them without looking at their types.

  1. `handleMessage` empties the slot and then asks for `resp.ok`.  Of `null` there is no field, and an
     `error` without a string cannot become a message: the handler THROWS, with nobody left to settle.
  2. `base64ToBytes` hands whatever it is given to `atob`, which has an error of its own.

  Everything else is settled with a `RelayError`.  `failure_contract_iff`: the contract is kept exactly on
  the frames that do neither.

  The depth of the engine's STACK is not modelled: `String(v)` of an array nested deeply enough, or
  `JSON.parse` of its text, ends in a `RangeError` whose limit is the engine's and not the language's.
-/
import E2EMessaging.Web.RecordText
import E2EMessaging.Web.RelayTransport
import E2EMessaging.Web.Pow

namespace E2EMessaging.Web

open E2EMessaging.Lib E2EMessaging.Lib.Json

/-! ## Values as strings -/

/-- The string of a number, from its spelling: `Number::toString`. -/
abbrev NumberText := JsString → JsString

mutual

/-- `ToString`, where it does not throw. -/
def jsString (num : NumberText) : JsonValue → JsString
  | .null => units "null"
  | .bool true => units "true"
  | .bool false => units "false"
  | .number spelling => num spelling
  | .string s => s
  | .array items => joinItems num items
  | .object _ => units "[object Object]"

/-- `Array.prototype.join`: `null` is left blank. -/
def joinItems (num : NumberText) : List JsonValue → JsString
  | [] => []
  | [.null] => []
  | [v] => jsString num v
  | .null :: vs => unit ',' :: joinItems num vs
  | v :: vs => jsString num v ++ unit ',' :: joinItems num vs

end

/-- A value that counts as true: not `null`, `false`, zero or the empty string. -/
def truthyValue (num : NumberText) : JsonValue → Bool
  | .null => false
  | .bool b => b
  | .number spelling => decide (num spelling ≠ units "0")
  | .string s => decide (s ≠ [])
  | .array _ => true
  | .object _ => true

/-- A field that is there and counts as true. -/
def truthyField (num : NumberText) (name : String) (fields : List (JsString × JsonValue)) :
    Option JsonValue :=
  (field (units name) fields).filter (truthyValue num)

/-! ## What is thrown -/

/-- An error: a `RelayError` with its message, a `TypeError`, or the `DOMException` of `atob`. -/
inductive Thrown where
  | relayError (message : JsString)
  | typeError
  | invalidCharacter
  deriving Repr, DecidableEq

/-- `e instanceof RelayError`. -/
def Thrown.IsRelayError (e : Thrown) : Prop := ∃ message, e = .relayError message

/-- A `RelayError` of the code's own. -/
def relayError (message : String) : Thrown := .relayError (units message)

/-- The characters of a string, for `atob`; an unpaired surrogate is no base64 either way. -/
def asString (s : JsString) : String := String.ofList (utf16Chars s)

/-- `base64ToBytes` of a value of any type. -/
def base64Value (num : NumberText) (v : JsonValue) : Except Thrown Bytes :=
  if throwsToString v then .error .typeError
  else
    match RelayTransport.base64ToBytes (asString (jsString num v)) with
    | .error _ => .error .invalidCharacter
    | .ok bytes => .ok bytes

/-! ## `handleMessage` -/

/-- What is done with the pending request. -/
inductive Answer where
  | resolve (fields : List (JsString × JsonValue))
  | reject (e : Thrown)
  /-- The handler throws first. -/
  | threw
  deriving Repr

/-- `p.reject(new RelayError(resp.error ?? 'unknown relay error'))`. -/
def rejectWith (num : NumberText) : Option JsonValue → Answer
  | none => .reject (relayError "unknown relay error")
  | some .null => .reject (relayError "unknown relay error")
  | some v => if throwsToString v then .threw else .reject (.relayError (jsString num v))

/-- The frame, read and classified. -/
def answerOf (num : NumberText) (raw : JsString) : Answer :=
  match parse raw with
  | none => .reject (relayError "malformed JSON response from relay")
  | some .null => .threw
  | some (.object fields) =>
    match field (units "ok") fields with
    | some (.bool true) => .resolve fields
    | some (.bool false) => rejectWith num (field (units "error") fields)
    | _ => .reject (relayError "relay response missing ok field")
  -- arrays, strings, numbers and booleans have no field `ok`
  | some _ => .reject (relayError "relay response missing ok field")

/-- A run of the handler: the slot afterwards, the request settled and how, and whether it threw. -/
structure HandlerRun where
  pending : Option Nat
  settled : Option (Nat × Except Thrown (List (JsString × JsonValue)))
  threw : Bool

/-- **`handleMessage`.**  The slot is empty before anything is known about the frame. -/
def handleMessage (num : NumberText) (pending : Option Nat) (raw : JsString) : HandlerRun :=
  match pending with
  | none => ⟨none, none, false⟩
  | some p =>
    match answerOf num raw with
    | .resolve fields => ⟨none, some (p, .ok fields), false⟩
    | .reject e => ⟨none, some (p, .error e), false⟩
    | .threw => ⟨none, none, true⟩

/-! ## The operations -/

/-- The calls. -/
inductive RelayCall where
  | requestChallengeAndSolve (recipientId : String)
  | op (o : TransportOp)
  deriving Repr, DecidableEq

/-- `parseChallengeWire`, `solvePow` and `bytesToBase64`: from the wire of a challenge to its solution. -/
def solveWire (sha256 : Bytes → Bytes) (wire : Bytes) : Except Thrown String :=
  match RelayTransport.parseChallengeWire wire with
  | .error message => .error (relayError message)
  | .ok parsed =>
    match RelayTransport.solvePow sha256 parsed with
    | .err message => .error (relayError message)
    | .panic => .error .typeError
    | .ok solution =>
      match RelayTransport.bytesToBase64 solution with
      | .error _ => .error .invalidCharacter
      | .ok powSolution => .ok powSolution

/-- The rest of `requestChallengeAndSolve` after its response. -/
def solveChallenge (num : NumberText) (sha256 : Bytes → Bytes) (fields : List (JsString × JsonValue)) :
    Except Thrown (JsonValue × String) :=
  match truthyField num "challenge" fields, truthyField num "challenge_id" fields with
  | some challenge, some challengeId =>
    match base64Value num challenge with
    | .error e => .error e
    | .ok wire => (solveWire sha256 wire).map fun powSolution => (challengeId, powSolution)
  | _, _ => .error (relayError "challenge response missing fields")

/-- The bytes of a field, or the error that it is missing. -/
def fieldBytes (num : NumberText) (name message : String) (fields : List (JsString × JsonValue)) :
    Except Thrown Bytes :=
  match truthyField num name fields with
  | none => .error (relayError message)
  | some v => base64Value num v

/-- What a promise resolves with. -/
inductive CallValue where
  | nothing
  | bytes (b : Bytes)
  | challenge (challengeId : JsonValue) (powSolution : String)
  deriving Repr

/-- A call after the frames that answered it: it waits for another, it hangs since the handler threw, or
    its promise is settled. -/
inductive CallResult where
  | waiting
  | hangs
  | resolved (v : CallValue)
  | rejected (e : Thrown)
  deriving Repr

/-- What follows a round trip. -/
def afterAnswer (next : List (JsString × JsonValue) → CallResult) : Answer → CallResult
  | .resolve fields => next fields
  | .reject e => .rejected e
  | .threw => .hangs

/-- The end of a call that decodes its response. -/
def settleBytes : Except Thrown Bytes → CallResult
  | .ok b => .resolved (.bytes b)
  | .error e => .rejected e

/-- The challenge, and then the rest. -/
def withChallenge (num : NumberText) (sha256 : Bytes → Bytes) (rest : JsonValue → String → CallResult)
    (raw : JsString) : CallResult :=
  afterAnswer (fun fields =>
    match solveChallenge num sha256 fields with
    | .error e => .rejected e
    | .ok (challengeId, powSolution) => rest challengeId powSolution) (answerOf num raw)

/-- The second round trip of `publishPrekey` and `sendEnvelope`. -/
def secondRound (num : NumberText) : List JsString → CallResult
  | [] => .waiting
  | raw :: _ => afterAnswer (fun _ => .resolved .nothing) (answerOf num raw)

/-- **A call, answered by frames.** -/
def callResult (num : NumberText) (sha256 : Bytes → Bytes) : RelayCall → List JsString → CallResult
  | _, [] => .waiting
  | .requestChallengeAndSolve _, raw :: _ =>
    withChallenge num sha256 (fun challengeId powSolution => .resolved (.challenge challengeId powSolution)) raw
  | .op (.publishPrekey _ _), raw :: frames =>
    withChallenge num sha256 (fun _ _ => secondRound num frames) raw
  | .op (.sendEnvelope _ _), raw :: frames =>
    withChallenge num sha256 (fun _ _ => secondRound num frames) raw
  | .op (.lookupPrekey _), raw :: _ =>
    afterAnswer (fun fields => settleBytes
      (fieldBytes num "bundle" "lookup_prekey response missing bundle" fields)) (answerOf num raw)
  | .op (.pickupEnvelope _), raw :: _ =>
    afterAnswer (fun fields => settleBytes
      (fieldBytes num "envelope" "pickup_envelope response missing envelope" fields)) (answerOf num raw)

/-! ## The contract -/

/-- What the documentation promises of a call and the frames that come while it is pending: every frame
    settles the pending request and the handler does not throw; and what the call rejects with is a
    `RelayError`. -/
structure FailureContract (num : NumberText) (sha256 : Bytes → Bytes) (call : RelayCall)
    (frames : List JsString) : Prop where
  settles : ∀ raw ∈ frames, ∀ p, (∃ r, (handleMessage num (some p) raw).settled = some (p, r)) ∧
    (handleMessage num (some p) raw).threw = false
  relayErrors : ∀ e, callResult num sha256 call frames = .rejected e → e.IsRelayError

/-- A frame `handleMessage` can settle: it is not `null`, and the error it reports has a string. -/
def Settling (raw : JsString) : Prop :=
  parse raw ≠ some .null ∧
    ∀ fields v, parse raw = some (.object fields) → field (units "ok") fields = some (.bool false) →
      field (units "error") fields = some v → throwsToString v = false

/-- The challenge, if it comes with an id. -/
def challengeField (num : NumberText) (fields : List (JsString × JsonValue)) : Option JsonValue :=
  match truthyField num "challenge_id" fields with
  | none => none
  | some _ => truthyField num "challenge" fields

/-- The value a call hands to `base64ToBytes`, of the fields of its first response. -/
def decodedField (num : NumberText) (fields : List (JsString × JsonValue)) : RelayCall → Option JsonValue
  | .requestChallengeAndSolve _ => challengeField num fields
  | .op (.publishPrekey _ _) => challengeField num fields
  | .op (.sendEnvelope _ _) => challengeField num fields
  | .op (.lookupPrekey _) => truthyField num "bundle" fields
  | .op (.pickupEnvelope _) => truthyField num "envelope" fields

/-- A value with a string that is base64. -/
def Decodable (num : NumberText) (v : JsonValue) : Prop :=
  throwsToString v = false ∧
    ∃ bytes, RelayTransport.base64ToBytes (asString (jsString num v)) = .ok bytes

/-- A first response whose value for `base64ToBytes`, if there is one, can be decoded. -/
def DecodesFirst (num : NumberText) (call : RelayCall) (raw : JsString) : Prop :=
  ∀ fields v, parse raw = some (.object fields) → field (units "ok") fields = some (.bool true) →
    decodedField num fields call = some v → Decodable num v

/-! ## What can be done with a frame -/

/-- A frame resolves the request, or the handler throws, or the request is rejected with a `RelayError`. -/
inductive FrameAnswered (raw : JsString) : Answer → Prop where
  | resolve {fields : List (JsString × JsonValue)} (settling : Settling raw)
      (hparse : parse raw = some (.object fields)) (hok : field (units "ok") fields = some (.bool true)) :
      FrameAnswered raw (.resolve fields)
  | threw (h : ¬ Settling raw) : FrameAnswered raw .threw
  | reject {message : JsString} (settling : Settling raw)
      (hok : ∀ fields, parse raw = some (.object fields) → field (units "ok") fields ≠ some (.bool true)) :
      FrameAnswered raw (.reject (.relayError message))

/-- Other values than `null` and objects are settled, and so is what is no JSON. -/
theorem frameAnswered_of_not_object {raw message : JsString} {v : Option JsonValue} (hparse : parse raw = v)
    (hnull : v ≠ some .null) (hobject : ∀ fields, v ≠ some (.object fields)) :
    FrameAnswered raw (.reject (.relayError message)) := by
  rw [← hparse] at hnull hobject
  exact .reject ⟨hnull, fun fields _ h => absurd h (hobject fields)⟩ fun fields h => absurd h (hobject fields)

theorem rejectWith_some (num : NumberText) {v : JsonValue} (hv : v ≠ .null) :
    rejectWith num (some v) =
      if throwsToString v then .threw else .reject (.relayError (jsString num v)) := by
  cases v with
  | null => exact absurd rfl hv
  | _ => rfl

/-- An error becomes a message, unless it has no string. -/
theorem rejectWith_cases (num : NumberText) (error : Option JsonValue) :
    ((∃ v, error = some v ∧ throwsToString v = true) ∧ rejectWith num error = .threw) ∨
      ((∀ v, error = some v → throwsToString v = false) ∧
        ∃ message, rejectWith num error = .reject (.relayError message)) := by
  cases error with
  | none => exact Or.inr ⟨nofun, _, rfl⟩
  | some v =>
    by_cases hv : v = .null
    · subst hv
      refine Or.inr ⟨fun w h => ?_, _, rfl⟩
      rw [← Option.some.inj h]
      rfl
    · rw [rejectWith_some num hv]
      cases hthrows : throwsToString v with
      | false =>
        refine Or.inr ⟨fun w h => ?_, _, rfl⟩
        rw [← Option.some.inj h, hthrows]
      | true => exact Or.inl ⟨⟨v, rfl, hthrows⟩, rfl⟩

/-- An object is settled by its `ok`, and a failure by its `error`. -/
theorem frameAnswered_object (num : NumberText) {raw : JsString} {fields : List (JsString × JsonValue)}
    (hparse : parse raw = some (.object fields)) : FrameAnswered raw (answerOf num raw) := by
  have hsame : ∀ fields', parse raw = some (.object fields') → fields' = fields := by
    intro fields' h
    exact JsonValue.object.inj (Option.some.inj (h.symm.trans hparse))
  have hsettling : (field (units "ok") fields = some (.bool false) →
      ∀ v, field (units "error") fields = some v → throwsToString v = false) → Settling raw := by
    intro h
    refine ⟨by rw [hparse]; exact nofun, fun fields' v hfields hok herror => ?_⟩
    obtain rfl := hsame fields' hfields
    exact h hok v herror
  -- an `ok` that is no boolean
  have hmissing : (∀ b, field (units "ok") fields ≠ some (.bool b)) → ∀ message,
      FrameAnswered raw (.reject (.relayError message)) := by
    intro h message
    refine .reject (hsettling fun hok => absurd hok (h false)) fun fields' hfields => ?_
    rw [hsame fields' hfields]
    exact h true
  rw [answerOf, hparse]
  dsimp only
  cases hok : field (units "ok") fields with
  | none => exact hmissing (by rw [hok]; exact nofun) _
  | some v =>
    cases v with
    | bool b =>
      cases b with
      | true =>
        refine .resolve (hsettling fun h => ?_) hparse hok
        rw [hok] at h
        cases h
      | false =>
        dsimp only
        rcases rejectWith_cases num (field (units "error") fields) with
          ⟨⟨v, herror, hthrows⟩, hanswer⟩ | ⟨hstring, message, hanswer⟩
        · rw [hanswer]
          refine .threw fun h => ?_
          rw [h.2 fields v hparse hok herror] at hthrows
          cases hthrows
        · rw [hanswer]
          refine .reject (hsettling fun _ => hstring) fun fields' hfields h => ?_
          rw [hsame fields' hfields, hok] at h
          cases h
    | _ => exact hmissing (by rw [hok]; exact nofun) _

/-- **Every frame is answered in one of the three ways.** -/
theorem frameAnswered (num : NumberText) (raw : JsString) : FrameAnswered raw (answerOf num raw) := by
  cases hparse : parse raw with
  | none =>
    rw [answerOf, hparse]
    exact frameAnswered_of_not_object hparse nofun nofun
  | some v =>
    cases v with
    | null =>
      rw [answerOf, hparse]
      exact .threw fun h => h.1 hparse
    | object fields => exact frameAnswered_object num hparse
    | _ =>
      rw [answerOf, hparse]
      exact frameAnswered_of_not_object hparse nofun nofun

/-! ## What a call rejects with -/

/-- The search ends with a solution or with an error of its own. -/
theorem solvePowFrom_ne_panic (sha256 : Bytes → Bytes) (preimage : Bytes) (difficulty counter : Nat) :
    RelayTransport.solvePowFrom sha256 preimage difficulty counter ≠ .panic := by
  induction counter using RelayTransport.solvePowFrom.induct sha256 preimage difficulty with
  | case1 counter suffix hmeets =>
    rw [RelayTransport.solvePowFrom, if_pos hmeets]
    exact Outcome.ok_ne_panic _
  | case2 counter suffix hmeets hmax =>
    rw [RelayTransport.solvePowFrom, if_neg hmeets, if_pos hmax]
    exact Outcome.err_ne_panic _
  | case3 counter suffix hmeets hmax ih =>
    rw [RelayTransport.solvePowFrom, if_neg hmeets, if_neg hmax]
    exact ih

theorem solvePow_ne_panic (sha256 : Bytes → Bytes) (parsed : RelayTransport.ParsedChallenge) :
    RelayTransport.solvePow sha256 parsed ≠ .panic := by
  rw [RelayTransport.solvePow]
  split
  · exact Outcome.err_ne_panic _
  · exact solvePowFrom_ne_panic _ _ _ _

section

variable {num : NumberText} {sha256 : Bytes → Bytes} {fields : List (JsString × JsonValue)}

theorem forall_error_iff {α : Type} {e : Thrown} {P : Thrown → Prop} :
    (∀ e', (Except.error e : Except Thrown α) = .error e' → P e') ↔ P e := by
  constructor
  · intro h
    exact h e rfl
  · intro h e' he
    cases he
    exact h

theorem forall_rejected_iff {e : Thrown} {P : Thrown → Prop} :
    (∀ e', CallResult.rejected e = .rejected e' → P e') ↔ P e := by
  constructor
  · intro h
    exact h e rfl
  · intro h e' he
    cases he
    exact h

/-- `base64ToBytes` has only errors that are not `RelayError`s. -/
theorem base64Value_error_iff {v : JsonValue} :
    (∀ e, base64Value num v = .error e → e.IsRelayError) ↔ Decodable num v := by
  rw [base64Value, Decodable]
  cases throwsToString v with
  | true =>
    constructor
    · intro h
      obtain ⟨_, he⟩ := h .typeError rfl
      cases he
    · rintro ⟨h, -⟩
      cases h
  | false =>
    rw [if_neg Bool.false_ne_true]
    cases RelayTransport.base64ToBytes (asString (jsString num v)) with
    | error m =>
      constructor
      · intro h
        obtain ⟨_, he⟩ := h .invalidCharacter rfl
        cases he
      · rintro ⟨-, bytes, h⟩
        cases h
    | ok bytes => exact ⟨fun _ => ⟨rfl, bytes, rfl⟩, fun _ _ h => nomatch h⟩

theorem fieldBytes_error_iff {name message : String} :
    (∀ e, fieldBytes num name message fields = .error e → e.IsRelayError) ↔
      ∀ v, truthyField num name fields = some v → Decodable num v := by
  rw [fieldBytes]
  cases truthyField num name fields with
  | none =>
    constructor
    · intro _ v h
      cases h
    · intro _ e h
      cases h
      exact ⟨units message, rfl⟩
  | some v =>
    dsimp only
    rw [base64Value_error_iff]
    constructor
    · intro h w hw
      rwa [← Option.some.inj hw]
    · intro h
      exact h v rfl

/-- Once the challenge is decoded, what is thrown is a `RelayError`. -/
theorem solveWire_error {wire : Bytes} {e : Thrown} (h : solveWire sha256 wire = .error e) :
    e.IsRelayError := by
  rw [solveWire] at h
  cases hparse : RelayTransport.parseChallengeWire wire with
  | error message =>
    rw [hparse] at h
    cases h
    exact ⟨_, rfl⟩
  | ok parsed =>
    rw [hparse] at h
    dsimp only at h
    cases hsolve : RelayTransport.solvePow sha256 parsed with
    | err message =>
      rw [hsolve] at h
      cases h
      exact ⟨_, rfl⟩
    | panic => exact absurd hsolve (solvePow_ne_panic sha256 parsed)
    | ok solution =>
      rw [hsolve] at h
      dsimp only at h
      rw [RelayTransport.bytesToBase64_eq] at h
      cases h

theorem solveChallenge_error_iff (sha256 : Bytes → Bytes) :
    (∀ e, solveChallenge num sha256 fields = .error e → e.IsRelayError) ↔
      ∀ v, challengeField num fields = some v → Decodable num v := by
  rw [solveChallenge, challengeField]
  have hmissing : ∀ e, (Except.error (relayError "challenge response missing fields") :
      Except Thrown (JsonValue × String)) = .error e → e.IsRelayError :=
    forall_error_iff.mpr ⟨_, rfl⟩
  cases truthyField num "challenge_id" fields with
  | none =>
    cases truthyField num "challenge" fields with
    | none => exact ⟨fun _ _ h => (nomatch h), fun _ => hmissing⟩
    | some challenge => exact ⟨fun _ _ h => (nomatch h), fun _ => hmissing⟩
  | some challengeId =>
    cases truthyField num "challenge" fields with
    | none => exact ⟨fun _ _ h => (nomatch h), fun _ => hmissing⟩
    | some challenge =>
      dsimp only
      constructor
      · intro h v hv
        rw [← Option.some.inj hv, ← base64Value_error_iff]
        intro e he
        refine h e ?_
        rw [he]
      · intro h e he
        have hdecodable := base64Value_error_iff.mpr (h challenge rfl)
        cases hwire : base64Value num challenge with
        | error e' =>
          rw [hwire] at he
          cases he
          exact hdecodable e hwire
        | ok wire =>
          rw [hwire] at he
          dsimp only at he
          cases hsolve : solveWire sha256 wire with
          | error e' =>
            rw [hsolve] at he
            cases he
            exact solveWire_error hsolve
          | ok powSolution =>
            rw [hsolve] at he
            cases he

/-- A response that says `ok` is settled. -/
theorem settling_of_ok {raw : JsString} (hparse : parse raw = some (.object fields))
    (hok : field (units "ok") fields = some (.bool true)) : Settling raw := by
  refine ⟨by rw [hparse]; exact nofun, fun fields' v hfields hfalse _ => ?_⟩
  rw [JsonValue.object.inj (Option.some.inj (hfields.symm.trans hparse)), hok] at hfalse
  cases hfalse

/-- **The errors of a round trip** are `RelayError`s, except for those of what follows it. -/
theorem afterAnswer_error_iff {next : List (JsString × JsonValue) → CallResult} {raw : JsString}
    {Good : List (JsString × JsonValue) → Prop}
    (hnext : ∀ fields, (∀ e, next fields = .rejected e → e.IsRelayError) ↔ Good fields) :
    (∀ e, afterAnswer next (answerOf num raw) = .rejected e → e.IsRelayError) ↔
      ∀ fields, parse raw = some (.object fields) → field (units "ok") fields = some (.bool true) →
        Good fields := by
  have hanswered := frameAnswered num raw
  generalize answerOf num raw = answer at hanswered ⊢
  cases hanswered with
  | @resolve fields _ hparse hok =>
    show (∀ e, next fields = .rejected e → _) ↔ _
    rw [hnext fields]
    constructor
    · intro h fields' hfields _
      rwa [JsonValue.object.inj (Option.some.inj (hfields.symm.trans hparse))]
    · intro h
      exact h fields hparse hok
  | reject _ hok =>
    constructor
    · intro _ fields hparse htrue
      exact absurd htrue (hok fields hparse)
    · intro _ e h
      cases h
      exact ⟨_, rfl⟩
  | threw hnot =>
    constructor
    · intro _ fields hparse htrue
      exact absurd (settling_of_ok hparse htrue) hnot
    · intro _ e h
      cases h

theorem settleBytes_rejected {x : Except Thrown Bytes} :
    (∀ e, settleBytes x = .rejected e → e.IsRelayError) ↔ ∀ e, x = .error e → e.IsRelayError := by
  cases x with
  | ok b => exact ⟨fun _ _ h => (nomatch h), fun _ _ h => (nomatch h)⟩
  | error e => exact forall_rejected_iff.trans forall_error_iff.symm

theorem withChallenge_error_iff {rest : JsonValue → String → CallResult} {raw : JsString}
    (hrest : ∀ challengeId powSolution e, rest challengeId powSolution = .rejected e → e.IsRelayError) :
    (∀ e, withChallenge num sha256 rest raw = .rejected e → e.IsRelayError) ↔
      ∀ fields, parse raw = some (.object fields) → field (units "ok") fields = some (.bool true) →
        ∀ v, challengeField num fields = some v → Decodable num v := by
  refine afterAnswer_error_iff fun fields => ?_
  rw [← solveChallenge_error_iff sha256]
  cases solveChallenge num sha256 fields with
  | error e => exact forall_rejected_iff.trans forall_error_iff.symm
  | ok r => exact ⟨fun _ _ h => (nomatch h), fun _ => hrest r.1 r.2⟩

/-- The second round trip decodes nothing. -/
theorem secondRound_rejected {frames : List JsString} {e : Thrown}
    (h : secondRound num frames = .rejected e) : e.IsRelayError := by
  cases frames with
  | nil => cases h
  | cons raw frames =>
    have hnothing : ∀ fields : List (JsString × JsonValue),
        (∀ e, CallResult.resolved .nothing = .rejected e → e.IsRelayError) ↔ True := by
      intro fields
      exact ⟨fun _ => trivial, fun _ _ h => (nomatch h)⟩
    exact (afterAnswer_error_iff hnothing).mpr (fun _ _ _ => trivial) e h

/-- **A call rejects with a `RelayError` exactly if what it decodes of its first response can be decoded.** -/
theorem callResult_error_iff (call : RelayCall) (frames : List JsString) :
    (∀ e, callResult num sha256 call frames = .rejected e → e.IsRelayError) ↔
      ∀ raw, frames.head? = some raw → DecodesFirst num call raw := by
  cases frames with
  | nil =>
    constructor
    · intro _ raw h
      cases h
    · intro _ e h
      cases call with
      | requestChallengeAndSolve r => cases h
      | op o => cases o <;> cases h
  | cons raw frames =>
    have hhead : (∀ raw', (raw :: frames).head? = some raw' → DecodesFirst num call raw') ↔
        ∀ fields, parse raw = some (.object fields) → field (units "ok") fields = some (.bool true) →
          ∀ v, decodedField num fields call = some v → Decodable num v := by
      constructor
      · intro h fields hparse hok v hv
        exact h raw rfl fields v hparse hok hv
      · intro h raw' hraw
        cases hraw
        intro fields v hparse hok hv
        exact h fields hparse hok v hv
    rw [hhead]
    cases call with
    | requestChallengeAndSolve r => exact withChallenge_error_iff fun _ _ _ h => (nomatch h)
    | op o =>
      cases o with
      | publishPrekey r bundle => exact withChallenge_error_iff fun _ _ _ h => secondRound_rejected h
      | sendEnvelope r envelope => exact withChallenge_error_iff fun _ _ _ h => secondRound_rejected h
      | lookupPrekey r =>
        exact afterAnswer_error_iff fun fields => settleBytes_rejected.trans fieldBytes_error_iff
      | pickupEnvelope r =>
        exact afterAnswer_error_iff fun fields => settleBytes_rejected.trans fieldBytes_error_iff

/-- **A frame settles the pending request exactly if it is `Settling`**; otherwise the handler throws and
    the slot is empty. -/
theorem handleMessage_settles_iff (p : Nat) (raw : JsString) :
    ((∃ r, (handleMessage num (some p) raw).settled = some (p, r)) ∧
      (handleMessage num (some p) raw).threw = false) ↔ Settling raw := by
  have hanswered := frameAnswered num raw
  rw [handleMessage]
  generalize answerOf num raw = answer at hanswered ⊢
  cases hanswered with
  | resolve settling _ _ => exact ⟨fun _ => settling, fun _ => ⟨⟨_, rfl⟩, rfl⟩⟩
  | reject settling _ => exact ⟨fun _ => settling, fun _ => ⟨⟨_, rfl⟩, rfl⟩⟩
  | threw hnot =>
    constructor
    · rintro ⟨-, h⟩
      cases h
    · intro h
      exact absurd h hnot

end

/-- **The failure contract is kept exactly on the frames that can be settled and decoded**: none is `null`
    or reports an error without a string, and what the call decodes of its first response, if anything, has
    a string that is base64. -/
theorem failure_contract_iff (num : NumberText) (sha256 : Bytes → Bytes) (call : RelayCall)
    (frames : List JsString) :
    FailureContract num sha256 call frames ↔
      (∀ raw ∈ frames, Settling raw) ∧ ∀ raw, frames.head? = some raw → DecodesFirst num call raw := by
  constructor
  · intro h
    exact ⟨fun raw hraw => (handleMessage_settles_iff 0 raw).mp (h.settles raw hraw 0),
      (callResult_error_iff call frames).mp h.relayErrors⟩
  · rintro ⟨hsettling, hdecodes⟩
    exact ⟨fun raw hraw p => (handleMessage_settles_iff p raw).mpr (hsettling raw hraw),
      (callResult_error_iff call frames).mpr hdecodes⟩

/-- What a promise was rejected with. -/
def CallResult.error : CallResult → Option Thrown
  | .rejected e => some e
  | _ => none

/-- On `null` the handler throws and a lookup hangs; a bundle that is no base64 is rejected with the error
    of `atob`. -/
theorem null_frame_hangs :
    ¬ FailureContract id (fun _ => []) (.op (.lookupPrekey "alice")) [units "null"] ∧
      callResult id (fun _ => []) (.op (.lookupPrekey "alice")) [units "null"] = .hangs ∧
      (callResult id (fun _ => []) (.op (.lookupPrekey "alice"))
        [units "\x7b\"ok\":true,\"bundle\":\"!\"\x7d"]).error = some .invalidCharacter := by
  refine ⟨fun h => ?_, rfl, by decide +kernel⟩
  have hthrew : (handleMessage id (some 0) (units "null")).threw = true := rfl
  rw [(h.settles (units "null") List.mem_cons_self 0).2] at hthrew
  cases hthrew

/-! ## The frames the transport model has -/

/-- A field that is a string. -/
def stringField (name : String) (fields : List (JsString × JsonValue)) : Option String :=
  match field (units name) fields with
  | some (.string s) => some (asString s)
  | _ => none

/-- A field that is a boolean. -/
def boolField (name : String) (fields : List (JsString × JsonValue)) : Option Bool :=
  match field (units name) fields with
  | some (.bool b) => some b
  | _ => none

/-- A response by the fields the transport reads, if they have the types it expects. -/
def replyOf (fields : List (JsString × JsonValue)) : Reply where
  ok := boolField "ok" fields
  error := stringField "error" fields
  challenge := stringField "challenge" fields
  challengeId := stringField "challenge_id" fields
  bundle := stringField "bundle" fields
  envelope := stringField "envelope" fields

theorem asString_missing :
    asString (units "relay response missing ok field") = "relay response missing ok field" := by
  decide +kernel

theorem asString_unknown : asString (units "unknown relay error") = "unknown relay error" := by
  decide +kernel

/-- **On a response whose `error` is a string, if there is one, `handleMessage` settles as `settleFrame`.** -/
theorem settleFrame_replyOf (num : NumberText) {raw : JsString} {fields : List (JsString × JsonValue)}
    (hparse : parse raw = some (.object fields))
    (herror : ∀ v, field (units "error") fields = some v → ∃ s, v = .string s) :
    (answerOf num raw = .resolve fields ∧
        settleFrame (.object (replyOf fields)) = .ok (replyOf fields)) ∨
      ∃ message, answerOf num raw = .reject (.relayError message) ∧
        settleFrame (.object (replyOf fields)) = .error (asString message) := by
  have hreply : (replyOf fields).ok = boolField "ok" fields := rfl
  -- an `ok` that is no boolean
  have hmissing : boolField "ok" fields = none →
      settleFrame (.object (replyOf fields)) =
        .error (asString (units "relay response missing ok field")) := by
    intro h
    rw [settleFrame, hreply, h, asString_missing]
  rw [answerOf, hparse]
  dsimp only
  cases hok : field (units "ok") fields with
  | none => exact Or.inr ⟨_, rfl, hmissing (by rw [boolField, hok])⟩
  | some v =>
    cases v with
    | bool b =>
      have hbool : boolField "ok" fields = some b := by rw [boolField, hok]
      cases b with
      | true =>
        refine Or.inl ⟨rfl, ?_⟩
        rw [settleFrame, hreply, hbool]
      | false =>
        refine Or.inr ?_
        rw [settleFrame, hreply, hbool]
        show ∃ message, rejectWith num (field (units "error") fields) = _ ∧
          Except.error ((stringField "error" fields).getD "unknown relay error") = _
        rw [stringField]
        cases hfield : field (units "error") fields with
        | none => exact ⟨_, rfl, congrArg Except.error asString_unknown.symm⟩
        | some v =>
          obtain ⟨s, rfl⟩ := herror v hfield
          exact ⟨s, rfl, rfl⟩
    | _ => exact Or.inr ⟨_, rfl, hmissing (by rw [boolField, hok])⟩

end E2EMessaging.Web
