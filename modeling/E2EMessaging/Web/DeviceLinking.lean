/-
  LINKING A DEVICE (`clients/web/src/device_linking.ts`).

  One device shows its identity key as a QR payload; the other scans it, derives the SAFETY NUMBER of the
  two keys and shows it; the user types in what the first device shows, and only a match links.

  Every call spreads the previous state and overwrites some fields, so `remoteKey` and `safetyNumber` of an
  earlier scan survive aborts, displays and failed scans.  What makes the gate safe all the same is an
  INVARIANT over all sequences of calls (`Inv`): in the phases `confirming` and `linked` the two fields are
  those of the last scan that succeeded.

  The three WASM functions are parameters: partial functions that throw a message where they are not defined.
-/
import Mathlib.Data.List.Induction
import E2EMessaging.Lib.Run
import E2EMessaging.Web.Backup

namespace E2EMessaging.Web.DeviceLinking

open E2EMessaging.Lib

/-! ## Strings -/

/-- What `String.prototype.trim` takes for white space: spaces, line terminators, the byte order mark. -/
def whiteSpace : List UInt16 :=
  [0x09, 0x0A, 0x0B, 0x0C, 0x0D, 0x20, 0xA0, 0x1680, 0x2000, 0x2001, 0x2002, 0x2003, 0x2004, 0x2005,
    0x2006, 0x2007, 0x2008, 0x2009, 0x200A, 0x2028, 0x2029, 0x202F, 0x205F, 0x3000, 0xFEFF]

/-- `trim`. -/
def trim (s : JsString) : JsString :=
  ((s.dropWhile (whiteSpace.contains ·)).reverse.dropWhile (whiteSpace.contains ·)).reverse

/-! ## The flow -/

/-- `encode_device_qr`, `decode_device_qr`, `derive_safety_number`: a result, or the message of what is
    thrown. -/
structure Wasm where
  encodeDeviceQr : Bytes → Except String JsString
  decodeDeviceQr : JsString → Except String Bytes
  deriveSafetyNumber : Bytes → Bytes → Except String JsString

/-- `LinkingPhase`. -/
inductive LinkingPhase where
  | idle
  | displaying
  | confirming
  | linked
  | aborted
  deriving Repr, DecidableEq

/-- `LinkingState`. -/
structure LinkingState where
  phase : LinkingPhase
  qrPayload : Option JsString
  remoteKey : Option Bytes
  safetyNumber : Option JsString
  error : Option String
  deriving Repr, DecidableEq

/-- `initialLinkingState`. -/
def initialLinkingState : LinkingState := ⟨.idle, none, none, none, none⟩

/-- `SafetyNumberConfirmation`. -/
structure SafetyNumberConfirmation where
  confirmed : Bool
  safetyNumber : Option JsString
  error : Option String
  deriving Repr, DecidableEq

variable (W : Wasm)

/-- `confirmSafetyNumber`. -/
def confirmSafetyNumber (primaryKey newDeviceKey : Bytes) (userInput : JsString) :
    SafetyNumberConfirmation :=
  match W.deriveSafetyNumber primaryKey newDeviceKey with
  | .error e => ⟨false, none, some e⟩
  | .ok derived =>
    if trim userInput = derived then ⟨true, some derived, none⟩
    else ⟨false, none, some "Safety number mismatch — link aborted"⟩

/-- `beginDisplay`, once the WASM module is there. -/
def beginDisplay (state : LinkingState) (localIdentityKey : Bytes) : LinkingState :=
  match W.encodeDeviceQr localIdentityKey with
  | .ok payload => { state with phase := .displaying, qrPayload := some payload, error := none }
  | .error e => { state with phase := .aborted, error := some e }

/-- `beginScan`, once the WASM module is there. -/
def beginScan (state : LinkingState) (scannedPayload : JsString) (localIdentityKey : Bytes) :
    LinkingState :=
  match W.decodeDeviceQr scannedPayload with
  | .error e => { state with phase := .aborted, error := some e }
  | .ok remoteKey =>
    match W.deriveSafetyNumber localIdentityKey remoteKey with
    | .error e => { state with phase := .aborted, error := some e }
    | .ok safetyNumber =>
      { state with
        phase := .confirming
        remoteKey := some remoteKey
        safetyNumber := some safetyNumber
        error := none }

/-- `confirmLink`. -/
def confirmLink (state : LinkingState) (localIdentityKey : Bytes) (userInput : JsString) :
    LinkingState :=
  match state.remoteKey with
  | none => { state with error := some "Not in confirming phase" }
  | some remoteKey =>
    if state.phase ≠ .confirming then { state with error := some "Not in confirming phase" }
    else
      let result := confirmSafetyNumber W localIdentityKey remoteKey userInput
      if result.confirmed then
        { state with phase := .linked, safetyNumber := result.safetyNumber, error := none }
      else
        { state with
          phase := .aborted
          safetyNumber := none
          error := some (result.error.getD "Confirmation failed") }

/-- A call.  Display and scan first await `ensureWasmInit`; if that rejects, so does the call. -/
inductive LinkingCall where
  | beginDisplay (loaded : Bool)
  | beginScan (loaded : Bool) (scannedPayload : JsString)
  | confirmLink (userInput : JsString)
  deriving Repr, DecidableEq

/-- The state after a call with the local key `L`; a rejected call returns none, and the old one stays. -/
def step (L : Bytes) (s : LinkingState) : LinkingCall → LinkingState
  | .beginDisplay loaded => if loaded then beginDisplay W s L else s
  | .beginScan loaded payload => if loaded then beginScan W s payload L else s
  | .confirmLink userInput => confirmLink W s L userInput

/-! ## Scans -/

/-- The payload decodes and the safety number with the decoded key can be derived. -/
def Scans (L : Bytes) (payload : JsString) (key : Bytes) (number : JsString) : Prop :=
  W.decodeDeviceQr payload = .ok key ∧ W.deriveSafetyNumber L key = .ok number

/-- The payload a call scans with success. -/
def LinkingCall.scanned (L : Bytes) : LinkingCall → Option JsString
  | .beginScan true payload =>
    match W.decodeDeviceQr payload with
    | .error _ => none
    | .ok key =>
      match W.deriveSafetyNumber L key with
      | .error _ => none
      | .ok _ => some payload
  | _ => none

/-- The last payload scanned with success. -/
def lastScanned (L : Bytes) (calls : List LinkingCall) : Option JsString :=
  calls.foldl (fun last c => (c.scanned W L).or last) none

variable {W}

theorem lastScanned_concat (L : Bytes) (calls : List LinkingCall) (c : LinkingCall) :
    lastScanned W L (calls ++ [c]) = (c.scanned W L).or (lastScanned W L calls) := by
  simp [lastScanned]

/-! ## What a call does -/

/-- A scan: it succeeds, or it aborts and keeps the fields of the scan before. -/
theorem beginScan_cases (s : LinkingState) (payload : JsString) (L : Bytes) :
    (∃ key number, Scans W L payload key number ∧
      LinkingCall.scanned W L (.beginScan true payload) = some payload ∧
      beginScan W s payload L =
        { s with
          phase := .confirming
          remoteKey := some key
          safetyNumber := some number
          error := none }) ∨
    ((∀ key number, ¬ Scans W L payload key number) ∧
      LinkingCall.scanned W L (.beginScan true payload) = none ∧
      ∃ e, beginScan W s payload L = { s with phase := .aborted, error := some e }) := by
  rw [beginScan, LinkingCall.scanned]
  cases hdecode : W.decodeDeviceQr payload with
  | error e =>
    refine Or.inr ⟨?_, rfl, e, rfl⟩
    rintro key number ⟨h, -⟩
    rw [hdecode] at h
    cases h
  | ok key =>
    dsimp only
    cases hderive : W.deriveSafetyNumber L key with
    | error e =>
      refine Or.inr ⟨?_, rfl, e, rfl⟩
      rintro key' number ⟨h, h'⟩
      rw [hdecode] at h
      obtain rfl := Except.ok.inj h
      rw [hderive] at h'
      cases h'
    | ok number => exact Or.inl ⟨key, number, ⟨hdecode, hderive⟩, rfl, rfl⟩

/-- A display: the other fields stay. -/
theorem beginDisplay_cases (s : LinkingState) (L : Bytes) :
    (∃ payload, beginDisplay W s L =
      { s with phase := .displaying, qrPayload := some payload, error := none }) ∨
    ∃ e, beginDisplay W s L = { s with phase := .aborted, error := some e } := by
  rw [beginDisplay]
  cases W.encodeDeviceQr L with
  | ok payload => exact Or.inl ⟨payload, rfl⟩
  | error e => exact Or.inr ⟨e, rfl⟩

/-- The comparison: it confirms exactly a match. -/
theorem confirmSafetyNumber_cases (L key : Bytes) (userInput : JsString) :
    (W.deriveSafetyNumber L key = .ok (trim userInput) ∧
      confirmSafetyNumber W L key userInput = ⟨true, some (trim userInput), none⟩) ∨
    (W.deriveSafetyNumber L key ≠ .ok (trim userInput) ∧
      ∃ e, confirmSafetyNumber W L key userInput = ⟨false, none, some e⟩) := by
  rw [confirmSafetyNumber]
  cases W.deriveSafetyNumber L key with
  | error e =>
    refine Or.inr ⟨?_, e, rfl⟩
    intro h
    cases h
  | ok derived =>
    by_cases hmatch : trim userInput = derived
    · subst hmatch
      exact Or.inl ⟨rfl, if_pos rfl⟩
    · refine Or.inr ⟨?_, _, if_neg hmatch⟩
      intro h
      exact hmatch (Except.ok.inj h).symm

/-- A confirmation outside `confirming`. -/
theorem confirmLink_of_ne {s : LinkingState} (h : s.phase ≠ .confirming) (L : Bytes)
    (userInput : JsString) :
    confirmLink W s L userInput = { s with error := some "Not in confirming phase" } := by
  rw [confirmLink]
  cases hkey : s.remoteKey with
  | none => rfl
  | some key =>
    dsimp only
    rw [if_pos h]

/-- A confirmation in `confirming`: it links exactly on a match. -/
theorem confirmLink_of_confirming {s : LinkingState} (h : s.phase = .confirming) {key : Bytes}
    (hkey : s.remoteKey = some key) (L : Bytes) (userInput : JsString) :
    (W.deriveSafetyNumber L key = .ok (trim userInput) ∧
      confirmLink W s L userInput =
        { s with phase := .linked, safetyNumber := some (trim userInput), error := none }) ∨
    (W.deriveSafetyNumber L key ≠ .ok (trim userInput) ∧
      ∃ e, confirmLink W s L userInput =
        { s with phase := .aborted, safetyNumber := none, error := some e }) := by
  rw [confirmLink, hkey]
  dsimp only
  rw [if_neg (not_not.mpr h)]
  rcases confirmSafetyNumber_cases L key userInput with ⟨hmatch, heq⟩ | ⟨hne, e, heq⟩
  · rw [heq]
    exact Or.inl ⟨hmatch, by rw [if_pos rfl, ← hkey]⟩
  · rw [heq]
    exact Or.inr ⟨hne, e, by rw [if_neg Bool.false_ne_true, ← hkey]; rfl⟩

/-- **What a call can do**, in a state that has a remote key wherever it asks for a confirmation: touch nothing
    but the error, leave the phases of the comparison, scan a payload with success, or link. -/
theorem step_cases {L : Bytes} {s : LinkingState}
    (hkey : s.phase = .confirming → ∃ key, s.remoteKey = some key) (c : LinkingCall) :
    (c.scanned W L = none ∧ ∃ e, step W L s c = { s with error := e }) ∨
    ((step W L s c).phase = .displaying ∨ (step W L s c).phase = .aborted) ∨
    (∃ payload key number, c.scanned W L = some payload ∧ Scans W L payload key number ∧
      step W L s c =
        { s with
          phase := .confirming
          remoteKey := some key
          safetyNumber := some number
          error := none }) ∨
    (∃ userInput key, c = .confirmLink userInput ∧ s.phase = .confirming ∧ s.remoteKey = some key ∧
      W.deriveSafetyNumber L key = .ok (trim userInput) ∧
      step W L s c =
        { s with phase := .linked, safetyNumber := some (trim userInput), error := none }) := by
  cases c with
  | beginDisplay loaded =>
    cases loaded with
    | false => exact .inl ⟨rfl, s.error, rfl⟩
    | true =>
      rw [step, if_pos rfl]
      rcases beginDisplay_cases s L with ⟨payload, heq⟩ | ⟨e, heq⟩
      · rw [heq]
        exact .inr (.inl (.inl rfl))
      · rw [heq]
        exact .inr (.inl (.inr rfl))
  | beginScan loaded payload =>
    cases loaded with
    | false => exact .inl ⟨rfl, s.error, rfl⟩
    | true =>
      rw [step, if_pos rfl]
      rcases beginScan_cases s payload L with ⟨key, number, hscan, hlast, heq⟩ | ⟨-, -, e, heq⟩
      · exact .inr (.inr (.inl ⟨payload, key, number, hlast, hscan, heq⟩))
      · rw [heq]
        exact .inr (.inl (.inr rfl))
  | confirmLink userInput =>
    rw [step]
    by_cases hconfirming : s.phase = .confirming
    · obtain ⟨key, hkey⟩ := hkey hconfirming
      rcases confirmLink_of_confirming hconfirming hkey L userInput with ⟨hmatch, heq⟩ | ⟨-, e, heq⟩
      · exact .inr (.inr (.inr ⟨userInput, key, rfl, hconfirming, hkey, hmatch, heq⟩))
      · rw [heq]
        exact .inr (.inl (.inr rfl))
    · exact .inl ⟨rfl, _, confirmLink_of_ne hconfirming L userInput⟩

/-! ## The invariant -/

/-- In the phases in which a safety number is compared or has been, the remote key is that of the last
    payload scanned with success, and the number is the one derived from it. -/
def Inv (W : Wasm) (L : Bytes) (calls : List LinkingCall) (s : LinkingState) : Prop :=
  s.phase = .confirming ∨ s.phase = .linked →
    ∃ payload key number, lastScanned W L calls = some payload ∧ Scans W L payload key number ∧
      s.remoteKey = some key ∧ s.safetyNumber = some number

theorem Inv.remoteKey {L : Bytes} {calls : List LinkingCall} {s : LinkingState} (hinv : Inv W L calls s)
    (hconfirming : s.phase = .confirming) : ∃ key, s.remoteKey = some key := by
  obtain ⟨-, key, -, -, -, hkey, -⟩ := hinv (Or.inl hconfirming)
  exact ⟨key, hkey⟩

/-- **Every call keeps the invariant.** -/
theorem Inv.step {L : Bytes} {calls : List LinkingCall} {s : LinkingState} (hinv : Inv W L calls s)
    (c : LinkingCall) : Inv W L (calls ++ [c]) (step W L s c) := by
  intro hphase
  rw [lastScanned_concat]
  rcases step_cases hinv.remoteKey c with
    ⟨hlast, e, heq⟩ | hleft | ⟨payload, key, number, hlast, hscan, heq⟩ |
      ⟨userInput, key, rfl, hconfirming, hkey, hmatch, heq⟩
  · rw [heq] at hphase ⊢
    rw [hlast]
    exact hinv hphase
  · rcases hleft with hleft | hleft <;> rw [hleft] at hphase <;> rcases hphase with h | h <;> cases h
  · rw [hlast, heq]
    exact ⟨payload, key, number, rfl, hscan, rfl, rfl⟩
  · -- the number shown and the number typed in are both the derived one
    obtain ⟨payload, key', number, hlast, hscan, hkey', -⟩ := hinv (Or.inl hconfirming)
    obtain rfl := Option.some.inj (hkey.symm.trans hkey')
    rw [heq]
    exact ⟨payload, key, trim userInput, hlast, ⟨hscan.1, hmatch⟩, hkey, rfl⟩

/-- **The invariant holds after every sequence of calls.** -/
theorem inv_run (L : Bytes) (calls : List LinkingCall) :
    Inv W L calls (run (step W L) initialLinkingState calls) := by
  induction calls using List.reverseRecOn with
  | nil =>
    rintro (h | h) <;> cases h
  | append_singleton calls c ih =>
    rw [run_concat]
    exact ih.step c

/-- A call that links: a confirmation, in `confirming`, of the number derived. -/
theorem linked_step {L : Bytes} {s : LinkingState} {c : LinkingCall} (hbefore : s.phase ≠ .linked)
    (hafter : (step W L s c).phase = .linked)
    (hkey : s.phase = .confirming → ∃ key, s.remoteKey = some key) :
    ∃ userInput key, c = .confirmLink userInput ∧ s.phase = .confirming ∧ s.remoteKey = some key ∧
      W.deriveSafetyNumber L key = .ok (trim userInput) := by
  rcases step_cases hkey c with
    ⟨-, e, heq⟩ | hleft | ⟨payload, key, number, -, -, heq⟩ |
      ⟨userInput, key, hcall, hconfirming, hkey, hmatch, -⟩
  · rw [heq] at hafter
    exact absurd hafter hbefore
  · rcases hleft with hleft | hleft <;> rw [hleft] at hafter <;> cases hafter
  · rw [heq] at hafter
    cases hafter
  · exact ⟨userInput, key, hcall, hconfirming, hkey, hmatch⟩

/-- **The device-linking gate**, for every sequence of calls with one local key:

    * the next call links only if it is a confirmation in phase `confirming` whose trimmed input is the
      safety number of the two keys;
    * in `confirming` and `linked` the remote key is the decoding of the last payload scanned with success,
      and the number is derived from it;
    * a scan that does not decode, or whose number cannot be derived, aborts (or, if the module could not be
      loaded, changes nothing);
    * a confirmation in any other phase changes nothing but the error. -/
theorem device_linking_gate (W : Wasm) (L : Bytes) (calls : List LinkingCall) :
    let s := run (step W L) initialLinkingState calls
    (∀ c, s.phase ≠ .linked → (step W L s c).phase = .linked →
      ∃ userInput key, c = .confirmLink userInput ∧ s.phase = .confirming ∧ s.remoteKey = some key ∧
        W.deriveSafetyNumber L key = .ok (trim userInput)) ∧
    (s.phase = .confirming ∨ s.phase = .linked →
      ∃ payload key number, lastScanned W L calls = some payload ∧
        W.decodeDeviceQr payload = .ok key ∧ s.remoteKey = some key ∧
        W.deriveSafetyNumber L key = .ok number ∧ s.safetyNumber = some number) ∧
    (∀ payload, (∀ key number, ¬ Scans W L payload key number) →
      (step W L s (.beginScan true payload)).phase = .aborted ∧
        step W L s (.beginScan false payload) = s) ∧
    (∀ userInput, s.phase ≠ .confirming →
      step W L s (.confirmLink userInput) = { s with error := some "Not in confirming phase" }) := by
  intro s
  have hinv : Inv W L calls s := inv_run L calls
  refine ⟨?_, ?_, ?_, ?_⟩
  · intro c hbefore hafter
    exact linked_step hbefore hafter hinv.remoteKey
  · intro hphase
    obtain ⟨payload, key, number, hlast, ⟨hdecode, hderive⟩, hkey, hnumber⟩ := hinv hphase
    exact ⟨payload, key, number, hlast, hdecode, hkey, hderive, hnumber⟩
  · intro payload hfails
    refine ⟨?_, rfl⟩
    rw [DeviceLinking.step, if_pos rfl]
    rcases beginScan_cases s payload L with ⟨key, number, hscan, -⟩ | ⟨-, -, e, heq⟩
    · exact absurd hscan (hfails key number)
    · rw [heq]
  · intro userInput hne
    exact confirmLink_of_ne hne L userInput

/-- Stand-ins for the three functions: a payload is the key, two units a byte; a key must have one byte; the
    number is the two bytes. -/
def toyWasm : Wasm where
  encodeDeviceQr key := .ok (key.flatMap fun b => [(b / 16).toUInt16, (b % 16).toUInt16])
  decodeDeviceQr payload :=
    match payload with
    | [high, low] => .ok [(high * 16 + low).toUInt8]
    | _ => .error "invalid QR payload"
  deriveSafetyNumber primaryKey newDeviceKey := .ok (primaryKey ++ newDeviceKey |>.map (·.toUInt16))

/-- A bad scan, a good one, a second good one: the number of the second, with spaces around, links. -/
theorem device_linking_gate_rescan :
    let calls : List LinkingCall :=
      [.beginScan true [1], .beginScan true [0, 7], .beginDisplay true, .beginScan true [3, 9]]
    let s := run (step toyWasm [5]) initialLinkingState calls
    s.remoteKey = some [57] ∧ s.phase = .confirming ∧
      (step toyWasm [5] s (.confirmLink [0x20, 5, 57, 0x0A])).phase = .linked ∧
      ∃ userInput key, LinkingCall.confirmLink [0x20, 5, 57, 0x0A] = .confirmLink userInput ∧
        s.phase = .confirming ∧ s.remoteKey = some key ∧
        toyWasm.deriveSafetyNumber [5] key = .ok (trim userInput) := by
  intro calls s
  have hconfirming : s.phase = .confirming := by decide +kernel
  have hlinked : (step toyWasm [5] s (.confirmLink [0x20, 5, 57, 0x0A])).phase = .linked := by
    decide +kernel
  refine ⟨by decide +kernel, hconfirming, hlinked, ?_⟩
  refine (device_linking_gate toyWasm [5] calls).1 (.confirmLink [0x20, 5, 57, 0x0A]) ?_ hlinked
  rw [hconfirming]
  decide

end E2EMessaging.Web.DeviceLinking
