/-
  THE LINKING SCREEN, AND TWO DEVICES (`DeviceLinking` of `clients/web/src/DeviceLinking.tsx`, over
  `device_linking.ts` and the WASM bindings).

  A handler works with the state of the render its button belongs to.  Display and scan await the WASM module and
  then set the state they have computed from that OLD one, whatever has happened since; buttons of an old render
  can be clicked; the identity key is a prop and may change.  What holds all the same (`linked_as_confirmed`): the
  screen says linked only for a key whose number was on the screen when the user confirmed, and only if what the
  user had typed is the number of that key and the device's own.

  What this is for is a statement about TWO screens (`linked_with_each_other`).  The codes may come from anybody.
  As long as the user types into either device only numbers that the other has shown, each device is linked, if at
  all, with the other's key; or whoever made the codes has found two pairs of keys with one number (`Collides`), and
  both have been on the screens.

  `devices_link`: the flow the screens describe does link two devices, whatever their keys, and however often the
  screens are rendered on the way.
-/
import E2EMessaging.Crypto.SafetyNumber
import E2EMessaging.Web.DeviceLinking
import E2EMessaging.Web.RecordText

namespace E2EMessaging.Web.DeviceLinking

open E2EMessaging.Lib E2EMessaging.Relay E2EMessaging.Crypto

/-! ## The WASM functions -/

/-- `encode_device_qr`, `decode_device_qr` and `derive_safety_number` of the module, built for release.  A
    panic is a trap. -/
def wasmBindings {Key : Type} (S : Fingerprints Key) (qrCodeNew : Bytes → Except String Unit) : Wasm where
  encodeDeviceQr identityPublicKeyBytes :=
    match encodeDeviceQr qrCodeNew identityPublicKeyBytes with
    | .error e => .error e.text
    | .ok payload => .ok (toJs payload)
  decodeDeviceQr qrPayload :=
    match decodeDeviceQr ⟨32, false⟩ (String.ofList (utf16Chars qrPayload)) with
    | .err e => .error e.text
    | .ok key => .ok key
    | .panic => .error "unreachable"
  deriveSafetyNumber localKey remoteKey :=
    match safetyNumberForDisplay S localKey remoteKey with
    | .error e => .error e.text
    | .ok number => .ok (toJs number)

/-! ## The component -/

/-- `mode`. -/
inductive Mode where
  | display
  | scan
  deriving Repr, DecidableEq

/-- The prop and the state variables. -/
structure View where
  localIdentityKey : Bytes
  state : LinkingState
  mode : Option Mode
  scanInput : JsString
  confirmInput : JsString
  wasmReady : Bool
  deriving Repr, DecidableEq

/-- A string that is there, and not empty. -/
def truthy : Option JsString → Bool
  | some (_ :: _) => true
  | _ => false

namespace View

/-- The choice between display and scan is on the screen. -/
def choosing (v : View) : Bool := v.wasmReady && v.mode.isNone && decide (v.state.phase = .idle)

/-- The QR code. -/
def displaying (v : View) : Bool :=
  v.wasmReady && decide (v.mode = some .display) && decide (v.state.phase = .displaying) && truthy v.state.qrPayload

/-- The input for the code. -/
def scanning (v : View) : Bool := v.wasmReady && decide (v.mode = some .scan) && decide (v.state.phase = .idle)

/-- The safety number, and the input for the other device's. -/
def confirming (v : View) : Bool :=
  v.wasmReady && decide (v.state.phase = .confirming) && truthy v.state.safetyNumber

/-- The outcome. -/
def settled (v : View) : Bool := v.wasmReady && decide (v.state.phase = .linked ∨ v.state.phase = .aborted)

end View

/-- A handler that awaits the WASM module: what it has captured. -/
inductive Suspended where
  | display (state : LinkingState) (localIdentityKey : Bytes)
  | scan (state : LinkingState) (payload : JsString) (localIdentityKey : Bytes)
  deriving Repr, DecidableEq

/-- The captured state. -/
def Suspended.state : Suspended → LinkingState
  | .display state _ => state
  | .scan state _ _ => state

/-- The captured key. -/
def Suspended.localIdentityKey : Suspended → Bytes
  | .display _ key => key
  | .scan _ _ key => key

/-- A mounted component, and a record of what it has had and shown. -/
structure Screen where
  current : View
  rendered : View
  suspended : List Suspended
  /-- The identity keys it has been given. -/
  keys : List Bytes
  /-- The safety numbers it has shown. -/
  shown : List JsString
  /-- What was on the screen at each confirmation. -/
  confirmed : List View
  deriving Repr, DecidableEq

/-- What can happen. -/
inductive UiEvent where
  /-- The parent passes another key. -/
  | key (localIdentityKey : Bytes)
  /-- The promise of the mount effect resolves. -/
  | wasmReady
  | render
  /-- "Show QR code (this device)". -/
  | showQr
  /-- "Enter linking code (from other device)". -/
  | enterCode
  | typeCode (code : JsString)
  /-- "Continue". -/
  | continueScan
  | typeNumber (number : JsString)
  /-- "Confirm and Link". -/
  | confirm
  /-- "Cancel", "Abort", "Start over", "Link another device". -/
  | abort
  /-- `ensureWasmInit` settles for a handler. -/
  | resume (handler : Nat) (loaded : Bool)
  deriving Repr, DecidableEq

variable (W : Wasm)

/-- What the handler sets. -/
def Suspended.resume : Suspended → LinkingState
  | .display state key => beginDisplay W state key
  | .scan state payload key => beginScan W state payload key

namespace Screen

/-- Before the WASM module is there. -/
def mount (localIdentityKey : Bytes) : Screen where
  current := ⟨localIdentityKey, initialLinkingState, none, [], [], false⟩
  rendered := ⟨localIdentityKey, initialLinkingState, none, [], [], false⟩
  suspended := []
  keys := [localIdentityKey]
  shown := []
  confirmed := []

/-- What the next render shows of the safety number. -/
def display (s : Screen) : List JsString :=
  if s.current.confirming then s.current.state.safetyNumber.toList else []

def render (s : Screen) : Screen := { s with rendered := s.current, shown := s.shown ++ s.display }

/-- `setState`. -/
def setState (s : Screen) (state : LinkingState) : Screen := { s with current := { s.current with state := state } }

/-- `handleDisplay`, up to its await. -/
def handleDisplay (s : Screen) : Screen :=
  { s with
    current := { s.current with mode := some .display }
    suspended := s.suspended ++ [.display s.rendered.state s.rendered.localIdentityKey] }

/-- `handleScan`, up to its await. -/
def handleScan (s : Screen) : Screen :=
  if trim s.rendered.scanInput = [] then
    s.setState { s.rendered.state with error := some "Enter a linking code" }
  else
    { s with
      suspended := s.suspended ++
        [.scan s.rendered.state (trim s.rendered.scanInput) s.rendered.localIdentityKey] }

/-- `handleConfirm`. -/
def handleConfirm (s : Screen) : Screen :=
  { s with
    current := { s.current with
      state := confirmLink W s.rendered.state s.rendered.localIdentityKey s.rendered.confirmInput }
    confirmed := s.confirmed ++ [s.rendered] }

/-- `handleAbort`. -/
def handleAbort (s : Screen) : Screen :=
  { s with
    current := { s.current with state := initialLinkingState, mode := none, scanInput := [], confirmInput := [] } }

/-- A handler goes on. -/
def resume (s : Screen) (i : Nat) (loaded : Bool) : Screen :=
  match s.suspended[i]? with
  | none => s
  | some c =>
    let s := { s with suspended := s.suspended.eraseIdx i }
    if loaded then s.setState (c.resume W) else s

/-- One event.  What is not on the screen cannot be clicked. -/
def step (s : Screen) : UiEvent → Screen
  | .key key => { s with current := { s.current with localIdentityKey := key }, keys := s.keys ++ [key] }
  | .wasmReady => { s with current := { s.current with wasmReady := true } }
  | .render => s.render
  | .showQr => if s.rendered.choosing then s.handleDisplay else s
  | .enterCode => if s.rendered.choosing then { s with current := { s.current with mode := some .scan } } else s
  | .typeCode code => if s.rendered.scanning then { s with current := { s.current with scanInput := code } } else s
  | .continueScan => if s.rendered.scanning then s.handleScan else s
  | .typeNumber number =>
    if s.rendered.confirming then { s with current := { s.current with confirmInput := number } } else s
  | .confirm => if s.rendered.confirming then s.handleConfirm W else s
  | .abort =>
    if s.rendered.displaying || s.rendered.scanning || s.rendered.confirming || s.rendered.settled then
      s.handleAbort
    else s
  | .resume i loaded => s.resume W i loaded

end Screen

/-! ## The invariant of a screen -/

/-- What is known of a linking state, wherever a copy of it may be: a number to be confirmed is that of the remote key
    and a key the device has had, and what is linked has been confirmed. -/
structure Sound (keys : List Bytes) (confirmed : List View) (st : LinkingState) : Prop where
  derived : st.phase = .confirming → ∃ L ∈ keys, ∃ key number, st.remoteKey = some key ∧
    st.safetyNumber = some number ∧ W.deriveSafetyNumber L key = .ok number
  linked : st.phase = .linked → ∃ v ∈ confirmed, ∃ key, v.state.remoteKey = some key ∧ st.remoteKey = some key ∧
    W.deriveSafetyNumber v.localIdentityKey key = .ok (trim v.confirmInput) ∧
    st.safetyNumber = some (trim v.confirmInput)

/-- A confirmation was made where a number was on the screen. -/
structure Witnessed (keys : List Bytes) (shown : List JsString) (v : View) : Prop where
  key : v.localIdentityKey ∈ keys
  confirming : v.confirming = true
  number : ∃ number ∈ shown, v.state.safetyNumber = some number

structure Screen.Inv (s : Screen) : Prop where
  current : Sound W s.keys s.confirmed s.current.state
  rendered : Sound W s.keys s.confirmed s.rendered.state
  suspended : ∀ c ∈ s.suspended, Sound W s.keys s.confirmed c.state ∧ c.localIdentityKey ∈ s.keys
  currentKey : s.current.localIdentityKey ∈ s.keys
  renderedKey : s.rendered.localIdentityKey ∈ s.keys
  visible : s.rendered.confirming = true → ∃ number ∈ s.shown, s.rendered.state.safetyNumber = some number
  confirmed : ∀ v ∈ s.confirmed, Witnessed s.keys s.shown v

section States

variable {W} {keys keys' : List Bytes} {confirmed confirmed' : List View} {st : LinkingState}

/-- More keys the device has had, and more confirmations, can only help. -/
theorem Sound.mono (h : Sound W keys confirmed st) (hkeys : ∀ k ∈ keys, k ∈ keys')
    (hconfirmed : ∀ v ∈ confirmed, v ∈ confirmed') : Sound W keys' confirmed' st := by
  constructor
  · intro hphase
    obtain ⟨L, hL, hrest⟩ := h.derived hphase
    exact ⟨L, hkeys L hL, hrest⟩
  · intro hphase
    obtain ⟨v, hv, hrest⟩ := h.linked hphase
    exact ⟨v, hconfirmed v hv, hrest⟩

/-- In the other phases nothing is claimed. -/
theorem Sound.of_ne (hconfirming : st.phase ≠ .confirming) (hlinked : st.phase ≠ .linked) :
    Sound W keys confirmed st :=
  ⟨fun h => absurd h hconfirming, fun h => absurd h hlinked⟩

/-- An error message is not part of what is claimed of a state. -/
theorem Sound.withError (h : Sound W keys confirmed st) (e : Option String) :
    Sound W keys confirmed { st with error := e } :=
  ⟨h.derived, h.linked⟩

/-- Nothing is linked to begin with, and no number is to be confirmed. -/
theorem sound_initial : Sound W keys confirmed initialLinkingState := .of_ne nofun nofun

/-- Showing the code leads to a phase of which nothing is claimed, from whatever state it started. -/
theorem sound_beginDisplay (st : LinkingState) (key : Bytes) : Sound W keys confirmed (beginDisplay W st key) := by
  rcases beginDisplay_cases (W := W) st key with ⟨payload, heq⟩ | ⟨e, heq⟩
  · rw [heq]
    exact .of_ne nofun nofun
  · rw [heq]
    exact .of_ne nofun nofun

/-- A scan that succeeds puts a number up for confirmation: that of the scanned key and the key the handler had
    captured. -/
theorem sound_beginScan {key : Bytes} (hkey : key ∈ keys) (st : LinkingState) (payload : JsString) :
    Sound W keys confirmed (beginScan W st payload key) := by
  rcases beginScan_cases (W := W) st payload key with ⟨remote, number, ⟨-, hderive⟩, -, heq⟩ | ⟨-, -, e, heq⟩
  · rw [heq]
    exact ⟨fun _ => ⟨key, hkey, remote, number, rfl, rfl, hderive⟩, nofun⟩
  · rw [heq]
    exact .of_ne nofun nofun

/-- A handler sets a sound state, whatever has happened since it was suspended: it uses its own key and none of the
    state that is current now. -/
theorem sound_resume {c : Suspended} (hkey : c.localIdentityKey ∈ keys) : Sound W keys confirmed (c.resume W) := by
  cases c with
  | display state key => exact sound_beginDisplay state key
  | scan state payload key => exact sound_beginScan hkey state payload

/-- The confirmation is on record when it links. -/
theorem Sound.confirmLink {v : View} (h : Sound W keys confirmed v.state) :
    Sound W keys (confirmed ++ [v]) (confirmLink W v.state v.localIdentityKey v.confirmInput) := by
  have hmono := h.mono (fun _ hk => hk) fun v' hv' => List.mem_append_left [v] hv'
  by_cases hconfirming : v.state.phase = .confirming
  · obtain ⟨L, -, key, number, hremote, -, -⟩ := h.derived hconfirming
    rcases confirmLink_of_confirming hconfirming hremote v.localIdentityKey v.confirmInput with
      ⟨hmatch, heq⟩ | ⟨-, e, heq⟩
    · rw [heq]
      have hmem : v ∈ confirmed ++ [v] := List.mem_append_right _ (List.mem_singleton.mpr rfl)
      exact ⟨nofun, fun _ => ⟨v, hmem, key, hremote, hremote, hmatch, rfl⟩⟩
    · rw [heq]
      exact .of_ne nofun nofun
  · rw [confirmLink_of_ne hconfirming]
    exact hmono.withError _

end States

namespace Screen

variable {W} {s : Screen}

/-- Where a number is on the screen, there is one. -/
theorem exists_number_of_confirming {v : View} (h : v.confirming = true) :
    v.state.phase = .confirming ∧ ∃ number, v.state.safetyNumber = some number := by
  rw [View.confirming, Bool.and_eq_true, Bool.and_eq_true] at h
  refine ⟨of_decide_eq_true h.1.2, ?_⟩
  cases hnumber : v.state.safetyNumber with
  | none =>
    rw [hnumber] at h
    cases h.2
  | some number => exact ⟨number, rfl⟩

theorem Inv.mount (localIdentityKey : Bytes) : Inv W (mount localIdentityKey) := by
  have hmem : localIdentityKey ∈ [localIdentityKey] := List.mem_singleton.mpr rfl
  refine ⟨sound_initial, sound_initial, ?_, hmem, hmem, ?_, ?_⟩
  · intro c hc
    cases hc
  · intro hconfirming
    cases hconfirming
  · intro v hv
    cases hv

/-- Only what the user sees next has changed, and it is sound. -/
theorem Inv.update (hs : Inv W s) {v : View} (hsound : Sound W s.keys s.confirmed v.state)
    (hkey : v.localIdentityKey ∈ s.keys) : Inv W { s with current := v } :=
  ⟨hsound, hs.rendered, hs.suspended, hkey, hs.renderedKey, hs.visible, hs.confirmed⟩

/-- A handler that stops at its await has captured a state and a key of some render, and those are sound. -/
theorem Inv.suspend (hs : Inv W s) {c : Suspended} (hsound : Sound W s.keys s.confirmed c.state)
    (hkey : c.localIdentityKey ∈ s.keys) : Inv W { s with suspended := s.suspended ++ [c] } := by
  refine ⟨hs.current, hs.rendered, ?_, hs.currentKey, hs.renderedKey, hs.visible, hs.confirmed⟩
  intro c' hc'
  rcases List.mem_append.mp hc' with hold | hnew
  · exact hs.suspended c' hold
  · rw [List.mem_singleton.mp hnew]
    exact ⟨hsound, hkey⟩

/-- What a render shows is the number of a key the device has had, and the one that was scanned. -/
theorem Inv.displayed (hs : Inv W s) {number : JsString} (hnumber : number ∈ s.display) :
    ∃ L ∈ s.keys, ∃ key, s.current.state.remoteKey = some key ∧ W.deriveSafetyNumber L key = .ok number := by
  unfold Screen.display at hnumber
  split at hnumber
  · rename_i hconfirming
    obtain ⟨L, hL, key, number', hremote, hnumber', hderive⟩ :=
      hs.current.derived (exists_number_of_confirming hconfirming).1
    obtain rfl := Option.some.inj ((Option.mem_toList.mp hnumber).symm.trans hnumber')
    exact ⟨L, hL, key, hremote, hderive⟩
  · cases hnumber

/-- A render shows what is current; if a number is shown, it goes on record. -/
theorem Inv.render (hs : Inv W s) : Inv W s.render := by
  refine ⟨hs.current, hs.current, hs.suspended, hs.currentKey, hs.currentKey, ?_, ?_⟩
  · intro (hconfirming : s.current.confirming = true)
    obtain ⟨-, number, hnumber⟩ := exists_number_of_confirming hconfirming
    refine ⟨number, List.mem_append_right _ ?_, hnumber⟩
    rw [Screen.display, if_pos hconfirming]
    exact Option.mem_toList.mpr hnumber
  · intro v hv
    obtain ⟨hkey, hconfirming, number, hmem, hnumber⟩ := hs.confirmed v hv
    exact ⟨hkey, hconfirming, number, List.mem_append_left _ hmem, hnumber⟩

/-- The prop may change at any time.  What was derived under the old key stays on record under that key. -/
theorem Inv.newKey (hs : Inv W s) (key : Bytes) :
    Inv W { s with current := { s.current with localIdentityKey := key }, keys := s.keys ++ [key] } := by
  have hkeys : ∀ k ∈ s.keys, k ∈ s.keys ++ [key] := fun k hk => List.mem_append_left _ hk
  have hconfirmed : ∀ v ∈ s.confirmed, v ∈ s.confirmed := fun _ hv => hv
  refine ⟨hs.current.mono hkeys hconfirmed, hs.rendered.mono hkeys hconfirmed, ?_,
    List.mem_append_right _ (List.mem_singleton.mpr rfl), hkeys _ hs.renderedKey, hs.visible, ?_⟩
  · intro c hc
    exact ⟨(hs.suspended c hc).1.mono hkeys hconfirmed, hkeys _ (hs.suspended c hc).2⟩
  · intro v hv
    obtain ⟨hkey, hrest, hnumber⟩ := hs.confirmed v hv
    exact ⟨hkeys _ hkey, hrest, hnumber⟩

/-- A click on "Confirm and Link" links only what the rendered state says, and what the user had before him is on
    record with it. -/
theorem Inv.handleConfirm (hs : Inv W s) (hconfirming : s.rendered.confirming = true) :
    Inv W (s.handleConfirm W) := by
  have hkeys : ∀ k ∈ s.keys, k ∈ s.keys := fun _ hk => hk
  have hconfirmed : ∀ v ∈ s.confirmed, v ∈ s.confirmed ++ [s.rendered] := fun v hv => List.mem_append_left _ hv
  refine ⟨hs.rendered.confirmLink, hs.rendered.mono hkeys hconfirmed, ?_, hs.currentKey, hs.renderedKey,
    hs.visible, ?_⟩
  · intro c hc
    exact ⟨(hs.suspended c hc).1.mono hkeys hconfirmed, (hs.suspended c hc).2⟩
  · intro v hv
    rcases List.mem_append.mp hv with hold | hnew
    · exact hs.confirmed v hold
    · rw [List.mem_singleton.mp hnew]
      exact ⟨hs.renderedKey, hconfirming, hs.visible hconfirming⟩

/-- A handler that goes on brings a sound state, or leaves everything as it is if the module did not load. -/
theorem Inv.resume (hs : Inv W s) (i : Nat) (loaded : Bool) : Inv W (s.resume W i loaded) := by
  unfold Screen.resume
  split
  · exact hs
  · rename_i c hc
    have hrest : Inv W { s with suspended := s.suspended.eraseIdx i } :=
      ⟨hs.current, hs.rendered, fun c' hc' => hs.suspended c' (List.mem_of_mem_eraseIdx hc'), hs.currentKey,
        hs.renderedKey, hs.visible, hs.confirmed⟩
    dsimp only
    split
    · exact hrest.update (sound_resume (hs.suspended c (List.mem_of_getElem? hc)).2) hs.currentKey
    · exact hrest

/-- "Continue" with an empty input only sets an error; else it suspends a handler. -/
theorem Inv.handleScan (hs : Inv W s) : Inv W s.handleScan := by
  unfold Screen.handleScan
  split
  · exact hs.update (hs.rendered.withError _) hs.currentKey
  · exact hs.suspend hs.rendered hs.renderedKey

/-- **Every event keeps the invariant.** -/
theorem Inv.step (hs : Inv W s) (e : UiEvent) : Inv W (s.step W e) := by
  cases e with
  | key key => exact hs.newKey key
  | wasmReady => exact hs.update hs.current hs.currentKey
  | render => exact hs.render
  | showQr =>
    show Inv W (if s.rendered.choosing = true then s.handleDisplay else s)
    split
    · exact Inv.suspend (hs.update (v := { s.current with mode := some .display }) hs.current hs.currentKey)
        hs.rendered hs.renderedKey
    · exact hs
  | enterCode =>
    show Inv W (if s.rendered.choosing = true then _ else s)
    split
    · exact hs.update hs.current hs.currentKey
    · exact hs
  | typeCode code =>
    show Inv W (if s.rendered.scanning = true then _ else s)
    split
    · exact hs.update hs.current hs.currentKey
    · exact hs
  | continueScan =>
    show Inv W (if s.rendered.scanning = true then s.handleScan else s)
    split
    · exact hs.handleScan
    · exact hs
  | typeNumber number =>
    show Inv W (if s.rendered.confirming = true then _ else s)
    split
    · exact hs.update hs.current hs.currentKey
    · exact hs
  | confirm =>
    show Inv W (if s.rendered.confirming = true then s.handleConfirm W else s)
    split
    · rename_i hconfirming
      exact hs.handleConfirm hconfirming
    · exact hs
  | abort =>
    show Inv W (if _ then s.handleAbort else s)
    split
    · exact hs.update sound_initial hs.currentKey
    · exact hs
  | resume i loaded => exact hs.resume i loaded

end Screen

/-- **Linked as confirmed.**  In every run of a screen, whatever its WASM functions, if it is linked, then the user
    has confirmed: on a screen that showed a number, for the remote key it is linked with, having typed the number
    of that key and the device's own key of that screen. -/
theorem linked_as_confirmed (W : Wasm) (key : Bytes) (events : List UiEvent) :
    let s := run (Screen.step W) (.mount key) events
    s.current.state.phase = .linked → ∃ v ∈ s.confirmed, v.confirming = true ∧
      (∃ number ∈ s.shown, v.state.safetyNumber = some number) ∧
      ∃ remote, v.state.remoteKey = some remote ∧ s.current.state.remoteKey = some remote ∧
        W.deriveSafetyNumber v.localIdentityKey remote = .ok (trim v.confirmInput) ∧
        s.current.state.safetyNumber = some (trim v.confirmInput) := by
  intro s hlinked
  have hs : s.Inv W := run_inv (fun _ e hs => hs.step e) (Screen.Inv.mount key) events
  obtain ⟨v, hv, hrest⟩ := hs.current.linked hlinked
  obtain ⟨-, hconfirming, hnumber⟩ := hs.confirmed v hv
  exact ⟨v, hv, hconfirming, hnumber, hrest⟩

/-- A code is scanned, and its number typed with a blank in front; what is behind the confirmation changes
    nothing. -/
theorem linked_as_confirmed_once :
    let s := run (Screen.step toyWasm) (.mount [5]) [.wasmReady, .render, .enterCode, .render, .typeCode [4, 7],
      .render, .continueScan, .resume 0 true, .render, .typeNumber [0x20, 5, 71], .render, .confirm]
    ∃ v ∈ s.confirmed, v.confirming = true ∧ (∃ number ∈ s.shown, v.state.safetyNumber = some number) ∧
      ∃ remote, v.state.remoteKey = some remote ∧ s.current.state.remoteKey = some remote ∧
        toyWasm.deriveSafetyNumber v.localIdentityKey remote = .ok (trim v.confirmInput) ∧
        s.current.state.safetyNumber = some (trim v.confirmInput) :=
  linked_as_confirmed toyWasm [5] _ (by decide +kernel)

/-! ## Two devices -/

/-- One event of one of two screens. -/
def Devices.step (W : Wasm) (d : Bool → Screen) (e : Bool × UiEvent) : Bool → Screen :=
  Function.update d e.1 ((d e.1).step W e.2)

section

variable {W : Wasm} {d : Bool → Screen} {i j : Bool} {e : UiEvent}

/-- An event of one device is a step of its screen. -/
theorem Devices.step_self : Devices.step W d (i, e) i = (d i).step W e := Function.update_self ..

/-- The other screen stays as it is. -/
theorem Devices.step_other (h : j ≠ i) : Devices.step W d (i, e) j = d j := Function.update_of_ne h ..

end

/-- The user confirms, on either device, only what the other has shown; and the devices keep their keys.  Nothing is
    said about the codes. -/
def Careful (d : Bool → Screen) : Bool × UiEvent → Prop
  | (_, .key _) => False
  | (i, .confirm) =>
    (d i).rendered.confirming = true → trim (d i).rendered.confirmInput ∈ (d (!i)).shown
  | _ => True

instance decidableCareful (d : Bool → Screen) : (e : Bool × UiEvent) → Decidable (Careful d e)
  | (_, .key _) => .isFalse id
  | (i, .confirm) => inferInstanceAs (Decidable
    ((d i).rendered.confirming = true → trim (d i).rendered.confirmInput ∈ (d (!i)).shown))
  | (_, .wasmReady) | (_, .render) | (_, .showQr) | (_, .enterCode) | (_, .typeCode _) | (_, .continueScan)
  | (_, .typeNumber _) | (_, .abort) | (_, .resume _ _) => .isTrue trivial

/-- A careful event changes no key. -/
theorem Careful.ne_key {d : Bool → Screen} {i : Bool} {e : UiEvent} (h : Careful d (i, e)) (key : Bytes) :
    e ≠ .key key := by
  rintro rfl
  exact h

/-- What an event may change of the record. -/
theorem Screen.step_record (W : Wasm) (s : Screen) {e : UiEvent} (he : ∀ key, e ≠ .key key) :
    (s.step W e).keys = s.keys ∧
      ((s.step W e).shown = s.shown ∨ (s.step W e).shown = s.shown ++ s.display) ∧
      ((s.step W e).confirmed = s.confirmed ∨
        e = .confirm ∧ s.rendered.confirming = true ∧ (s.step W e).confirmed = s.confirmed ++ [s.rendered]) := by
  have hquiet : s.keys = s.keys ∧ (s.shown = s.shown ∨ s.shown = s.shown ++ s.display) ∧
      (s.confirmed = s.confirmed ∨
        e = .confirm ∧ s.rendered.confirming = true ∧ s.confirmed = s.confirmed ++ [s.rendered]) :=
    ⟨rfl, .inl rfl, .inl rfl⟩
  cases e with
  | key key => exact absurd rfl (he key)
  | wasmReady => exact hquiet
  | render => exact ⟨rfl, .inr rfl, .inl rfl⟩
  | showQr =>
    rw [Screen.step]
    split <;> exact hquiet
  | enterCode =>
    rw [Screen.step]
    split <;> exact hquiet
  | typeCode code =>
    rw [Screen.step]
    split <;> exact hquiet
  | continueScan =>
    rw [Screen.step, Screen.handleScan]
    split
    · split <;> exact hquiet
    · exact hquiet
  | typeNumber number =>
    rw [Screen.step]
    split <;> exact hquiet
  | confirm =>
    rw [Screen.step]
    split
    · rename_i hconfirming
      exact ⟨rfl, .inl rfl, .inr ⟨rfl, hconfirming, rfl⟩⟩
    · exact ⟨rfl, .inl rfl, .inl rfl⟩
  | abort =>
    rw [Screen.step]
    split <;> exact hquiet
  | resume i loaded =>
    rw [Screen.step, Screen.resume]
    split
    · exact hquiet
    · dsimp only
      split <;> exact hquiet

/-- The two screens are sound, each device has its key, and what has been confirmed on one had been shown by the
    other. -/
structure Devices.Inv (W : Wasm) (keys : Bool → Bytes) (d : Bool → Screen) : Prop where
  sound : ∀ i, (d i).Inv W
  keys : ∀ i, (d i).keys = [keys i]
  careful : ∀ i, ∀ v ∈ (d i).confirmed, trim v.confirmInput ∈ (d (!i)).shown

theorem Devices.Inv.mount {W : Wasm} (keys : Bool → Bytes) : Devices.Inv W keys fun i => .mount (keys i) := by
  refine ⟨fun i => Screen.Inv.mount (keys i), fun _ => rfl, ?_⟩
  intro i v hv
  cases hv

/-- An event on one device keeps what is known of both: what the other has shown it has still shown, and a
    confirmation here was of a number shown there. -/
theorem Devices.Inv.step {W : Wasm} {keys : Bool → Bytes} {d : Bool → Screen} (hd : Devices.Inv W keys d)
    {e : Bool × UiEvent} (hcareful : Careful d e) : Devices.Inv W keys (Devices.step W d e) := by
  obtain ⟨i, e⟩ := e
  obtain ⟨hkeys, hshown, hconfirmed⟩ := (d i).step_record W hcareful.ne_key
  -- what either has shown, it has still shown
  have hgrows : ∀ j, ∀ n ∈ (d j).shown, n ∈ (Devices.step W d (i, e) j).shown := by
    intro j n hn
    by_cases hj : j = i
    · subst hj
      rw [Devices.step_self]
      rcases hshown with hsame | hmore
      · rwa [hsame]
      · rw [hmore]
        exact List.mem_append_left _ hn
    · rw [Devices.step_other hj]
      exact hn
  refine ⟨?_, ?_, ?_⟩
  · intro j
    by_cases hj : j = i
    · subst hj
      rw [Devices.step_self]
      exact (hd.sound j).step e
    · rw [Devices.step_other hj]
      exact hd.sound j
  · intro j
    by_cases hj : j = i
    · subst hj
      rw [Devices.step_self, hkeys]
      exact hd.keys j
    · rw [Devices.step_other hj]
      exact hd.keys j
  · intro j v hv
    apply hgrows
    by_cases hj : j = i
    · subst hj
      rw [Devices.step_self] at hv
      rcases hconfirmed with hsame | ⟨rfl, hconfirming, hnew⟩
      · exact hd.careful j v (hsame ▸ hv)
      · rw [hnew] at hv
        rcases List.mem_append.mp hv with hold | hlast
        · exact hd.careful j v hold
        · rw [List.mem_singleton.mp hlast]
          exact hcareful hconfirming
    · rw [Devices.step_other hj] at hv
      exact hd.careful j v hv

/-- A number that an event brings on a screen is that of the device's key and one that was scanned on it. -/
theorem Devices.Inv.shown_step {W : Wasm} {keys : Bool → Bytes} {d : Bool → Screen} (hd : Devices.Inv W keys d)
    {e : Bool × UiEvent} (hcareful : Careful d e) {i : Bool} {number : JsString}
    (hshown : number ∈ (Devices.step W d e i).shown) :
    number ∈ (d i).shown ∨ ∃ key, (d i).current.state.remoteKey = some key ∧
      W.deriveSafetyNumber (keys i) key = .ok number := by
  obtain ⟨j, e⟩ := e
  by_cases hi : i = j
  · subst hi
    rw [Devices.step_self] at hshown
    rcases ((d i).step_record W hcareful.ne_key).2.1 with hsame | hmore
    · exact .inl (hsame ▸ hshown)
    · rw [hmore] at hshown
      rcases List.mem_append.mp hshown with hold | hnew
      · exact .inl hold
      · obtain ⟨L, hL, key, hremote, hderive⟩ := (hd.sound i).displayed hnew
        rw [hd.keys i] at hL
        obtain rfl := List.mem_singleton.mp hL
        exact .inr ⟨key, hremote, hderive⟩
  · rw [Devices.step_other hi] at hshown
    exact .inl hshown

/-- At some moment of the run, the device had this key to compare its own with. -/
def Compared (W : Wasm) (keys : Bool → Bytes) (events : List (Bool × UiEvent)) (i : Bool) (key : Bytes) : Prop :=
  ∃ past, past <+: events ∧
    (run (Devices.step W) (fun i => .mount (keys i)) past i).current.state.remoteKey = some key

/-- So each number on a screen goes back to a key that was scanned there. -/
theorem compared_of_shown {W : Wasm} {keys : Bool → Bytes} {events : List (Bool × UiEvent)}
    (h : Meets (Devices.step W) Careful (fun i => .mount (keys i)) events) {i : Bool} {number : JsString}
    (hshown : number ∈ (run (Devices.step W) (fun i => .mount (keys i)) events i).shown) :
    ∃ key, Compared W keys events i key ∧ W.deriveSafetyNumber (keys i) key = .ok number := by
  induction events using List.reverseRecOn with
  | nil => cases hshown
  | append_singleton past e ih =>
    obtain ⟨hpast, hcareful⟩ := (meets_concat ..).mp h
    have hd : Devices.Inv W keys (run (Devices.step W) (fun i => .mount (keys i)) past) :=
      meets_inv (fun _ _ hd hcareful => hd.step hcareful) (Devices.Inv.mount keys) hpast
    rw [run_concat] at hshown
    rcases hd.shown_step hcareful hshown with hold | ⟨key, hremote, hderive⟩
    · obtain ⟨key, ⟨past', hprefix, hremote⟩, hderive⟩ := ih hpast hold
      exact ⟨key, ⟨past', hprefix.trans (List.prefix_append ..), hremote⟩, hderive⟩
    · exact ⟨key, ⟨past, List.prefix_append .., hremote⟩, hderive⟩

/-! ## Numbers as JavaScript strings -/

/-- A visible ASCII character. -/
def Plain (c : Char) : Prop := 33 ≤ c.toNat ∧ c.toNat < 127

/-- Its code unit. -/
def codeUnit (c : Char) : UInt16 := UInt16.ofNat c.toNat

section Strings

variable {c : Char} {cs : List Char} {s t : String}

theorem toNat_codeUnit (h : Plain c) : (codeUnit c).toNat = c.toNat := by
  have hlt : c.toNat < 65536 := by
    have := h.2
    omega
  exact UInt16.toNat_ofNat_of_lt' hlt

/-- It takes one unit, so digits and hex digits are never split. -/
theorem utf16Units_of_plain (h : Plain c) : utf16Units c = [codeUnit c] := by
  have hlt : c.toNat < 0x10000 := by
    have := h.2
    omega
  rw [utf16Units, if_pos hlt]
  rfl

/-- A text of such characters becomes a JavaScript string unit by unit. -/
theorem toJs_of_plain (h : ∀ c ∈ s.toList, Plain c) : toJs s = s.toList.map codeUnit := by
  rw [toJs, List.map_eq_flatMap]
  exact List.flatMap_congr fun c hc => utf16Units_of_plain (h c hc)

/-- A visible ASCII character is no surrogate. -/
theorem not_surrogate_of_plain (h : Plain c) :
    ¬ (0xD800 ≤ codeUnit c ∧ codeUnit c ≤ 0xDBFF) ∧ ¬ (0xDC00 ≤ codeUnit c ∧ codeUnit c ≤ 0xDFFF) ∧
      ¬ (0xD800 ≤ codeUnit c ∧ codeUnit c ≤ 0xDFFF) := by
  have hbounds : (0xD800 : UInt16).toNat = 0xD800 ∧ (0xDC00 : UInt16).toNat = 0xDC00 := ⟨rfl, rfl⟩
  have hlt := h.2
  simp only [UInt16.le_iff_toNat_le, toNat_codeUnit h]
  omega

/-- The characters are read back. -/
theorem utf16Chars_map_codeUnit (h : ∀ c ∈ cs, Plain c) : utf16Chars (cs.map codeUnit) = cs := by
  induction cs with
  | nil => rfl
  | cons c cs ih =>
    have hc := h c (List.mem_cons_self ..)
    have hrest := ih fun c' hc' => h c' (List.mem_cons_of_mem _ hc')
    obtain ⟨hhigh, hlow, hany⟩ := not_surrogate_of_plain hc
    have hchar : Char.ofNat (codeUnit c).toNat = c := by
      rw [toNat_codeUnit hc, Char.ofNat_toNat]
    cases cs with
    | nil =>
      rw [List.map_cons, List.map_nil, utf16Chars, if_neg hany, hchar]
    | cons c' cs =>
      rw [List.map_cons, List.map_cons, utf16Chars, if_neg hhigh, if_neg hlow, hchar, ← List.map_cons, hrest]

/-- And it can be read back: two such texts that look the same are the same.  Safety numbers are compared as
    JavaScript strings, so this is what a comparison on the screen says of the numbers. -/
theorem toJs_injective (hs : ∀ c ∈ s.toList, Plain c) (ht : ∀ c ∈ t.toList, Plain c) (h : toJs s = toJs t) :
    s = t := by
  rw [toJs_of_plain hs, toJs_of_plain ht] at h
  have hchars := congrArg utf16Chars h
  rw [utf16Chars_map_codeUnit hs, utf16Chars_map_codeUnit ht] at hchars
  exact String.toList_inj.mp hchars

/-- The code of a device is made of visible characters, so trimming leaves it alone. -/
theorem plain_of_isHexDigit (h : isHexDigit c = true) : Plain c := by
  simp only [isHexDigit, Bool.or_eq_true, Bool.and_eq_true, decide_eq_true_eq, Char.le_def,
    UInt32.le_iff_toNat_le] at h
  show 33 ≤ c.val.toNat ∧ c.val.toNat < 127
  have hlower : '0'.val.toNat = 48 ∧ 'a'.val.toNat = 97 ∧ 'A'.val.toNat = 65 := ⟨rfl, rfl, rfl⟩
  have hupper : '9'.val.toNat = 57 ∧ 'f'.val.toNat = 102 ∧ 'F'.val.toNat = 70 := ⟨rfl, rfl, rfl⟩
  omega

/-- None of them is white space. -/
theorem trim_toJs (h : ∀ c ∈ s.toList, Plain c) : trim (toJs s) = toJs s := by
  have hwhite : ∀ w ∈ whiteSpace, ¬ (33 ≤ w.toNat ∧ w.toNat < 127) := by
    have hall : whiteSpace.all (fun w => decide (¬ (33 ≤ w.toNat ∧ w.toNat < 127))) = true := by decide
    exact fun w hw => of_decide_eq_true (List.all_eq_true.mp hall w hw)
  have hkeep : ∀ us : JsString, (∀ u ∈ us, 33 ≤ u.toNat ∧ u.toNat < 127) →
      us.dropWhile (whiteSpace.contains ·) = us := by
    intro us hus
    cases us with
    | nil => rfl
    | cons u us =>
      apply List.dropWhile_cons_of_neg
      intro hcontains
      exact hwhite u (List.contains_iff_mem.mp hcontains) (hus u (List.mem_cons_self ..))
  have hunits : ∀ u ∈ toJs s, 33 ≤ u.toNat ∧ u.toNat < 127 := by
    intro u hu
    rw [toJs_of_plain h] at hu
    obtain ⟨c, hc, rfl⟩ := List.mem_map.mp hu
    rw [toNat_codeUnit (h c hc)]
    exact h c hc
  rw [trim, hkeep _ hunits, hkeep _ fun u hu => hunits u (List.mem_reverse.mp hu), List.reverse_reverse]

theorem plain_of_isDigit (h : c.isDigit = true) : Plain c := by
  have hbounds := Char.isDigit_iff_toNat.mp h
  have hzero : '0'.toNat = 48 := rfl
  have hnine : '9'.toNat = 57 := rfl
  exact ⟨by omega, by omega⟩

end Strings

/-! ## What two devices can rely on -/

section TwoDevices

variable {Key : Type} {S : Fingerprints Key} {qrCodeNew : Bytes → Except String Unit} {x y : Bytes} {number : JsString}

/-- The binding gives the number of `safety_number_for_display`, as a JavaScript string. -/
theorem deriveSafetyNumber_eq_ok (h : (wasmBindings S qrCodeNew).deriveSafetyNumber x y = .ok number) :
    ∃ n, safetyNumberForDisplay S x y = .ok n ∧ number = toJs n := by
  unfold wasmBindings at h
  dsimp only at h
  cases hn : safetyNumberForDisplay S x y with
  | error e =>
    rw [hn] at h
    cases h
  | ok n =>
    rw [hn] at h
    exact ⟨n, rfl, (Except.ok.inj h).symm⟩

/-- What is on the screen is the number, digit for digit. -/
theorem deriveSafetyNumber_eq (hS : S.Documented) {x' y' : Bytes}
    (h : (wasmBindings S qrCodeNew).deriveSafetyNumber x y = .ok number)
    (h' : (wasmBindings S qrCodeNew).deriveSafetyNumber x' y' = .ok number) :
    ∃ n, safetyNumberForDisplay S x y = .ok n ∧ safetyNumberForDisplay S x' y' = .ok n := by
  obtain ⟨n, hn, rfl⟩ := deriveSafetyNumber_eq_ok h
  obtain ⟨n', hn', hsame⟩ := deriveSafetyNumber_eq_ok h'
  have hdigits := (safetyNumberForDisplay_digits hS hn).2
  have hdigits' := (safetyNumberForDisplay_digits hS hn').2
  obtain rfl := toJs_injective (fun c hc => plain_of_isDigit (hdigits c hc))
    (fun c hc => plain_of_isDigit (hdigits' c hc)) hsame
  exact ⟨n, hn, hn'⟩

/-- The run has come upon two pairs of keys with one number: the device's own with `remote`, and its peer's with one
    that was scanned on the peer.  They are two, as the peer's key is not in the first. -/
def Collides (S : Fingerprints Key) (qrCodeNew : Bytes → Except String Unit) (keys : Bool → Bytes)
    (events : List (Bool × UiEvent)) (i : Bool) (remote : Bytes) : Prop :=
  keys (!i) ≠ keys i ∧ keys (!i) ≠ remote ∧ ∃ key number, Compared (wasmBindings S qrCodeNew) keys events (!i) key ∧
    safetyNumberForDisplay S (keys i) remote = .ok number ∧ safetyNumberForDisplay S (keys !i) key = .ok number

/-- **Linked with each other.**  Whatever codes are scanned on the two devices, in whatever order things happen on
    them: if the user confirms on either only numbers that the other has shown, then a device that is linked is
    linked with the other's key; or the run has come upon two pairs of keys with one number, this device's with the
    key it is linked with and its peer's with a key scanned there.  That nobody finds such pairs is what a
    fingerprint is for. -/
theorem linked_with_each_other (S : Fingerprints Key) (hS : S.Documented) (qrCodeNew : Bytes → Except String Unit)
    (keys : Bool → Bytes) (hne : keys true ≠ keys false) (events : List (Bool × UiEvent))
    (h : Meets (Devices.step (wasmBindings S qrCodeNew)) Careful (fun i => .mount (keys i)) events) (i : Bool)
    (hlinked : (run (Devices.step (wasmBindings S qrCodeNew)) (fun i => .mount (keys i)) events i).current.state.phase
      = .linked) :
    ∃ remote, (run (Devices.step (wasmBindings S qrCodeNew)) (fun i => .mount (keys i)) events
        i).current.state.remoteKey = some remote ∧
      (remote = keys (!i) ∨ Collides S qrCodeNew keys events i remote) := by
  have hd : Devices.Inv (wasmBindings S qrCodeNew) keys
      (run (Devices.step (wasmBindings S qrCodeNew)) (fun i => .mount (keys i)) events) := by
    exact meets_inv (fun _ _ hd hcareful => hd.step hcareful) (Devices.Inv.mount keys) h
  obtain ⟨v, hv, remote, -, hremote, hderive, -⟩ := (hd.sound i).current.linked hlinked
  have hlocal : v.localIdentityKey = keys i := by
    have hmem := ((hd.sound i).confirmed v hv).key
    rw [hd.keys i] at hmem
    exact List.mem_singleton.mp hmem
  rw [hlocal] at hderive
  -- the number that was typed goes back to a key that was scanned on the other device
  obtain ⟨key, hcompared, hderive'⟩ := compared_of_shown h (hd.careful i v hv)
  obtain ⟨number, hnumber, hnumber'⟩ := deriveSafetyNumber_eq hS hderive hderive'
  have hpeer : keys (!i) ≠ keys i := by
    cases i with
    | false => exact hne
    | true => exact hne.symm
  refine ⟨remote, hremote, ?_⟩
  rw [or_iff_not_imp_left]
  exact fun hother => ⟨hpeer, Ne.symm hother, key, number, hcompared, hnumber, hnumber'⟩

end TwoDevices

/-! ## The flow -/

/-- A device is opened, and shows its code. -/
def showCode : List UiEvent := [.wasmReady, .render, .showQr, .resume 0 true, .render]

/-- It is given the code of the other, and the number the other shows. -/
def enter (code number : JsString) : List UiEvent :=
  [.abort, .render, .enterCode, .render, .typeCode code, .render, .continueScan, .resume 0 true, .render,
    .typeNumber number, .render]

/-- The code is on the screen. -/
theorem run_showCode {W : Wasm} {key : Bytes} {u : UInt16} {us : JsString}
    (hcode : W.encodeDeviceQr key = .ok (u :: us)) :
    run (Screen.step W) (.mount key) showCode =
      { current := ⟨key, ⟨.displaying, some (u :: us), none, none, none⟩, some .display, [], [], true⟩
        rendered := ⟨key, ⟨.displaying, some (u :: us), none, none, none⟩, some .display, [], [], true⟩
        suspended := []
        keys := [key]
        shown := []
        confirmed := [] } := by
  simp [run, showCode, Screen.step, Screen.mount, Screen.render, Screen.display, View.choosing, View.confirming,
    Screen.handleDisplay, Screen.resume, Suspended.resume, beginDisplay, Screen.setState, hcode, initialLinkingState]

/-- The number is on the screen, and that of the other device is typed in. -/
theorem run_enter {W : Wasm} {key remote : Bytes} {u v : UInt16} {us vs code : JsString}
    (hshow : W.encodeDeviceQr key = .ok (u :: us)) (hcode : trim code = code) (hne : code ≠ [])
    (hdecode : W.decodeDeviceQr code = .ok remote) (hderive : W.deriveSafetyNumber key remote = .ok (v :: vs)) :
    run (Screen.step W) (.mount key) (showCode ++ enter code (v :: vs)) =
      { current := ⟨key, ⟨.confirming, none, some remote, some (v :: vs), none⟩, some .scan, code, v :: vs, true⟩
        rendered := ⟨key, ⟨.confirming, none, some remote, some (v :: vs), none⟩, some .scan, code, v :: vs, true⟩
        suspended := []
        keys := [key]
        shown := [v :: vs, v :: vs]
        confirmed := [] } := by
  rw [run_append, run_showCode hshow]
  simp [run, enter, Screen.step, Screen.render, Screen.display, View.choosing, View.scanning, View.displaying,
    View.confirming, Screen.handleScan, Screen.handleAbort, Screen.resume, Suspended.resume, beginScan,
    Screen.setState, initialLinkingState, truthy, hcode, hne, hdecode, hderive]

/-- It is the same number: the device is linked. -/
theorem run_confirm {W : Wasm} {key remote : Bytes} {u v : UInt16} {us vs code : JsString}
    (hshow : W.encodeDeviceQr key = .ok (u :: us)) (hcode : trim code = code) (hne : code ≠ [])
    (hdecode : W.decodeDeviceQr code = .ok remote) (hderive : W.deriveSafetyNumber key remote = .ok (v :: vs))
    (hnumber : trim (v :: vs) = v :: vs) :
    (run (Screen.step W) (.mount key) (showCode ++ enter code (v :: vs) ++ [.confirm])).current.state =
      ⟨.linked, none, some remote, some (v :: vs), none⟩ := by
  rw [run_concat, run_enter hshow hcode hne hdecode hderive]
  simp [Screen.step, View.confirming, truthy, Screen.handleConfirm, confirmLink, confirmSafetyNumber, hderive, hnumber]

/-! ### Renders in between -/

/-- The second run is the first, with further renders. -/
inductive Spaced : List UiEvent → List UiEvent → Prop
  | nil : Spaced [] []
  | event (e : UiEvent) {events spaced : List UiEvent} (h : Spaced events spaced) : Spaced (e :: events) (e :: spaced)
  | render {events spaced : List UiEvent} (h : Spaced events spaced) : Spaced events (.render :: spaced)

theorem Spaced.refl (events : List UiEvent) : Spaced events events := by
  induction events with
  | nil => exact .nil
  | cons e events ih => exact .event e ih

/-- Its handler belongs to a button or an input of the last render. -/
def UiEvent.onScreen : UiEvent → Bool
  | .key _ => false
  | .wasmReady => false
  | .render => false
  | .resume _ _ => false
  | _ => true

/-- Before whatever the user does, the screen has been rendered.  (The flag says whether it just has been.) -/
def Paced : Bool → List UiEvent → Bool
  | _, [] => true
  | fresh, e :: events => (!e.onScreen || fresh) && Paced (decide (e = .render)) events

/-- Two screens that will show the same, and show it if they have just been rendered. -/
structure Alike (fresh : Bool) (s s' : Screen) : Prop where
  current : s'.current = s.current
  suspended : s'.suspended = s.suspended
  rendered : fresh = true → s.rendered = s.current ∧ s'.rendered = s.current

/-- A further render of one of them. -/
theorem Alike.render {fresh : Bool} {s s' : Screen} (h : Alike fresh s s') : Alike fresh s s'.render :=
  ⟨h.current, h.suspended, fun hfresh => ⟨(h.rendered hfresh).1, h.current⟩⟩

/-- **One event on both.**  What the user does, he does to what both show. -/
theorem Alike.step {W : Wasm} {fresh : Bool} {s s' : Screen} (h : Alike fresh s s') {e : UiEvent}
    (he : e.onScreen = true → fresh = true) : Alike (decide (e = .render)) (s.step W e) (s'.step W e) := by
  obtain ⟨current, rendered, suspended, keys, shown, confirmed⟩ := s
  obtain ⟨current', rendered', suspended', keys', shown', confirmed'⟩ := s'
  obtain ⟨hcurrent, hsuspended, hrendered⟩ := h
  obtain rfl : current' = current := hcurrent
  obtain rfl : suspended' = suspended := hsuspended
  -- a handler of the screen works with what is rendered
  have hsame : e.onScreen = true → rendered = current' ∧ rendered' = current' := fun hon => hrendered (he hon)
  cases e with
  | key key => exact ⟨rfl, rfl, nofun⟩
  | wasmReady => exact ⟨rfl, rfl, nofun⟩
  | render => exact ⟨rfl, rfl, fun _ => ⟨rfl, rfl⟩⟩
  | resume i loaded =>
    simp only [Screen.step, Screen.resume]
    split
    · exact ⟨rfl, rfl, nofun⟩
    · split <;> exact ⟨rfl, rfl, nofun⟩
  | continueScan =>
    obtain ⟨rfl, rfl⟩ := hsame rfl
    simp only [Screen.step, Screen.handleScan]
    split
    · split <;> exact ⟨rfl, rfl, nofun⟩
    · exact ⟨rfl, rfl, nofun⟩
  | showQr | enterCode | typeCode code | typeNumber number | confirm | abort =>
    obtain ⟨rfl, rfl⟩ := hsame rfl
    simp only [Screen.step]
    split <;> exact ⟨rfl, rfl, nofun⟩

/-- **Further renders change nothing** that the next one would show, if every button was pressed on a screen just
    rendered. -/
theorem run_spaced {W : Wasm} {events spaced : List UiEvent} (h : Spaced events spaced) {fresh : Bool}
    (hpaced : Paced fresh events = true) {s s' : Screen} (halike : Alike fresh s s') :
    (run (Screen.step W) s' spaced).current = (run (Screen.step W) s events).current := by
  induction h generalizing fresh s s' with
  | nil => exact halike.current
  | event e h ih =>
    obtain ⟨he, hrest⟩ := Bool.and_eq_true_iff.mp hpaced
    refine ih hrest (halike.step ?_)
    intro hon
    rw [hon] at he
    exact he
  | render h ih => exact ih hpaced halike.render

/-- What happens on one of the devices. -/
def own (i : Bool) (events : List (Bool × UiEvent)) : List UiEvent :=
  (events.filter fun e => e.1 == i).map Prod.snd

/-- A screen does not notice the other. -/
theorem run_own (W : Wasm) (d : Bool → Screen) (events : List (Bool × UiEvent)) (i : Bool) :
    run (Devices.step W) d events i = run (Screen.step W) (d i) (own i events) := by
  induction events generalizing d with
  | nil => rfl
  | cons e events ih =>
    rw [run_cons, ih]
    by_cases hi : e.1 = i
    · subst hi
      have hown : own e.1 (e :: events) = e.2 :: own e.1 events := by
        rw [own, List.filter_cons_of_pos (by simp)]
        rfl
      rw [hown, run_cons, Devices.step, Function.update_self]
    · have hown : own i (e :: events) = own i events := by
        rw [own, List.filter_cons_of_neg (by simpa using hi)]
        rfl
      rw [hown, Devices.step, Function.update_of_ne (Ne.symm hi)]

section Flow

variable {Key : Type} {S : Fingerprints Key} {qrCodeNew : Bytes → Except String Unit} {x y : Bytes}

/-- A string of visible characters that is not empty. -/
theorem toJs_cons {s : String} (h : ∀ c ∈ s.toList, Plain c) (hne : s.toList ≠ []) :
    ∃ u us, toJs s = u :: us ∧ trim (u :: us) = u :: us := by
  obtain ⟨c, cs, hcs⟩ := List.exists_cons_of_ne_nil hne
  have hunits : toJs s = codeUnit c :: cs.map codeUnit := by
    rw [toJs_of_plain h, hcs, List.map_cons]
  refine ⟨codeUnit c, cs.map codeUnit, hunits, ?_⟩
  rw [← hunits]
  exact trim_toJs h

variable (S qrCodeNew) in
/-- The code of a key: it can be typed as it is shown, and is read as the key. -/
theorem code_of_key (hqr : ∀ payload : Bytes, payload.length = 66 → qrCodeNew payload = .ok ())
    (hx : x.length = 33) : ∃ u us, (wasmBindings S qrCodeNew).encodeDeviceQr x = .ok (u :: us) ∧
      trim (u :: us) = u :: us ∧ (wasmBindings S qrCodeNew).decodeDeviceQr (u :: us) = .ok x := by
  have htext : (hexEncode x).toList = x.flatMap hexByte := by
    rw [hexEncode_eq, String.toList_ofList]
  have hplain : ∀ c ∈ (hexEncode x).toList, Plain c := by
    intro c hc
    rw [htext] at hc
    exact plain_of_isHexDigit (mem_flatMap_hexByte hc).1
  have hne : (hexEncode x).toList ≠ [] := by
    intro hnil
    have hlength := length_flatMap_hexByte x
    rw [← htext, hnil, hx] at hlength
    cases hlength
  obtain ⟨u, us, hunits, htrim⟩ := toJs_cons hplain hne
  have hroom : (utf8 (hexEncode x)).length ≤ Arch.isizeMax ⟨32, false⟩ := by
    rw [length_utf8_hexEncode, hx]
    decide
  refine ⟨u, us, ?_, htrim, ?_⟩
  · unfold wasmBindings
    dsimp only
    rw [encodeDeviceQr_of_length hqr hx]
    exact congrArg Except.ok hunits
  · have hdecode : decodeDeviceQr ⟨32, false⟩ (hexEncode x) = .ok x := by
      apply (decodeDeviceQr_eq_ok hroom).mpr
      rw [htext]
      exact ⟨hx, hexDecode_hexByte x⟩
    unfold wasmBindings
    dsimp only
    rw [← hunits, toJs_of_plain hplain, utf16Chars_map_codeUnit hplain, String.ofList_toList, hdecode]

variable (qrCodeNew) in
/-- The number of two keys: it can be typed as it is shown, and is the same on either device. -/
theorem number_of_keys (hS : S.Documented) {n : String} (h : safetyNumberForDisplay S x y = .ok n) :
    ∃ v vs, toJs n = v :: vs ∧ trim (v :: vs) = v :: vs ∧
      (wasmBindings S qrCodeNew).deriveSafetyNumber x y = .ok (v :: vs) ∧
      (wasmBindings S qrCodeNew).deriveSafetyNumber y x = .ok (v :: vs) := by
  obtain ⟨hlength, hdigits⟩ := safetyNumberForDisplay_digits hS h
  have hne : n.toList ≠ [] := by
    intro hnil
    rw [hnil] at hlength
    cases hlength
  obtain ⟨v, vs, hunits, htrim⟩ := toJs_cons (fun c hc => plain_of_isDigit (hdigits c hc)) hne
  refine ⟨v, vs, hunits, htrim, ?_, ?_⟩
  · unfold wasmBindings
    dsimp only
    rw [h]
    exact congrArg Except.ok hunits
  · unfold wasmBindings
    dsimp only
    rw [safetyNumberForDisplay_swap hS h]
    exact congrArg Except.ok hunits

/-- **The devices link.**  On two devices with 33-byte keys that have a safety number, let the user follow the
    screens, in any order between the two and with any further renders: show each device's code, type it into the
    other, and type the number.  Then each is linked with the other's key, under that number. -/
theorem devices_link (S : Fingerprints Key) (hS : S.Documented) (qrCodeNew : Bytes → Except String Unit)
    (hqr : ∀ payload : Bytes, payload.length = 66 → qrCodeNew payload = .ok ()) (keys : Bool → Bytes)
    (hkeys : ∀ i, (keys i).length = 33) (number : String)
    (hnumber : safetyNumberForDisplay S (keys true) (keys false) = .ok number) (codes : Bool → JsString)
    (hcodes : ∀ i, (wasmBindings S qrCodeNew).encodeDeviceQr (keys i) = .ok (codes i))
    (events : List (Bool × UiEvent))
    (hflow : ∀ i, Spaced (showCode ++ enter (codes !i) (toJs number) ++ [.confirm]) (own i events)) (i : Bool) :
    (run (Devices.step (wasmBindings S qrCodeNew)) (fun i => .mount (keys i)) events i).current.state =
      ⟨.linked, none, some (keys !i), some (toJs number), none⟩ := by
  obtain ⟨v, vs, hunits, htrim, hderive, hderive'⟩ := number_of_keys qrCodeNew hS hnumber
  obtain ⟨u, us, hown, -, -⟩ := code_of_key S qrCodeNew hqr (hkeys i)
  obtain ⟨c, cs, hother, hcode, hdecode⟩ := code_of_key S qrCodeNew hqr (hkeys !i)
  have hcodes : codes (!i) = c :: cs := Except.ok.inj ((hcodes !i).symm.trans hother)
  have hderived : (wasmBindings S qrCodeNew).deriveSafetyNumber (keys i) (keys !i) = .ok (v :: vs) := by
    cases i with
    | false => exact hderive'
    | true => exact hderive
  have hspaced := hflow i
  rw [hcodes, hunits] at hspaced
  have hpaced : Paced true (showCode ++ enter (c :: cs) (v :: vs) ++ [.confirm]) = true := rfl
  rw [run_own, hunits, run_spaced hspaced hpaced ⟨rfl, rfl, fun _ => ⟨rfl, rfl⟩⟩]
  exact run_confirm hown hcode (List.cons_ne_nil c cs) hdecode hderived htrim

end Flow

/-- Two keys, and libsignal as far as it knows them. -/
def demoKeys (i : Bool) : Bytes := 0x05 :: List.replicate 32 (if i then 1 else 2)

def demoNumber : String := "300354477692869396892869876765458257569162576843440918079131"

def demoFingerprints : Fingerprints Bytes where
  decode := some
  fingerprint _ _ i _ j _ :=
    if (i = demoKeys true ∧ j = demoKeys false) ∨ (i = demoKeys false ∧ j = demoKeys true) then some demoNumber
    else none

/-- The stand-in keeps what is documented: 60 digits, the same from either side. -/
theorem demoFingerprints_documented : demoFingerprints.Documented := by
  constructor
  · intro version iterations i k j l n h
    obtain ⟨-, h⟩ := Option.ite_none_right_eq_some.mp h
    obtain rfl := Option.some.inj h
    exact ⟨by decide, List.all_eq_true.mp (by decide)⟩
  · intro version iterations i k j l
    have hswap : (i = demoKeys true ∧ j = demoKeys false) ∨ (i = demoKeys false ∧ j = demoKeys true) ↔
        (j = demoKeys true ∧ i = demoKeys false) ∨ (j = demoKeys false ∧ i = demoKeys true) := by
      constructor
      · rintro (⟨hi, hj⟩ | ⟨hi, hj⟩)
        · exact .inr ⟨hj, hi⟩
        · exact .inl ⟨hj, hi⟩
      · rintro (⟨hj, hi⟩ | ⟨hj, hi⟩)
        · exact .inr ⟨hi, hj⟩
        · exact .inl ⟨hi, hj⟩
    exact if_congr hswap rfl rfl

/-- Only one pair has a number. -/
theorem demo_pair {x y : Bytes} {n : String} (h : safetyNumberForDisplay demoFingerprints x y = .ok n) :
    (x = demoKeys true ∧ y = demoKeys false) ∨ (x = demoKeys false ∧ y = demoKeys true) := by
  obtain ⟨k, l, -, -, hn⟩ := safetyNumberForDisplay_eq_ok h
  exact (Option.ite_none_right_eq_some.mp hn).1

/-- So the first device has one with the second key alone. -/
theorem demo_remote {remote : Bytes} {n : String}
    (h : safetyNumberForDisplay demoFingerprints (demoKeys true) remote = .ok n) : remote = demoKeys false := by
  rcases demo_pair h with ⟨-, hremote⟩ | ⟨hkey, -⟩
  · exact hremote
  · exact absurd hkey (by decide)

/-- `QrCode::new` of 66 bytes. -/
def demoQrCodeNew (_ : Bytes) : Except String Unit := .ok ()

def demoCodes (i : Bool) : JsString := toJs (hexEncode (demoKeys i))

/-- Both codes are shown and typed, and then both numbers. -/
def demoEvents : List (Bool × UiEvent) :=
  (showCode ++ enter (demoCodes false) (toJs demoNumber)).map (Prod.mk true) ++
    (showCode ++ enter (demoCodes true) (toJs demoNumber)).map (Prod.mk false)

/-- The keys have the length of a serialised identity key. -/
theorem demo_length (i : Bool) : (demoKeys i).length = 33 := rfl

theorem demo_number : safetyNumberForDisplay demoFingerprints (demoKeys true) (demoKeys false) = .ok demoNumber := by
  decide

/-- The flow on both devices, one after the other, then both confirmations: the one is linked with the other. -/
theorem devices_link_demo :
    (run (Devices.step (wasmBindings demoFingerprints demoQrCodeNew)) (fun i => .mount (demoKeys i))
      (demoEvents ++ [(false, .confirm), (true, .confirm)]) true).current.state =
        ⟨.linked, none, some (demoKeys false), some (toJs demoNumber), none⟩ := by
  refine devices_link demoFingerprints demoFingerprints_documented demoQrCodeNew (fun _ _ => rfl) demoKeys ?_ demoNumber
    demo_number demoCodes (fun _ => rfl) _ ?_ true
  · decide
  · intro i
    cases i with
    | false => exact Spaced.refl _
    | true => exact Spaced.refl _

/-- Until something is confirmed, there is nothing to be careful about. -/
theorem meets_careful {W : Wasm} {events : List (Bool × UiEvent)} (h : ∀ e ∈ events, ∀ d, Careful d e)
    (d : Bool → Screen) : Meets (Devices.step W) Careful d events := by
  induction events generalizing d with
  | nil => trivial
  | cons e events ih =>
    exact ⟨h e (List.mem_cons_self ..) d, ih (fun e' he' => h e' (List.mem_cons_of_mem _ he')) _⟩

/-- What each device sees of it is the whole flow. -/
theorem own_demoEvents (i : Bool) : own i demoEvents = showCode ++ enter (demoCodes !i) (toJs demoNumber) := by
  cases i with
  | false => rfl
  | true => rfl

/-- Before the confirmations, the number is on both screens, and typed into both. -/
theorem demo_screens (i : Bool) :
    let d := run (Devices.step (wasmBindings demoFingerprints demoQrCodeNew)) (fun i => .mount (demoKeys i)) demoEvents
    trim (d i).rendered.confirmInput = toJs demoNumber ∧ toJs demoNumber ∈ (d i).shown ∧
      ((d i).step (wasmBindings demoFingerprints demoQrCodeNew) .confirm).current.state.phase = .linked := by
  intro d
  have hd : d i = run (Screen.step (wasmBindings demoFingerprints demoQrCodeNew)) (.mount (demoKeys i))
      (showCode ++ enter (demoCodes !i) (toJs demoNumber)) := by
    rw [← own_demoEvents]
    exact run_own ..
  obtain ⟨v, vs, hunits, htrim, hderive, hderive'⟩ :=
    number_of_keys demoQrCodeNew demoFingerprints_documented demo_number
  obtain ⟨u, us, hshow, -, -⟩ :=
    code_of_key demoFingerprints demoQrCodeNew (fun _ _ => rfl) (demo_length i)
  obtain ⟨c, cs, hother, hcode, hdecode⟩ :=
    code_of_key demoFingerprints demoQrCodeNew (fun _ _ => rfl) (demo_length !i)
  have hcodes : demoCodes (!i) = c :: cs := Except.ok.inj hother
  have hderived : (wasmBindings demoFingerprints demoQrCodeNew).deriveSafetyNumber (demoKeys i) (demoKeys !i) =
      .ok (v :: vs) := by
    cases i with
    | false => exact hderive'
    | true => exact hderive
  rw [hunits, hcodes] at hd
  have hlinked := run_confirm hshow hcode (List.cons_ne_nil c cs) hdecode hderived htrim
  rw [run_concat, ← hd] at hlinked
  rw [run_enter hshow hcode (List.cons_ne_nil c cs) hdecode hderived] at hd
  refine ⟨?_, ?_, by rw [hlinked]⟩
  · rw [hd, hunits]
    exact htrim
  · rw [hd, hunits]
    exact List.mem_cons_self ..

/-- What the first device's confirmation asks for. -/
theorem careful_confirm {d : Bool → Screen} {number : JsString}
    (htyped : trim (d true).rendered.confirmInput = number) (hshown : number ∈ (d false).shown) :
    Careful d (true, .confirm) := by
  intro _
  rw [htyped]
  exact hshown

/-- The first confirms what both have shown, and is linked with the key of the second: with the stand-in no other key
    has a number with its own. -/
theorem linked_with_each_other_demo :
    (run (Devices.step (wasmBindings demoFingerprints demoQrCodeNew)) (fun i => .mount (demoKeys i))
      (demoEvents ++ [(true, .confirm)]) true).current.state.remoteKey = some (demoKeys false) := by
  have hmeets : Meets (Devices.step (wasmBindings demoFingerprints demoQrCodeNew)) Careful
      (fun i => .mount (demoKeys i)) (demoEvents ++ [(true, .confirm)]) := by
    rw [meets_concat]
    refine ⟨meets_careful ?_ _, careful_confirm (demo_screens true).1 (demo_screens false).2.1⟩
    simp only [demoEvents, showCode, enter, List.cons_append, List.nil_append, List.map_cons, List.map_nil,
      List.forall_mem_cons, Careful, implies_true, List.not_mem_nil, IsEmpty.forall_iff, and_self]
  have hphase : (run (Devices.step (wasmBindings demoFingerprints demoQrCodeNew)) (fun i => .mount (demoKeys i))
      (demoEvents ++ [(true, .confirm)]) true).current.state.phase = .linked := by
    rw [run_concat, Devices.step_self]
    exact (demo_screens true).2.2
  obtain ⟨remote, hremote, rfl | ⟨-, hother, _, _, -, hnumber, -⟩⟩ := linked_with_each_other
    demoFingerprints demoFingerprints_documented demoQrCodeNew demoKeys (by decide) _ hmeets true hphase
  · exact hremote
  · exact absurd (demo_remote hnumber).symm hother

end E2EMessaging.Web.DeviceLinking
