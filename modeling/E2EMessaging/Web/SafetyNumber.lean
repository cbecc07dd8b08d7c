/-
  THE SAFETY-NUMBER PANEL (`clients/web/src/SafetyNumberVerification.tsx`), as React runs it.

  The component has STATE HOOKS (`verified`, `loaded`, `safetyNumber`, `warning`) and three effects:
  derive the number, load the stored verdict, persist the verdict.  A RENDER takes props and the state
  hooks as they are by then, and is what the user sees and clicks on.  The EFFECTS of that commit run
  later, in order, each only if one of its dependencies changed, and with THAT RENDER's values; what
  they set is visible in a later render.  React runs outstanding effects before it renders again.
  Loads, derivations and writes are asynchronous: they end in any order, and a load or derivation whose
  effect was cleaned up is ignored.

  The load effect resets `loaded` so that nothing is persisted before the load is done.  But it resets
  it for the NEXT render: in the render in which the props change, `verified` and `loaded` still are
  those of the conversation before, the persist effect of that commit runs, and it writes the old
  verdict under the new conversation with the new key (`verdict_carried_to_another_key`).

  `verified_only_where_clicked`: as long as the props never change in a render that carries a loaded,
  positive verdict along (`NotCarried`), a positive verdict is written only where the user gave it, or
  where it had been stored.  The invariant (`Panel.Inv`) says where each copy of a verdict came from:
  in the store, in a write under way, in a load under way, on the screen, and in the state hooks.
-/
import E2EMessaging.Lib.Run

namespace E2EMessaging.Web

open E2EMessaging.Lib

/-! ## State -/

/-- `VerifiedRecord`, stored under `safety-number:` and the conversation id. -/
structure VerifiedRecord where
  verified : Bool
  remoteKeyBase64 : String
  deriving Repr, DecidableEq

/-- The props that change.  `Key` is the type of the key OBJECTS: dependencies are compared by object,
    records by content. -/
structure Props (Conv Key : Type) where
  conversationId : Conv
  remoteIdentityKey : Key
  deriving Repr, DecidableEq

/-- The state hooks. -/
structure Hooks where
  verified : Bool
  loaded : Bool
  safetyNumber : Option String
  warning : Option String
  deriving Repr, DecidableEq

/-- What a render committed: the props and state hooks it saw. -/
structure Commit (Conv Key : Type) where
  props : Props Conv Key
  hooks : Hooks
  deriving Repr, DecidableEq

/-- A run of the load effect: what it was started for, and what `gate.get` has returned, if it has. -/
structure Load (Conv : Type) where
  conversationId : Conv
  currentRemoteBase64 : String
  cancelled : Bool
  stored : Option (Option VerifiedRecord)
  deriving Repr, DecidableEq

/-- A run of the derive effect. -/
structure Derivation where
  cancelled : Bool
  deriving Repr, DecidableEq

/-- The component and the store under it. -/
structure Panel (Conv Key : Type) where
  /-- The store `identity`, as far as it holds safety-number records. -/
  store : Conv → Option VerifiedRecord
  /-- The state hooks as the next render will see them. -/
  hooks : Hooks
  /-- What is on the screen; nothing while the component is not mounted. -/
  commit : Option (Commit Conv Key)
  /-- The commit whose effects ran last. -/
  settled : Option (Commit Conv Key)
  /-- The effects of the commit on the screen are still to run. -/
  effectsDue : Bool
  loads : List (Load Conv)
  derivations : List Derivation
  /-- Writes under way. -/
  puts : List (Conv × VerifiedRecord)
  /-- What the user clicked Verify on. -/
  clicks : List (Props Conv Key)
  /-- The writes that reached the store. -/
  writes : List (Conv × VerifiedRecord)

section

variable {Conv Key : Type} [DecidableEq Conv] [DecidableEq Key]

/-- The state hooks of a component that is mounted. -/
def Hooks.initial : Hooks where
  verified := false
  loaded := false
  safetyNumber := none
  warning := none

/-- Nothing mounted, over a store. -/
def Panel.new (store : Conv → Option VerifiedRecord) : Panel Conv Key where
  store := store
  hooks := .initial
  commit := none
  settled := none
  effectsDue := false
  loads := []
  derivations := []
  puts := []
  clicks := []
  writes := []

/-! ## The effects of a commit -/

/-- Clean-up of the derive effect. -/
def Derivation.cancel (d : Derivation) : Derivation := { d with cancelled := true }

/-- Clean-up of the load effect. -/
def Load.cancel (l : Load Conv) : Load Conv := { l with cancelled := true }

/-- The derive effect; dependencies: the keys. -/
def Panel.deriveEffect (c : Commit Conv Key) (s : Panel Conv Key) : Panel Conv Key :=
  if s.settled.map (fun p => p.props.remoteIdentityKey) = some c.props.remoteIdentityKey then s
  else
    { s with
      hooks := { s.hooks with warning := none }
      derivations := s.derivations.map Derivation.cancel ++ [⟨false⟩] }

/-- The load effect; dependencies: the storage key and the remote key. -/
def Panel.loadEffect (toBase64 : Key → String) (c : Commit Conv Key) (s : Panel Conv Key) :
    Panel Conv Key :=
  if s.settled.map (fun p => p.props) = some c.props then s
  else
    { s with
      hooks := { s.hooks with loaded := false }
      loads := s.loads.map Load.cancel ++
        [⟨c.props.conversationId, toBase64 c.props.remoteIdentityKey, false, none⟩] }

/-- The persist effect; dependencies: verdict, `loaded`, number, storage key and remote key. -/
def Panel.persistEffect (toBase64 : Key → String) (c : Commit Conv Key) (s : Panel Conv Key) :
    Panel Conv Key :=
  if s.settled.map (fun p => (p.props, p.hooks.verified, p.hooks.loaded, p.hooks.safetyNumber)) =
      some (c.props, c.hooks.verified, c.hooks.loaded, c.hooks.safetyNumber) then s
  else if c.hooks.loaded = false ∨ c.hooks.safetyNumber = none then s
  else
    { s with
      puts := s.puts ++
        [(c.props.conversationId, ⟨c.hooks.verified, toBase64 c.props.remoteIdentityKey⟩)] }

/-- The effects of the commit on the screen, in order. -/
def Panel.runEffects (toBase64 : Key → String) (s : Panel Conv Key) : Panel Conv Key :=
  match s.commit with
  | none => s
  | some c =>
    if s.effectsDue then
      { ((s.deriveEffect c).loadEffect toBase64 c).persistEffect toBase64 c with
        effectsDue := false
        settled := some c }
    else s

/-! ## Steps -/

/-- What can happen next. -/
inductive PanelAct (Conv Key : Type) where
  /-- The parent renders the component, or it renders itself after a state update. -/
  | render (props : Props Conv Key)
  | runEffects
  | unmount
  /-- A derivation ends, with the number or with an error. -/
  | derived (i : Nat) (number : Option String)
  /-- `gate.get` of a load returns. -/
  | loadRead (i : Nat)
  /-- The continuation of a load runs. -/
  | loadDone (i : Nat)
  /-- A load fails. -/
  | loadFailed (i : Nat)
  | putDone (i : Nat)
  | putFailed (i : Nat)
  | clickVerify
  | clickUnverify

/-- A render; React has run the effects of the commit before. -/
def Panel.render (props : Props Conv Key) (s : Panel Conv Key) : Panel Conv Key :=
  if s.effectsDue then s
  else { s with commit := some ⟨props, s.hooks⟩, effectsDue := true }

/-- The component goes away: clean-ups run, and its state is lost. -/
def Panel.unmount (s : Panel Conv Key) : Panel Conv Key :=
  if s.effectsDue then s
  else
    { s with
      hooks := .initial
      commit := none
      settled := none
      loads := s.loads.map Load.cancel
      derivations := s.derivations.map Derivation.cancel }

/-- The continuation of a derivation. -/
def Panel.derived (i : Nat) (number : Option String) (s : Panel Conv Key) : Panel Conv Key :=
  match s.derivations[i]? with
  | none => s
  | some d =>
    let s := { s with derivations := s.derivations.eraseIdx i }
    match d.cancelled, number with
    | false, some sn => { s with hooks := { s.hooks with safetyNumber := some sn } }
    | _, _ => s

/-- `gate.get`. -/
def Panel.loadRead (i : Nat) (s : Panel Conv Key) : Panel Conv Key :=
  { s with loads := s.loads.modify i fun l => { l with stored := some (s.store l.conversationId) } }

/-- What the continuation of a load makes of the state hooks. -/
def Load.verdict (l : Load Conv) (stored : Option VerifiedRecord) (hooks : Hooks) : Hooks :=
  match stored with
  | some parsed =>
    if parsed.remoteKeyBase64 ≠ l.currentRemoteBase64 then
      { hooks with
        verified := false
        warning := some "Remote identity key changed; safety number invalidated"
        loaded := true }
    else { hooks with verified := parsed.verified, loaded := true }
  | none => { hooks with verified := false, loaded := true }

/-- The continuation of a load. -/
def Panel.loadDone (i : Nat) (s : Panel Conv Key) : Panel Conv Key :=
  match s.loads[i]? with
  | none => s
  | some l =>
    match l.stored with
    | none => s
    | some stored =>
      let s := { s with loads := s.loads.eraseIdx i }
      if l.cancelled then s else { s with hooks := l.verdict stored s.hooks }

/-- A write reaches the store. -/
def Panel.putDone (i : Nat) (s : Panel Conv Key) : Panel Conv Key :=
  match s.puts[i]? with
  | none => s
  | some (conv, record) =>
    { s with
      puts := s.puts.eraseIdx i
      store := fun c => if c = conv then some record else s.store c
      writes := s.writes ++ [(conv, record)] }

/-- `handleVerify`: the button is there when the verdict on the screen is negative, and enabled when a
    number is shown. -/
def Panel.clickVerify (s : Panel Conv Key) : Panel Conv Key :=
  match s.commit with
  | none => s
  | some c =>
    if c.hooks.verified = false ∧ c.hooks.safetyNumber ≠ none then
      { s with hooks := { s.hooks with verified := true }, clicks := s.clicks ++ [c.props] }
    else s

/-- `handleUnverify`. -/
def Panel.clickUnverify (s : Panel Conv Key) : Panel Conv Key :=
  match s.commit with
  | none => s
  | some c =>
    if c.hooks.verified = true then { s with hooks := { s.hooks with verified := false } } else s

/-- One step. -/
def Panel.step (toBase64 : Key → String) (s : Panel Conv Key) : PanelAct Conv Key → Panel Conv Key
  | .render props => s.render props
  | .runEffects => s.runEffects toBase64
  | .unmount => s.unmount
  | .derived i number => s.derived i number
  | .loadRead i => s.loadRead i
  | .loadDone i => s.loadDone i
  | .loadFailed i => { s with loads := s.loads.eraseIdx i }
  | .putDone i => s.putDone i
  | .putFailed i => { s with puts := s.puts.eraseIdx i }
  | .clickVerify => s.clickVerify
  | .clickUnverify => s.clickUnverify

/-! ## Where a verdict may come from -/

/-- The user clicked Verify on this conversation with this key, or the verdict was stored. -/
def Panel.Justified (toBase64 : Key → String) (store₀ : Conv → Option VerifiedRecord)
    (s : Panel Conv Key) (conv : Conv) (keyBase64 : String) : Prop :=
  (∃ p ∈ s.clicks, p.conversationId = conv ∧ toBase64 p.remoteIdentityKey = keyBase64) ∨
    store₀ conv = some ⟨true, keyBase64⟩

/-- The props do not change in a render that takes a loaded, positive verdict and a number along (or
    the verdict is one for the new props as well). -/
def NotCarried (toBase64 : Key → String) (store₀ : Conv → Option VerifiedRecord)
    (s : Panel Conv Key) : PanelAct Conv Key → Prop
  | .render props =>
    ∀ c, s.commit = some c → c.props ≠ props →
      s.hooks.verified = true → s.hooks.loaded = true → s.hooks.safetyNumber ≠ none →
      s.Justified toBase64 store₀ props.conversationId (toBase64 props.remoteIdentityKey)
  | _ => True

/-! ## What the effects leave alone -/

section

variable (toBase64 : Key → String) (c : Commit Conv Key) (s : Panel Conv Key)

omit [DecidableEq Conv] in
/-- The derive effect touches the warning and the derivations. -/
theorem Panel.deriveEffect_eq :
    ∃ warning derivations, s.deriveEffect c =
      { s with hooks := { s.hooks with warning := warning }, derivations := derivations } := by
  rw [Panel.deriveEffect]
  split
  · exact ⟨s.hooks.warning, s.derivations, rfl⟩
  · exact ⟨_, _, rfl⟩

/-- The persist effect starts a write, of the commit's verdict for the commit's props, or does
    nothing. -/
theorem Panel.persistEffect_eq :
    s.persistEffect toBase64 c = s ∨
      (c.hooks.loaded = true ∧ c.hooks.safetyNumber ≠ none ∧
        s.persistEffect toBase64 c = { s with puts := s.puts ++
          [(c.props.conversationId, ⟨c.hooks.verified, toBase64 c.props.remoteIdentityKey⟩)] }) := by
  rw [Panel.persistEffect]
  split
  · exact .inl rfl
  · split
    · exact .inl rfl
    · rename_i hopen
      rw [not_or, Bool.not_eq_false] at hopen
      exact .inr ⟨hopen.1, hopen.2, rfl⟩

end

/-! ## The invariant -/

variable {toBase64 : Key → String} {store₀ : Conv → Option VerifiedRecord}

omit [DecidableEq Conv] [DecidableEq Key] in
/-- Clicks are never taken back, so what they justify stays justified. -/
theorem Panel.Justified.mono {s s' : Panel Conv Key} {conv : Conv} {b : String}
    (h : s.Justified toBase64 store₀ conv b) (hclicks : ∀ p ∈ s.clicks, p ∈ s'.clicks) :
    s'.Justified toBase64 store₀ conv b := by
  rcases h with ⟨p, hp, heq⟩ | hstored
  · exact .inl ⟨p, hclicks p hp, heq⟩
  · exact .inr hstored

/-- A verdict for these props is justified. -/
def Panel.JustifiedFor (toBase64 : Key → String) (store₀ : Conv → Option VerifiedRecord)
    (s : Panel Conv Key) (props : Props Conv Key) : Prop :=
  s.Justified toBase64 store₀ props.conversationId (toBase64 props.remoteIdentityKey)

/-- Where each copy of a positive verdict came from, and how the parts of the component hang
    together. -/
structure Panel.Inv (toBase64 : Key → String) (store₀ : Conv → Option VerifiedRecord)
    (s : Panel Conv Key) : Prop where
  store : ∀ conv b, s.store conv = some ⟨true, b⟩ → s.Justified toBase64 store₀ conv b
  puts : ∀ conv b, (conv, ⟨true, b⟩) ∈ s.puts → s.Justified toBase64 store₀ conv b
  writes : ∀ conv b, (conv, ⟨true, b⟩) ∈ s.writes → s.Justified toBase64 store₀ conv b
  /-- What a load has read was in the store. -/
  read : ∀ l ∈ s.loads, ∀ b, l.stored = some (some ⟨true, b⟩) →
    s.Justified toBase64 store₀ l.conversationId b
  /-- A load that still counts was started by the effects that ran last. -/
  live : ∀ l ∈ s.loads, l.cancelled = false → ∃ c, s.settled = some c ∧
    c.props.conversationId = l.conversationId ∧
    toBase64 c.props.remoteIdentityKey = l.currentRemoteBase64
  /-- The screen shows a positive verdict, ready to be persisted, only for its own props. -/
  screen : ∀ c, s.commit = some c → c.hooks.verified = true → c.hooks.loaded = true →
    c.hooks.safetyNumber ≠ none → s.JustifiedFor toBase64 store₀ c.props
  /-- Once the effects for the props on the screen have run, so do the state hooks. -/
  hooks : ∀ c, s.commit = some c → s.settled.map (fun p => p.props) = some c.props →
    s.hooks.verified = true → s.hooks.loaded = true → s.JustifiedFor toBase64 store₀ c.props
  settled : s.effectsDue = false → s.settled = s.commit
  unmounted : s.commit = none → s.settled = none ∧ s.hooks.loaded = false

omit [DecidableEq Conv] [DecidableEq Key] in
/-- Nothing mounted over a store: what the store says was there to begin with. -/
theorem Panel.Inv.new (store₀ : Conv → Option VerifiedRecord) :
    (Panel.new store₀ : Panel Conv Key).Inv toBase64 store₀ where
  store := fun _ _ h => .inr h
  puts := fun _ _ h => by cases h
  writes := fun _ _ h => by cases h
  read := fun _ h => by cases h
  live := fun _ h => by cases h
  screen := fun _ h => by cases h
  hooks := fun _ h => by cases h
  settled := fun _ => rfl
  unmounted := fun _ => ⟨rfl, rfl⟩

variable {s : Panel Conv Key}

/-- A render shows what it is given.  This is where a verdict could be carried to other props, which `NotCarried`
    excludes. -/
theorem Panel.Inv.render (h : s.Inv toBase64 store₀) (props : Props Conv Key)
    (hok : NotCarried toBase64 store₀ s (.render props)) :
    (s.render props).Inv toBase64 store₀ := by
  rw [Panel.render]
  split
  · exact h
  · rename_i hdue
    have hsettled := h.settled (Bool.eq_false_iff.mpr hdue)
    -- a positive verdict in the hooks is one for the props before; either these are the new props too
    have hscreen : s.hooks.verified = true → s.hooks.loaded = true → s.hooks.safetyNumber ≠ none →
        s.JustifiedFor toBase64 store₀ props := by
      intro hv hl hn
      cases hc : s.commit with
      | none =>
        rw [(h.unmounted hc).2] at hl
        cases hl
      | some c =>
        by_cases hprops : c.props = props
        · rw [← hprops]
          exact h.hooks c hc (by rw [hsettled, hc]; rfl) hv hl
        · exact hok c hc hprops hv hl hn
    refine { h with screen := ?_, hooks := ?_, settled := ?_, unmounted := ?_ }
    · intro c hc hv hl hn
      cases hc
      exact hscreen hv hl hn
    · intro c hc hprops hv hl
      cases hc
      cases hc : s.commit with
      | none =>
        rw [(h.unmounted hc).2] at hl
        cases hl
      | some c =>
        have heq : c.props = props := by
          have hmap : s.settled.map (fun p => p.props) = some props := hprops
          rw [hsettled, hc] at hmap
          exact Option.some.inj hmap
        rw [← heq]
        exact h.hooks c hc (by rw [hsettled, hc]; rfl) hv hl
    · intro hfalse
      cases hfalse
    · intro hnone
      cases hnone

/-- The load effect and the bookkeeping after the effects. -/
theorem Panel.Inv.settle (h : s.Inv toBase64 store₀) {c : Commit Conv Key} (hc : s.commit = some c) :
    ({ s.loadEffect toBase64 c with effectsDue := false, settled := some c } :
      Panel Conv Key).Inv toBase64 store₀ := by
  rw [Panel.loadEffect]
  split
  · -- the props are those of the effects before: nothing was started, nothing was reset
    rename_i hprops
    refine { h with live := ?_, hooks := ?_, settled := fun _ => hc.symm, unmounted := ?_ }
    · intro l hl hlive
      obtain ⟨c', hc', hconv, hkey⟩ := h.live l hl hlive
      rw [hc', Option.map_some, Option.some.injEq] at hprops
      exact ⟨c, rfl, hprops ▸ hconv, hprops ▸ hkey⟩
    · intro c' hc' _ hv hl
      cases hc.symm.trans hc'
      exact h.hooks c hc hprops hv hl
    · intro hnone
      cases hc.symm.trans hnone
  · refine { h with read := ?_, live := ?_, hooks := ?_, settled := fun _ => hc.symm, unmounted := ?_ }
    · intro l hl b hb
      rcases List.mem_append.mp hl with hold | hnew
      · obtain ⟨l', hl', rfl⟩ := List.mem_map.mp hold
        exact h.read l' hl' b hb
      · rw [List.mem_singleton.mp hnew] at hb
        cases hb
    · intro l hl hlive
      rcases List.mem_append.mp hl with hold | hnew
      · obtain ⟨l', -, rfl⟩ := List.mem_map.mp hold
        cases hlive
      · rw [List.mem_singleton.mp hnew]
        exact ⟨c, rfl, rfl, rfl⟩
    · intro c' _ _ _ hl
      cases hl
    · intro hnone
      cases hc.symm.trans hnone

/-- The effects load for the props on the screen, and write the verdict on the screen for these props. -/
theorem Panel.Inv.runEffects (h : s.Inv toBase64 store₀) : (s.runEffects toBase64).Inv toBase64 store₀ := by
  rw [Panel.runEffects]
  split
  · exact h
  · rename_i c hc
    split
    · obtain ⟨warning, derivations, hderive⟩ := s.deriveEffect_eq c
      have hderived : (s.deriveEffect c).Inv toBase64 store₀ := by
        rw [hderive]
        exact { h with }
      have hcommit : (s.deriveEffect c).commit = some c := by
        rw [hderive]
        exact hc
      have hsettle := hderived.settle hcommit
      rcases Panel.persistEffect_eq toBase64 c ((s.deriveEffect c).loadEffect toBase64 c) with
        hnone | ⟨hloaded, hnumber, hput⟩
      · rw [hnone]
        exact hsettle
      · -- the write under way is the verdict on the screen, for the props on the screen
        rw [hput]
        refine { hsettle with puts := ?_ }
        intro conv b hmem
        rcases List.mem_append.mp hmem with hold | hnew
        · exact hsettle.puts conv b hold
        · rw [List.mem_singleton, Prod.mk.injEq, VerifiedRecord.mk.injEq] at hnew
          obtain ⟨rfl, hverified, rfl⟩ := hnew
          have hscreen := hderived.screen c hcommit hverified.symm hloaded hnumber
          apply hscreen.mono
          intro p hp
          have hclicks : ((s.deriveEffect c).loadEffect toBase64 c).clicks = (s.deriveEffect c).clicks := by
            rw [Panel.loadEffect]
            split
            · rfl
            · rfl
          rw [← hclicks] at hp
          exact hp
    · exact h

omit [DecidableEq Conv] [DecidableEq Key] in
/-- Unmounting forgets the state hooks; writes under way go on. -/
theorem Panel.Inv.unmount (h : s.Inv toBase64 store₀) : s.unmount.Inv toBase64 store₀ := by
  rw [Panel.unmount]
  split
  · exact h
  · refine { h with
      read := ?_, live := ?_, screen := ?_, hooks := ?_, settled := fun _ => rfl
      unmounted := fun _ => ⟨rfl, rfl⟩ }
    · intro l hl b hb
      obtain ⟨l', hl', rfl⟩ := List.mem_map.mp hl
      exact h.read l' hl' b hb
    · intro l hl hlive
      obtain ⟨l', -, rfl⟩ := List.mem_map.mp hl
      cases hlive
    · intro c hc
      cases hc
    · intro c hc
      cases hc

omit [DecidableEq Conv] [DecidableEq Key] in
/-- A number that arrives belongs to the keys it was derived from. -/
theorem Panel.Inv.derived (h : s.Inv toBase64 store₀) (i : Nat) (number : Option String) :
    (s.derived i number).Inv toBase64 store₀ := by
  rw [Panel.derived]
  split
  · exact h
  · dsimp only
    split
    · exact { h with }
    · exact { h with }

omit [DecidableEq Conv] [DecidableEq Key] in
/-- What is read is what the store holds at that moment. -/
theorem Panel.Inv.loadRead (h : s.Inv toBase64 store₀) (i : Nat) :
    (s.loadRead i).Inv toBase64 store₀ := by
  rw [Panel.loadRead]
  have hmem : ∀ l, l ∈ s.loads.modify i (fun l => { l with stored := some (s.store l.conversationId) }) →
      ∃ l' ∈ s.loads, l = l' ∨ l = { l' with stored := some (s.store l'.conversationId) } := by
    intro l hl
    obtain ⟨k, hk⟩ := List.mem_iff_getElem?.mp hl
    rcases getElem?_modify_eq_some.mp hk with ⟨-, l', hl', rfl⟩ | ⟨-, hk⟩
    · exact ⟨l', List.mem_of_getElem? hl', .inr rfl⟩
    · exact ⟨l, List.mem_of_getElem? hk, .inl rfl⟩
  refine { h with read := ?_, live := ?_ }
  · intro l hl b hb
    obtain ⟨l', hl', rfl | rfl⟩ := hmem l hl
    · exact h.read l hl' b hb
    · exact h.store _ b (Option.some.inj hb)
  · intro l hl hlive
    obtain ⟨l', hl', rfl | rfl⟩ := hmem l hl
    · exact h.live l hl' hlive
    · exact h.live l' hl' hlive

omit [DecidableEq Conv] in
/-- A load gives a positive verdict only where one was stored, for the key it was started for. -/
theorem Load.verdict_verified {l : Load Conv} {stored : Option VerifiedRecord} {hooks : Hooks}
    (h : (l.verdict stored hooks).verified = true) : stored = some ⟨true, l.currentRemoteBase64⟩ := by
  cases stored with
  | none => cases h
  | some parsed =>
    rw [Load.verdict] at h
    split at h
    · cases h
    · rename_i hkey
      rw [Decidable.not_not] at hkey
      obtain ⟨verified, keyBase64⟩ := parsed
      have hverified : verified = true := h
      rw [hverified, ← hkey]

omit [DecidableEq Conv] [DecidableEq Key] in
/-- A load that has ended is no more under way. -/
theorem Panel.Inv.eraseLoad (h : s.Inv toBase64 store₀) (i : Nat) :
    ({ s with loads := s.loads.eraseIdx i } : Panel Conv Key).Inv toBase64 store₀ :=
  { h with
    read := fun l hl => h.read l (List.mem_of_mem_eraseIdx hl)
    live := fun l hl => h.live l (List.mem_of_mem_eraseIdx hl) }

omit [DecidableEq Conv] [DecidableEq Key] in
/-- A load that ends sets a verdict only if it has not been cancelled, so only for the props it was started for; and a
    positive one only if the stored key is theirs. -/
theorem Panel.Inv.loadDone (h : s.Inv toBase64 store₀) (i : Nat) :
    (s.loadDone i).Inv toBase64 store₀ := by
  rw [Panel.loadDone]
  split
  · exact h
  · rename_i l hl
    split
    · exact h
    · rename_i stored hstored
      dsimp only
      split
      · exact h.eraseLoad i
      · rename_i hlive
        have hmem := List.mem_of_getElem? hl
        obtain ⟨c, hc, hconv, hkey⟩ := h.live l hmem (Bool.eq_false_iff.mpr hlive)
        refine { h.eraseLoad i with hooks := ?_, unmounted := ?_ }
        · intro c' _ hprops hv _
          -- the load was started for the props on the screen
          have hprops' : s.settled.map (fun p => p.props) = some c'.props := hprops
          rw [hc, Option.map_some, Option.some.injEq] at hprops'
          rw [Load.verdict_verified hv] at hstored
          have hjust := h.read l hmem _ hstored
          rw [← hconv, ← hkey, hprops'] at hjust
          exact hjust
        · intro hnone
          rw [(h.unmounted hnone).1] at hc
          cases hc

omit [DecidableEq Key] in
/-- A write that ends puts a verdict in the store that was justified when it was started, and still is. -/
theorem Panel.Inv.putDone (h : s.Inv toBase64 store₀) (i : Nat) :
    (s.putDone i).Inv toBase64 store₀ := by
  rw [Panel.putDone]
  split
  · exact h
  · rename_i conv record hput
    have hmem := List.mem_of_getElem? hput
    refine { h with store := ?_, puts := ?_, writes := ?_ }
    · intro conv' b hb
      dsimp only at hb
      split at hb
      · rename_i hconv
        cases hb
        subst hconv
        exact h.puts _ b hmem
      · exact h.store conv' b hb
    · intro conv' b hmem'
      exact h.puts conv' b (List.mem_of_mem_eraseIdx hmem')
    · intro conv' b hmem'
      rcases List.mem_append.mp hmem' with hold | hnew
      · exact h.writes conv' b hold
      · rw [List.mem_singleton, Prod.mk.injEq] at hnew
        obtain ⟨rfl, rfl⟩ := hnew
        exact h.puts _ b hmem

omit [DecidableEq Conv] [DecidableEq Key] in
/-- A click justifies the verdict it gives. -/
theorem Panel.Inv.clickVerify (h : s.Inv toBase64 store₀) : s.clickVerify.Inv toBase64 store₀ := by
  rw [Panel.clickVerify]
  split
  · exact h
  · rename_i c hc
    split
    · have hmono : ∀ {conv b}, s.Justified toBase64 store₀ conv b →
          ({ s with hooks := { s.hooks with verified := true }, clicks := s.clicks ++ [c.props] } :
            Panel Conv Key).Justified toBase64 store₀ conv b :=
        fun hj => hj.mono fun p hp => List.mem_append_left _ hp
      exact {
        store := fun conv b hb => hmono (h.store conv b hb)
        puts := fun conv b hb => hmono (h.puts conv b hb)
        writes := fun conv b hb => hmono (h.writes conv b hb)
        read := fun l hl b hb => hmono (h.read l hl b hb)
        live := h.live
        screen := fun c' hc' hv hl hn => hmono (h.screen c' hc' hv hl hn)
        hooks := fun c' hc' _ _ _ => by
          cases hc.symm.trans hc'
          exact .inl ⟨c.props, List.mem_append_right _ (List.mem_singleton.mpr rfl), rfl, rfl⟩
        settled := h.settled
        unmounted := h.unmounted }
    · exact h

omit [DecidableEq Conv] [DecidableEq Key] in
theorem Panel.Inv.clickUnverify (h : s.Inv toBase64 store₀) : s.clickUnverify.Inv toBase64 store₀ := by
  rw [Panel.clickUnverify]
  split
  · exact h
  · split
    · refine { h with hooks := ?_ }
      intro c _ _ hv
      cases hv
    · exact h

/-- One step of any kind keeps the invariant, if it does not carry a verdict over. -/
theorem Panel.Inv.step (h : s.Inv toBase64 store₀) (a : PanelAct Conv Key)
    (hok : NotCarried toBase64 store₀ s a) : (s.step toBase64 a).Inv toBase64 store₀ := by
  cases a with
  | render props => exact h.render props hok
  | runEffects => exact h.runEffects
  | unmount => exact h.unmount
  | derived i number => exact h.derived i number
  | loadRead i => exact h.loadRead i
  | loadDone i => exact h.loadDone i
  | loadFailed i => exact h.eraseLoad i
  | putDone i => exact h.putDone i
  | putFailed i =>
    exact { h with puts := fun conv b hb => h.puts conv b (List.mem_of_mem_eraseIdx hb) }
  | clickVerify => exact h.clickVerify
  | clickUnverify => exact h.clickUnverify

/-- **A positive verdict is written only where the user gave it**, or where it had been stored: in every
    run in which the props never change under a loaded, positive verdict, and in every state of it. -/
theorem verified_only_where_clicked (toBase64 : Key → String) (store₀ : Conv → Option VerifiedRecord)
    (acts : List (PanelAct Conv Key))
    (h : Meets (Panel.step toBase64) (NotCarried toBase64 store₀) (Panel.new store₀) acts)
    (conv : Conv) (keyBase64 : String)
    (hwritten : (conv, ⟨true, keyBase64⟩) ∈ (run (Panel.step toBase64) (Panel.new store₀) acts).writes) :
    (run (Panel.step toBase64) (Panel.new store₀) acts).Justified toBase64 store₀ conv keyBase64 :=
  (meets_inv (fun _ a hs hok => hs.step a hok) (Panel.Inv.new store₀) h).writes conv keyBase64 hwritten

/-! ## Two conversations -/

instance (s : Panel Conv Key) (conv : Conv) (keyBase64 : String) :
    Decidable (s.Justified toBase64 store₀ conv keyBase64) :=
  inferInstanceAs (Decidable ((∃ p ∈ s.clicks, _ ∧ _) ∨ _))

instance (s : Panel Conv Key) : (a : PanelAct Conv Key) → Decidable (NotCarried toBase64 store₀ s a)
  | .render props =>
    inferInstanceAs (Decidable (∀ c ∈ s.commit, c.props ≠ props → s.hooks.verified = true →
      s.hooks.loaded = true → s.hooks.safetyNumber ≠ none →
      s.Justified toBase64 store₀ props.conversationId (toBase64 props.remoteIdentityKey)))
  | .runEffects => .isTrue trivial
  | .unmount => .isTrue trivial
  | .derived _ _ => .isTrue trivial
  | .loadRead _ => .isTrue trivial
  | .loadDone _ => .isTrue trivial
  | .loadFailed _ => .isTrue trivial
  | .putDone _ => .isTrue trivial
  | .putFailed _ => .isTrue trivial
  | .clickVerify => .isTrue trivial
  | .clickUnverify => .isTrue trivial

end

/-- The user opens a conversation and verifies it. -/
def verifyAlice : List (PanelAct String String) :=
  [.render ⟨"alice", "KA"⟩, .runEffects, .derived 0 (some "12345"), .loadRead 0, .loadDone 0,
    .render ⟨"alice", "KA"⟩, .runEffects, .clickVerify, .render ⟨"alice", "KA"⟩, .runEffects]

/-- The user opens a conversation and verifies it: no verdict is carried over. -/
theorem verifyAlice_notCarried : Meets (Panel.step id) (NotCarried id fun _ => none)
    (Panel.new fun _ => none) (verifyAlice ++ [.putDone 1]) := by
  decide +kernel

theorem verifyAlice_writes : ("alice", ⟨true, "KA"⟩) ∈
    (run (Panel.step id) (Panel.new fun _ => none) (verifyAlice ++ [.putDone 1])).writes := by
  decide +kernel

/-- The verdict the user gave is written. -/
theorem verified_alice_written :
    (run (Panel.step id) (Panel.new fun _ => none) (verifyAlice ++ [.putDone 1])).Justified id
      (fun _ => none) "alice" "KA" := by
  apply verified_only_where_clicked
  · exact verifyAlice_notCarried
  · exact verifyAlice_writes

/-- Then another conversation is selected: the verdict is written for its key, too, on which the user
    never clicked. -/
theorem verdict_carried_to_another_key :
    ¬ ∀ (acts : List (PanelAct String String)) (conv keyBase64 : String),
      (conv, ⟨true, keyBase64⟩) ∈ (run (Panel.step id) (Panel.new fun _ => none) acts).writes →
      (run (Panel.step id) (Panel.new fun _ => none) acts).Justified id (fun _ => none) conv
        keyBase64 := by
  intro h
  have hwritten : ("bob", ⟨true, "KB"⟩) ∈ (run (Panel.step id) (Panel.new fun _ => none)
      (verifyAlice ++ [.render ⟨"bob", "KB"⟩, .runEffects, .putDone 2])).writes := by
    decide +kernel
  have hnot : ¬ (run (Panel.step id) (Panel.new fun _ => none)
      (verifyAlice ++ [.render ⟨"bob", "KB"⟩, .runEffects, .putDone 2])).Justified id (fun _ => none)
      "bob" "KB" := by
    decide +kernel
  exact hnot (h _ "bob" "KB" hwritten)

end E2EMessaging.Web
