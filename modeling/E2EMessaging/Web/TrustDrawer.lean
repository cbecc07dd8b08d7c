/-
  WHOSE SAFETY NUMBER IS SHOWN?  (`App` of `clients/web/src/App.tsx`: `activePeerId`, `remoteIdentityKey`, and the
  callback `handleRemoteIdentityKeyChange` that `Conversation` reports to.)

  The drawer beside a conversation shows the safety number of a key that the conversation has reported: from an
  effect, whenever the peer in its input has changed, and from `send`, when a session has been established.  The
  report of `send` comes after an await, for the peer the message was for; by then the user may have put another
  peer into the input, or left the conversation and come back to a new one, with sessions of its own.

  * `drawer_key_bound`: whatever happens, a key in the drawer is that of a session, established with its holder, for
    the peer named with it; and no envelope goes to a peer before the key it is encrypted to has been reported.
  * `drawer_right_iff`: the drawer is about the peer in the input at all times if and only if every session that is
    established is for that peer, in that conversation.
-/
import Mathlib.Data.List.DropRight
import E2EMessaging.Web.Lookup

namespace E2EMessaging.Web.TrustDrawer

open E2EMessaging.Lib E2EMessaging.Crypto

variable {Key Sess Rand : Type}

/-! ## The component -/

/-- `App`, as far as the direct conversation goes. -/
structure App (Key Sess : Type) where
  /-- The conversation, while its view is selected. -/
  conversation : Option (Conversation Key Sess)
  /-- Those that have been left.  Their `send`s go on. -/
  gone : List (Conversation Key Sess)
  /-- `peerId` of the conversation: its input. -/
  peerId : String
  /-- The effect on `[peerId]` of the last commit has still to run. -/
  effectDue : Bool
  activePeerId : String
  remoteIdentityKey : Option Bytes
  /-- All that has been reported. -/
  reports : List (String × Option Bytes)

namespace App

/-- The first commit: the view is `direct`. -/
def mount : App Key Sess where
  conversation := some .mount
  gone := []
  peerId := ""
  effectDue := true
  activePeerId := ""
  remoteIdentityKey := none
  reports := []

/-- All conversations there have been. -/
def all (s : App Key Sess) : List (Conversation Key Sess) := s.conversation.toList ++ s.gone

/-- `handleRemoteIdentityKeyChange`. -/
def handleRemoteIdentityKeyChange (s : App Key Sess) (peerId : String) (key : Option Bytes) : App Key Sess :=
  { s with activePeerId := peerId, remoteIdentityKey := key, reports := s.reports ++ [(peerId, key)] }

/-- The effect: it reports the key of the session there is, if any. -/
def effects (s : App Key Sess) : App Key Sess :=
  match s.conversation with
  | none => s
  | some c =>
    if s.effectDue then
      { s with effectDue := false }.handleRemoteIdentityKeyChange s.peerId (c.keyAt (jsTrim s.peerId))
    else s

/-- The input changes.  Effects that are due run before the next render. -/
def setPeerId (s : App Key Sess) (peerId : String) : App Key Sess :=
  match s.conversation with
  | none => s
  | some _ => if peerId = s.peerId then s.effects else { s.effects with peerId := peerId, effectDue := true }

/-- Another view is selected. -/
def leave (s : App Key Sess) : App Key Sess :=
  match s.conversation with
  | none => s
  | some c => { s.effects with conversation := none, gone := s.gone ++ [c] }

/-- The view `direct` is selected: a new conversation. -/
def enter (s : App Key Sess) : App Key Sess :=
  match s.conversation with
  | some _ => s
  | none => { s with conversation := some .mount, peerId := "", effectDue := true }

end App

section Reports

variable (S : Signal Key Sess Rand) (sha256 : Bytes → Bytes) (C : KeyCodecs Key) (a : Arch)

/-- What a `send` reports after its lookup: the peer and the key, once the session is established. -/
def reported (c : Conversation Key Sess) (i : Nat) (answer : Option Bytes) (rand : Rand) :
    Option (String × Bytes) :=
  match c.pending[i]? with
  | none => none
  | some p =>
    match answer with
    | none => none
    | some bundleBytes =>
      match describeThrown (bundleIdentityKeyBytes S C a bundleBytes) with
      | .error _ => none
      | .ok remoteIdentityKey =>
        match describeThrown (establishSessionFromBundle S sha256 C a p.identity bundleBytes rand) with
        | .error _ => none
        | .ok _ => some (p.trimmedPeerId, remoteIdentityKey)

/-- What can happen. -/
inductive AppAction (Key Rand : Type) where
  | enter
  | leave
  | setPeerId (peerId : String)
  | effects
  /-- `send` of the conversation, with what it sees of its render. -/
  | send (identity : Option (IdentityKeyPair Key)) (peerId input : String) (sending : Bool) (rand : Rand)
  /-- The lookup of one of its `send`s settles. -/
  | answered (i : Nat) (answer : Option Bytes) (rand rand' : Rand)
  /-- That of a conversation that has been left. -/
  | answeredGone (k i : Nat) (answer : Option Bytes) (rand rand' : Rand)

/-- The callback is called if there is something to report. -/
def App.call (s : App Key Sess) : Option (String × Bytes) → App Key Sess
  | none => s
  | some (peerId, key) => s.handleRemoteIdentityKeyChange peerId (some key)

/-- A lookup settles. -/
def App.answered (s : App Key Sess) (i : Nat) (answer : Option Bytes) (rand rand' : Rand) : App Key Sess :=
  match s.conversation with
  | none => s
  | some c =>
    App.call { s with conversation := some (c.answered S sha256 C a i answer rand rand') }
      (reported S sha256 C a c i answer rand)

/-- The same, in a conversation that has been left. -/
def App.answeredGone (s : App Key Sess) (k i : Nat) (answer : Option Bytes) (rand rand' : Rand) : App Key Sess :=
  match s.gone[k]? with
  | none => s
  | some c =>
    App.call { s with gone := s.gone.set k (c.answered S sha256 C a i answer rand rand') }
      (reported S sha256 C a c i answer rand)

/-- One step. -/
def App.step (s : App Key Sess) : AppAction Key Rand → App Key Sess
  | .enter => s.enter
  | .leave => s.leave
  | .setPeerId peerId => s.setPeerId peerId
  | .effects => s.effects
  | .send identity peerId input sending rand =>
    { s with conversation := s.conversation.map fun c => c.send S identity peerId input sending rand }
  | .answered i answer rand rand' => s.answered S sha256 C a i answer rand rand'
  | .answeredGone k i answer rand rand' => s.answeredGone S sha256 C a k i answer rand rand'

/-! ## What a `send` reports -/

variable {S sha256 C a}

theorem deliver_outbox {c : Conversation Key Sess} {peerId : String} {ps : PeerSession Key Sess} {input : String}
    {rand : Rand} {e : String × Bytes} (h : e ∈ (c.deliver S peerId ps input rand).outbox) :
    e ∈ c.outbox ∨ e.1 = peerId := by
  rw [Conversation.deliver] at h
  dsimp only at h
  split at h
  · exact .inl h
  · rcases List.mem_append.mp h with hold | hnew
    · exact .inl hold
    · exact .inr (congrArg Prod.fst (List.mem_singleton.mp hnew))

theorem deliver_pending (c : Conversation Key Sess) (peerId : String) (ps : PeerSession Key Sess) (input : String)
    (rand : Rand) : (c.deliver S peerId ps input rand).pending = c.pending := by
  rw [Conversation.deliver]
  dsimp only
  split <;> rfl

variable (S sha256 C a) in
/-- It reports the key of the session it has filed, and nothing if it has filed none. -/
theorem reported_cases (c : Conversation Key Sess) (i : Nat) (answer : Option Bytes) (rand rand' : Rand) :
    (reported S sha256 C a c i answer rand = none ∧
      (∀ q, (c.answered S sha256 C a i answer rand rand').keyAt q = c.keyAt q) ∧
      (c.answered S sha256 C a i answer rand rand').outbox = c.outbox) ∨
    ∃ p key, p ∈ c.pending ∧ reported S sha256 C a c i answer rand = some (p.trimmedPeerId, key) ∧
      (∀ q, (c.answered S sha256 C a i answer rand rand').keyAt q =
        if q = p.trimmedPeerId then some key else c.keyAt q) ∧
      ∀ e ∈ (c.answered S sha256 C a i answer rand rand').outbox, e ∈ c.outbox ∨ e.1 = p.trimmedPeerId := by
  rw [Conversation.answered, reported]
  cases hp : c.pending[i]? with
  | none => exact .inl ⟨rfl, fun _ => rfl, rfl⟩
  | some p =>
    cases answer with
    | none => exact .inl ⟨rfl, fun _ => rfl, rfl⟩
    | some bundleBytes =>
      dsimp only
      cases hkey : describeThrown (bundleIdentityKeyBytes S C a bundleBytes) with
      | error e => exact .inl ⟨rfl, fun _ => rfl, rfl⟩
      | ok key =>
        dsimp only
        cases hest : describeThrown (establishSessionFromBundle S sha256 C a p.identity bundleBytes rand) with
        | error e => exact .inl ⟨rfl, fun _ => rfl, rfl⟩
        | ok session =>
          refine .inr ⟨p, key, List.mem_of_getElem? hp, rfl, fun q => deliver_keyAt .., ?_⟩
          exact fun e he => deliver_outbox (c := { c with pending := c.pending.eraseIdx i }) he

/-- What waits after an answer has waited before. -/
theorem answered_pending (c : Conversation Key Sess) (i : Nat) (answer : Option Bytes) (rand rand' : Rand)
    {p : PendingSend Key} (h : p ∈ (c.answered S sha256 C a i answer rand rand').pending) : p ∈ c.pending := by
  rw [Conversation.answered] at h
  split at h
  · exact h
  · have herase : ∀ d : Conversation Key Sess, d.pending = c.pending.eraseIdx i → p ∈ d.pending → p ∈ c.pending :=
      fun d hd hmem => List.mem_of_mem_eraseIdx (hd ▸ hmem)
    dsimp only at h
    split at h
    · exact herase _ rfl h
    · split at h
      · exact herase _ rfl h
      · split at h
        · exact herase _ rfl h
        · exact herase _ (deliver_pending ..) h

/-- `send` files no key, and hands over only to peers with a session. -/
theorem send_cases (c : Conversation Key Sess) (identity : Option (IdentityKeyPair Key)) (peerId input : String)
    (sending : Bool) (rand : Rand) :
    (∀ e ∈ (c.send S identity peerId input sending rand).outbox, e ∈ c.outbox ∨ ∃ key, c.keyAt e.1 = some key) ∧
    ∀ p ∈ (c.send S identity peerId input sending rand).pending, p ∈ c.pending ∨ p.trimmedPeerId = jsTrim peerId := by
  have hsame : (∀ e ∈ c.outbox, e ∈ c.outbox ∨ ∃ key, c.keyAt e.1 = some key) ∧
      ∀ p ∈ c.pending, p ∈ c.pending ∨ p.trimmedPeerId = jsTrim peerId := ⟨fun _ => .inl, fun _ => .inl⟩
  cases identity with
  | none => exact hsame
  | some identity =>
    simp only [Conversation.send]
    split
    · exact hsame
    · split
      · rename_i ps hps
        constructor
        · intro e he
          rcases deliver_outbox he with hold | hpeer
          · exact .inl hold
          · refine .inr ⟨ps.remoteIdentityKey, ?_⟩
            rw [hpeer, Conversation.keyAt, hps]
            rfl
        · intro p hp
          rw [deliver_pending] at hp
          exact .inl hp
      · refine ⟨fun _ => .inl, ?_⟩
        intro p hp
        rcases List.mem_append.mp hp with hold | hnew
        · exact .inl hold
        · rw [List.mem_singleton.mp hnew]
          exact .inr rfl

end Reports

/-! ## Trimming -/

/-- What is left after both ends have been trimmed begins with no space. -/
theorem dropWhile_trimmed (l : List Char) :
    ((l.dropWhile isJsSpace).reverse.dropWhile isJsSpace).reverse.dropWhile isJsSpace =
      ((l.dropWhile isJsSpace).reverse.dropWhile isJsSpace).reverse := by
  have htrimmed : ((l.dropWhile isJsSpace).reverse.dropWhile isJsSpace).reverse <+: l.dropWhile isJsSpace :=
    List.rdropWhile_prefix ..
  rw [List.dropWhile_eq_self_iff]
  intro hpos
  rw [htrimmed.getElem hpos]
  exact List.dropWhile_get_zero_not isJsSpace l (by have := htrimmed.length_le; omega)

theorem jsTrim_jsTrim (s : String) : jsTrim (jsTrim s) = jsTrim s := by
  have htrim : jsTrim s = String.ofList ((s.toList.dropWhile isJsSpace).reverse.dropWhile isJsSpace).reverse := rfl
  rw [htrim, jsTrim, String.toList_ofList, dropWhile_trimmed, List.reverse_reverse, dropWhile_trimmed]

/-! ## The key in the drawer -/

/-- What is asked of the drawer. -/
structure Bound (sha256 : Bytes → Bytes) (s : App Key Sess) : Prop where
  /-- A key that is shown is that of a session for the peer it is shown for. -/
  shown : ∀ key, s.remoteIdentityKey = some key → ∃ c ∈ s.all, c.keyAt (jsTrim s.activePeerId) = some key
  /-- The session was established with the holder of the key. -/
  addressed : ∀ c ∈ s.all, c.Addressed sha256
  /-- The keys of all sessions have been reported. -/
  reported : ∀ c ∈ s.all, ∀ peerId key, c.keyAt peerId = some key → (peerId, some key) ∈ s.reports
  /-- So has the key of whatever peer an envelope has gone to. -/
  outbox : ∀ c ∈ s.all, ∀ e ∈ c.outbox, ∃ key, (e.1, some key) ∈ s.reports

/-- The invariant: peers of suspended `send`s have been trimmed. -/
structure Inv (sha256 : Bytes → Bytes) (s : App Key Sess) : Prop extends Bound sha256 s where
  trimmed : ∀ c ∈ s.all, ∀ p ∈ c.pending, jsTrim p.trimmedPeerId = p.trimmedPeerId

section Steps

variable {S : Signal Key Sess Rand} {sha256 : Bytes → Bytes} {C : KeyCodecs Key} {a : Arch} {s : App Key Sess}

theorem mount_keyAt (peerId : String) : (Conversation.mount : Conversation Key Sess).keyAt peerId = none := rfl

theorem Inv.mount : Inv sha256 (App.mount : App Key Sess) := by
  have hall : ∀ c ∈ (App.mount : App Key Sess).all, c = Conversation.mount := fun c hc => List.mem_singleton.mp hc
  refine ⟨⟨nofun, ?_, ?_, ?_⟩, ?_⟩
  · intro c hc peerId ps h
    rw [hall c hc] at h
    cases h
  · intro c hc peerId key h
    rw [hall c hc, mount_keyAt] at h
    cases h
  · intro c hc e he
    rw [hall c hc] at he
    cases he
  · intro c hc p hp
    rw [hall c hc] at hp
    cases hp

/-- Conversations have come and gone, and nothing else has happened; a new one has nothing. -/
theorem Inv.frame (hs : Inv sha256 s) (conversation : Option (Conversation Key Sess))
    (gone : List (Conversation Key Sess)) (hold : ∀ c ∈ s.all, c ∈ conversation.toList ++ gone)
    (hnew : ∀ c ∈ conversation.toList ++ gone, c ∈ s.all ∨ c = .mount) (peerId : String) (effectDue : Bool) :
    Inv sha256 { s with conversation := conversation, gone := gone, peerId := peerId, effectDue := effectDue } := by
  refine ⟨⟨?_, ?_, ?_, ?_⟩, ?_⟩
  · intro key hkey
    obtain ⟨c, hc, hat⟩ := hs.shown key hkey
    exact ⟨c, hold c hc, hat⟩
  · intro c hc
    rcases hnew c hc with hmem | rfl
    · exact hs.addressed c hmem
    · exact fun _ _ h => by cases h
  · intro c hc peerId key hat
    rcases hnew c hc with hmem | rfl
    · exact hs.reported c hmem peerId key hat
    · rw [mount_keyAt] at hat
      cases hat
  · intro c hc e he
    rcases hnew c hc with hmem | rfl
    · exact hs.outbox c hmem e he
    · cases he
  · intro c hc p hp
    rcases hnew c hc with hmem | rfl
    · exact hs.trimmed c hmem p hp
    · cases hp

/-- An effect leaves the conversations and the input alone. -/
theorem effects_frame (s : App Key Sess) :
    s.effects.conversation = s.conversation ∧ s.effects.gone = s.gone ∧ s.effects.peerId = s.peerId := by
  unfold App.effects
  split
  · exact ⟨rfl, rfl, rfl⟩
  · split <;> exact ⟨rfl, rfl, rfl⟩

/-- The effect reports what the conversation has. -/
theorem Inv.effects (hs : Inv sha256 s) : Inv sha256 s.effects := by
  unfold App.effects
  split
  · exact hs
  · rename_i c hc
    have hmem : c ∈ s.all := by
      rw [App.all, hc]
      exact List.mem_cons_self ..
    split
    · have hgrows : ∀ r ∈ s.reports, r ∈ s.reports ++ [(s.peerId, c.keyAt (jsTrim s.peerId))] :=
        fun r hr => List.mem_append_left _ hr
      refine ⟨⟨?_, hs.addressed, ?_, ?_⟩, hs.trimmed⟩
      · exact fun key hkey => ⟨c, hmem, hkey⟩
      · exact fun d hd peerId key hat => hgrows _ (hs.reported d hd peerId key hat)
      · intro d hd e he
        obtain ⟨key, hkey⟩ := hs.outbox d hd e he
        exact ⟨key, hgrows _ hkey⟩
    · exact hs

/-- A conversation has gone on to `c'`, and has called back. -/
theorem Inv.goOn (hs : Inv sha256 s) {c : Conversation Key Sess} (hc : c ∈ s.all) (c' : Conversation Key Sess)
    (conversation : Option (Conversation Key Sess)) (gone : List (Conversation Key Sess))
    (call : Option (String × Bytes))
    (hold : ∀ d ∈ s.all, d ∈ conversation.toList ++ gone ∨ d = c)
    (hin : c' ∈ conversation.toList ++ gone)
    (hnew : ∀ d ∈ conversation.toList ++ gone, d ∈ s.all ∨ d = c')
    (haddressed : c'.Addressed sha256)
    (hpending : ∀ p ∈ c'.pending, p ∈ c.pending ∨ jsTrim p.trimmedPeerId = p.trimmedPeerId)
    (hcall : (call = none ∧ (∀ q, c'.keyAt q = c.keyAt q) ∧
        ∀ e ∈ c'.outbox, e ∈ c.outbox ∨ ∃ key, c.keyAt e.1 = some key) ∨
      ∃ peerId key, call = some (peerId, key) ∧ jsTrim peerId = peerId ∧
        (∀ q, c'.keyAt q = if q = peerId then some key else c.keyAt q) ∧
        ∀ e ∈ c'.outbox, e ∈ c.outbox ∨ e.1 = peerId) :
    Inv sha256 (App.call { s with conversation := conversation, gone := gone } call) := by
  have haddr : ∀ d ∈ conversation.toList ++ gone, d.Addressed sha256 := by
    intro d hd
    rcases hnew d hd with hmem | rfl
    · exact hs.addressed d hmem
    · exact haddressed
  have htrimmed : ∀ d ∈ conversation.toList ++ gone, ∀ p ∈ d.pending, jsTrim p.trimmedPeerId = p.trimmedPeerId := by
    intro d hd p hp
    rcases hnew d hd with hmem | rfl
    · exact hs.trimmed d hmem p hp
    · rcases hpending p hp with hwaiting | htrim
      · exact hs.trimmed c hc p hwaiting
      · exact htrim
  rcases hcall with ⟨rfl, hkeep, hout⟩ | ⟨peerId, key, rfl, htrim, hfile, hout⟩
  · -- nothing to report: the keys are as before
    refine ⟨⟨?_, haddr, ?_, ?_⟩, htrimmed⟩
    · intro key hkey
      obtain ⟨d, hd, hat⟩ := hs.shown key hkey
      rcases hold d hd with hstays | rfl
      · exact ⟨d, hstays, hat⟩
      · exact ⟨c', hin, (hkeep _).trans hat⟩
    · intro d hd peerId key hat
      rcases hnew d hd with hmem | rfl
      · exact hs.reported d hmem peerId key hat
      · exact hs.reported c hc peerId key ((hkeep _).symm.trans hat)
    · intro d hd e he
      rcases hnew d hd with hmem | rfl
      · exact hs.outbox d hmem e he
      · rcases hout e he with hsent | ⟨key, hat⟩
        · exact hs.outbox c hc e hsent
        · exact ⟨key, hs.reported c hc e.1 key hat⟩
  · have hgrows : ∀ r ∈ s.reports, r ∈ s.reports ++ [(peerId, some key)] := fun r hr => List.mem_append_left _ hr
    have hlast : (peerId, some key) ∈ s.reports ++ [(peerId, some key)] :=
      List.mem_append_right _ (List.mem_singleton.mpr rfl)
    refine ⟨⟨?_, haddr, ?_, ?_⟩, htrimmed⟩
    · intro key' hkey'
      obtain rfl := Option.some.inj hkey'
      refine ⟨c', hin, ?_⟩
      show c'.keyAt (jsTrim peerId) = _
      rw [htrim, hfile, if_pos rfl]
    · intro d hd q key' hat
      rcases hnew d hd with hmem | rfl
      · exact hgrows _ (hs.reported d hmem q key' hat)
      · rw [hfile] at hat
        split at hat
        · rename_i hq
          rw [hq, ← hat]
          exact hlast
        · exact hgrows _ (hs.reported c hc q key' hat)
    · intro d hd e he
      rcases hnew d hd with hmem | rfl
      · obtain ⟨key', hkey'⟩ := hs.outbox d hmem e he
        exact ⟨key', hgrows _ hkey'⟩
      · rcases hout e he with hsent | hpeer
        · obtain ⟨key', hkey'⟩ := hs.outbox c hc e hsent
          exact ⟨key', hgrows _ hkey'⟩
        · exact ⟨key, hpeer ▸ hlast⟩

/-- An answer, wherever the conversation is. -/
theorem Inv.answer (hs : Inv sha256 s) {c : Conversation Key Sess} (hc : c ∈ s.all) (i : Nat) (answer : Option Bytes)
    (rand rand' : Rand) {conversation : Option (Conversation Key Sess)} {gone : List (Conversation Key Sess)}
    (hold : ∀ d ∈ s.all, d ∈ conversation.toList ++ gone ∨ d = c)
    (hin : c.answered S sha256 C a i answer rand rand' ∈ conversation.toList ++ gone)
    (hnew : ∀ d ∈ conversation.toList ++ gone, d ∈ s.all ∨ d = c.answered S sha256 C a i answer rand rand') :
    Inv sha256 (App.call { s with conversation := conversation, gone := gone }
      (reported S sha256 C a c i answer rand)) := by
  refine hs.goOn hc _ _ _ _ hold hin hnew ((hs.addressed c hc).answered i answer rand rand')
    (fun p hp => .inl (answered_pending c i answer rand rand' hp)) ?_
  rcases reported_cases S sha256 C a c i answer rand rand' with ⟨hnone, hkeep, hout⟩ | ⟨p, key, hp, hsome, hfile, hout⟩
  · exact .inl ⟨hnone, hkeep, fun e he => .inl (hout ▸ he)⟩
  · exact .inr ⟨p.trimmedPeerId, key, hsome, hs.trimmed c hc p hp, hfile, hout⟩

/-- **Every step keeps the invariant.** -/
theorem Inv.step (hs : Inv sha256 s) (act : AppAction Key Rand) : Inv sha256 (s.step S sha256 C a act) := by
  cases act with
  | enter =>
    show Inv sha256 s.enter
    unfold App.enter
    split
    · exact hs
    · rename_i hnone
      have hall : s.all = s.gone := by
        rw [App.all, hnone]
        rfl
      refine hs.frame (some .mount) s.gone ?_ ?_ "" true
      · exact fun c hc => List.mem_cons_of_mem _ (hall ▸ hc)
      · intro c hc
        rcases List.mem_cons.mp hc with rfl | hgone
        · exact .inr rfl
        · exact .inl (hall ▸ hgone)
  | leave =>
    show Inv sha256 s.leave
    unfold App.leave
    split
    · exact hs
    · rename_i c hc
      obtain ⟨hconversation, hgone, -⟩ := effects_frame s
      have hall : s.effects.all = c :: s.gone := by
        rw [App.all, hconversation, hgone, hc]
        rfl
      refine hs.effects.frame none (s.gone ++ [c]) ?_ ?_ s.effects.peerId s.effects.effectDue
      · intro d hd
        rw [hall] at hd
        show d ∈ s.gone ++ [c]
        rcases List.mem_cons.mp hd with rfl | hd
        · exact List.mem_append_right _ (List.mem_singleton.mpr rfl)
        · exact List.mem_append_left _ hd
      · intro d (hd : d ∈ s.gone ++ [c])
        left
        rw [hall]
        rcases List.mem_append.mp hd with hd | hd
        · exact List.mem_cons_of_mem _ hd
        · rw [List.mem_singleton.mp hd]
          exact List.mem_cons_self ..
  | setPeerId peerId =>
    show Inv sha256 (s.setPeerId peerId)
    unfold App.setPeerId
    split
    · exact hs
    · split
      · exact hs.effects
      · exact hs.effects.frame s.effects.conversation s.effects.gone (fun _ h => h)
          (fun _ h => .inl h) peerId true
  | effects => exact hs.effects
  | send identity peerId input sending rand =>
    cases hc : s.conversation with
    | none =>
      have hsame : s.step S sha256 C a (.send identity peerId input sending rand) = s := by
        rw [App.step, hc, Option.map_none, ← hc]
      rw [hsame]
      exact hs
    | some c =>
      have hall : s.all = c :: s.gone := by
        rw [App.all, hc]
        rfl
      have hmem : c ∈ s.all := hall ▸ List.mem_cons_self ..
      obtain ⟨hout, hwaiting⟩ := send_cases (S := S) c identity peerId input sending rand
      rw [App.step, hc, Option.map_some]
      refine hs.goOn hmem (c.send S identity peerId input sending rand)
        (some (c.send S identity peerId input sending rand)) s.gone none ?_ (List.mem_cons_self ..) ?_
        ((hs.addressed c hmem).send identity peerId input sending rand) ?_
        (.inl ⟨rfl, fun q => send_keyAt .., hout⟩)
      · intro d hd
        rw [hall] at hd
        rcases List.mem_cons.mp hd with hd | hd
        · exact .inr hd
        · exact .inl (List.mem_cons_of_mem _ hd)
      · intro d hd
        rcases List.mem_cons.mp hd with hd | hd
        · exact .inr hd
        · exact .inl (hall ▸ List.mem_cons_of_mem _ hd)
      · intro p hp
        rcases hwaiting p hp with hold | hnew
        · exact .inl hold
        · refine .inr ?_
          rw [hnew, jsTrim_jsTrim]
  | answered i answer rand rand' =>
    show Inv sha256 (s.answered S sha256 C a i answer rand rand')
    unfold App.answered
    split
    · exact hs
    · rename_i c hc
      have hall : s.all = c :: s.gone := by
        rw [App.all, hc]
        rfl
      refine hs.answer (hall ▸ List.mem_cons_self ..) i answer rand rand' ?_ (List.mem_cons_self ..) ?_
      · intro d hd
        rw [hall] at hd
        rcases List.mem_cons.mp hd with hd | hd
        · exact .inr hd
        · exact .inl (List.mem_cons_of_mem _ hd)
      · intro d hd
        rcases List.mem_cons.mp hd with hd | hd
        · exact .inr hd
        · exact .inl (hall ▸ List.mem_cons_of_mem _ hd)
  | answeredGone k i answer rand rand' =>
    show Inv sha256 (s.answeredGone S sha256 C a k i answer rand rand')
    unfold App.answeredGone
    split
    · exact hs
    · rename_i c hc
      have hlt := (List.getElem?_eq_some_iff.mp hc).1
      refine hs.answer (List.mem_append_right _ (List.mem_of_getElem? hc)) i answer rand rand' ?_
        (List.mem_append_right _ (List.mem_set hlt _)) ?_
      · intro d hd
        rcases List.mem_append.mp hd with hd | hd
        · exact .inl (List.mem_append_left _ hd)
        · obtain ⟨j, hj⟩ := List.mem_iff_getElem?.mp hd
          by_cases hjk : k = j
          · subst hjk
            exact .inr (Option.some.inj (hj.symm.trans hc))
          · refine .inl (List.mem_append_right _ (List.mem_of_getElem? (i := j) ?_))
            rw [List.getElem?_set_ne hjk]
            exact hj
      · intro d hd
        rcases List.mem_append.mp hd with hd | hd
        · exact .inl (List.mem_append_left _ hd)
        · rcases List.mem_or_eq_of_mem_set hd with hd | hd
          · exact .inl (List.mem_append_right _ hd)
          · exact .inr hd

end Steps

/-- **A key in the drawer is bound to a session.**  In every run, whatever the relay answers and whenever: a key that
    is shown is that of a session for the peer it is shown for, and the session was established with the holder of
    that key; and whatever envelope goes to a peer, the key of a session for that peer has been reported before. -/
theorem drawer_key_bound (S : Signal Key Sess Rand) (sha256 : Bytes → Bytes) (C : KeyCodecs Key) (a : Arch)
    (acts : List (AppAction Key Rand)) :
    Bound sha256 (run (App.step S sha256 C a) (.mount : App Key Sess) acts) :=
  (run_inv (fun _ act hs => hs.step act) Inv.mount acts).toBound

/-! ## The peer in the input -/

/-- While a conversation is on the screen, and its effect has run, the drawer is about the peer in its input: it
    shows the key of the session for that peer, or none if there is none. -/
def Right (s : App Key Sess) : Prop :=
  ∀ c ∈ s.conversation, s.effectDue = false →
    jsTrim s.activePeerId = jsTrim s.peerId ∧ s.remoteIdentityKey = c.keyAt (jsTrim s.peerId)

/-- A session that is established is for the peer in the input; if it is that of a conversation that has been left,
    the one on the screen has a session with the same key. -/
def InPlace (S : Signal Key Sess Rand) (sha256 : Bytes → Bytes) (C : KeyCodecs Key) (a : Arch) (s : App Key Sess) :
    AppAction Key Rand → Prop
  | .answered i answer rand _ => ∀ c ∈ s.conversation, s.effectDue = false → ∀ peerId key,
    reported S sha256 C a c i answer rand = some (peerId, key) → peerId = jsTrim s.peerId
  | .answeredGone k i answer rand _ => ∀ c ∈ s.conversation, s.effectDue = false → ∀ g ∈ s.gone[k]?, ∀ peerId key,
    reported S sha256 C a g i answer rand = some (peerId, key) →
      peerId = jsTrim s.peerId ∧ c.keyAt peerId = some key
  | _ => True

section Drawer

variable {S : Signal Key Sess Rand} {sha256 : Bytes → Bytes} {C : KeyCodecs Key} {a : Arch} {s : App Key Sess}

/-- The effect makes it right. -/
theorem right_effects (hs : Right s) : Right s.effects := by
  unfold App.effects
  split
  · exact hs
  · rename_i c hc
    split
    · intro d hd _
      obtain rfl : c = d := Option.some.inj (hc.symm.trans hd)
      exact ⟨rfl, rfl⟩
    · exact hs

/-- The peer a `send` reports has been trimmed. -/
theorem Inv.reported_trimmed (hs : Inv sha256 s) {c : Conversation Key Sess} (hc : c ∈ s.all) {i : Nat}
    {answer : Option Bytes} {rand : Rand} {peerId : String} {key : Bytes}
    (h : reported S sha256 C a c i answer rand = some (peerId, key)) : jsTrim peerId = peerId := by
  rcases reported_cases S sha256 C a c i answer rand rand with
    ⟨hnone, -⟩ | ⟨p, key', hp, hsome, -⟩
  · rw [hnone] at h
    cases h
  · rw [hsome] at h
    obtain ⟨rfl, -⟩ := Prod.mk.inj (Option.some.inj h)
    exact hs.trimmed c hc p hp

/-- An answer to the conversation on the screen. -/
theorem right_answered (hs : Inv sha256 s) (hright : Right s) (i : Nat) (answer : Option Bytes) (rand rand' : Rand) :
    Right (s.answered S sha256 C a i answer rand rand') ↔ InPlace S sha256 C a s (.answered i answer rand rand') := by
  rcases Option.eq_none_or_eq_some s.conversation with hnone | ⟨c, hc⟩
  · refine iff_of_true ?_ ?_
    · rw [App.answered, hnone]
      exact hright
    · intro c hc
      rw [hnone] at hc
      cases hc
  · have hmem : c ∈ s.all := by
      rw [App.all, hc]
      exact List.mem_cons_self ..
    rw [App.answered, hc]
    dsimp only
    rcases reported_cases S sha256 C a c i answer rand rand' with
      ⟨hquiet, hkeep, -⟩ | ⟨p, key, hp, hcall, hfile, -⟩
    · rw [hquiet]
      refine iff_of_true ?_ ?_
      · intro d hd hdue
        obtain rfl := Option.some.inj hd
        obtain ⟨hpeer, hkey⟩ := hright c hc hdue
        exact ⟨hpeer, hkey.trans (hkeep _).symm⟩
      · intro d hd _ peerId key hcall
        obtain rfl : c = d := Option.some.inj (hc.symm.trans hd)
        rw [hquiet] at hcall
        cases hcall
    · have htrim := hs.reported_trimmed hmem hcall
      rw [hcall]
      constructor
      · intro h d hd hdue peerId key' hcall'
        obtain rfl : c = d := Option.some.inj (hc.symm.trans hd)
        obtain ⟨rfl, -⟩ := Prod.mk.inj (Option.some.inj (hcall.symm.trans hcall'))
        have hpeer : jsTrim p.trimmedPeerId = jsTrim s.peerId := (h _ rfl hdue).1
        exact htrim.symm.trans hpeer
      · intro h d hd hdue
        obtain rfl := Option.some.inj hd
        have hpeer := h c hc hdue _ _ hcall
        refine ⟨htrim.trans hpeer, ?_⟩
        show some key = Conversation.keyAt _ (jsTrim s.peerId)
        rw [hfile, if_pos hpeer.symm]

/-- An answer to one that has been left. -/
theorem right_answeredGone (hs : Inv sha256 s) (hright : Right s) (k i : Nat) (answer : Option Bytes)
    (rand rand' : Rand) : Right (s.answeredGone S sha256 C a k i answer rand rand') ↔
      InPlace S sha256 C a s (.answeredGone k i answer rand rand') := by
  rcases Option.eq_none_or_eq_some s.gone[k]? with hnone | ⟨g, hg⟩
  · refine iff_of_true ?_ ?_
    · rw [App.answeredGone, hnone]
      exact hright
    · intro c _ _ g hg
      rw [hnone] at hg
      cases hg
  · have hmem : g ∈ s.all := List.mem_append_right _ (List.mem_of_getElem? hg)
    rw [App.answeredGone, hg]
    dsimp only
    rcases reported_cases S sha256 C a g i answer rand rand' with
      ⟨hquiet, -, -⟩ | ⟨p, key, hp, hcall, -, -⟩
    · rw [hquiet]
      refine iff_of_true hright ?_
      intro c _ _ d hd peerId key hcall
      obtain rfl : g = d := Option.some.inj (hg.symm.trans hd)
      rw [hquiet] at hcall
      cases hcall
    · have htrim := hs.reported_trimmed hmem hcall
      rw [hcall]
      constructor
      · intro h c hc hdue d hd peerId key' hcall'
        obtain rfl : g = d := Option.some.inj (hg.symm.trans hd)
        obtain ⟨rfl, rfl⟩ := Prod.mk.inj (Option.some.inj (hcall.symm.trans hcall'))
        obtain ⟨hpeer, hkey⟩ : jsTrim p.trimmedPeerId = jsTrim s.peerId ∧ some key = c.keyAt (jsTrim s.peerId) :=
          h c hc hdue
        rw [htrim] at hpeer
        rw [hpeer]
        exact ⟨rfl, hkey.symm⟩
      · intro h c hc hdue
        obtain ⟨hpeer, hkey⟩ := h c hc hdue g hg _ _ hcall
        refine ⟨htrim.trans hpeer, ?_⟩
        rw [hpeer] at hkey
        exact hkey.symm

/-- **After a step the drawer is right** exactly if the step is in place. -/
theorem right_step_iff (hs : Inv sha256 s) (hright : Right s) (act : AppAction Key Rand) :
    Right (s.step S sha256 C a act) ↔ InPlace S sha256 C a s act := by
  cases act with
  | enter =>
    refine iff_of_true ?_ trivial
    show Right s.enter
    unfold App.enter
    split
    · exact hright
    · intro c _ hdue
      cases hdue
  | leave =>
    refine iff_of_true ?_ trivial
    show Right s.leave
    unfold App.leave
    split
    · exact hright
    · intro c hc
      cases hc
  | setPeerId peerId =>
    refine iff_of_true ?_ trivial
    show Right (s.setPeerId peerId)
    unfold App.setPeerId
    split
    · exact hright
    · split
      · exact right_effects hright
      · intro c _ hdue
        cases hdue
  | effects => exact iff_of_true (right_effects hright) trivial
  | send identity peerId input sending rand =>
    refine iff_of_true ?_ trivial
    intro c hc hdue
    obtain ⟨d, hd, rfl⟩ := Option.map_eq_some_iff.mp hc
    obtain ⟨hpeer, hkey⟩ := hright d hd hdue
    refine ⟨hpeer, hkey.trans ?_⟩
    exact (send_keyAt ..).symm
  | answered i answer rand rand' => exact right_answered hs hright i answer rand rand'
  | answeredGone k i answer rand rand' => exact right_answeredGone hs hright k i answer rand rand'

end Drawer

/-- **Exactly when the drawer is right.**  For every relay, and every order of what the user, the effects and the
    lookups do: after each step the drawer is about the peer in the input, if and only if each session that is
    established, while no effect is due, is for that peer and, as long as its conversation is the one on the
    screen, in that conversation.  An answer to a conversation that has been left is in place as well if the
    peer on the screen has the same identity key: the drawer then shows the number it should. -/
theorem drawer_right_iff (S : Signal Key Sess Rand) (sha256 : Bytes → Bytes) (C : KeyCodecs Key) (a : Arch)
    (acts : List (AppAction Key Rand)) :
    Meets (App.step S sha256 C a) (fun s act => Right (s.step S sha256 C a act)) (.mount : App Key Sess) acts ↔
      Meets (App.step S sha256 C a) (InPlace S sha256 C a) .mount acts := by
  apply meets_iff (I := fun s => Inv sha256 s ∧ Right s)
  · exact fun s act h => right_step_iff h.1 h.2 act
  · exact fun s act h hplace => ⟨h.1.step act, (right_step_iff h.1 h.2 act).mpr hplace⟩
  · refine ⟨Inv.mount, ?_⟩
    intro c _ hdue
    cases hdue

end E2EMessaging.Web.TrustDrawer
