/-
  THE MESSAGE HISTORY OF A CONVERSATION (the load and persist effects of
  `clients/web/src/Conversation.tsx`), as React runs them.

  On mount the component reads the history record and, if there is one, REPLACES its list by it; every
  message received or sent is APPENDED to the list; after every commit with a changed list, once the
  load is done, the persist effect starts a write of the WHOLE list of that commit.  State updates are
  queued and applied, in order, by the next render; the effect of a commit runs later, at the latest
  before the next render; the writes end in any order, and each overwrites the record.

  Two things go wrong (`history_lost`):
    * a message that arrives before the load is done is in the list the load replaces: it is gone, and
      the relay, which has handed it out, does not have it any more;
    * a write that ends after a newer one leaves the older list in the record.

  `history_kept_iff` says EXACTLY when the history is complete once everything has ended.  The invariant
  has two sides: either nothing is lost so far (`Conv.Complete`: what the list, the queue and each write
  hold), or something is (`Conv.Lost`: the list is too short, and stays too short).
-/
import E2EMessaging.Lib.Run

namespace E2EMessaging.Web

open E2EMessaging.Lib

/-! ## State -/

/-- `Message`. -/
structure Message where
  id : String
  body : String
  /-- Epoch ms. -/
  timestamp : Nat
  sentByMe : Bool
  deriving Repr, DecidableEq

/-- A call of `setMessages`. -/
inductive Update where
  /-- `setMessages(stored)`. -/
  | setTo (stored : List Message)
  /-- `setMessages(prev => [...prev, msg])`. -/
  | add (msg : Message)
  deriving Repr, DecidableEq

def Update.apply (prev : List Message) : Update → List Message
  | .setTo stored => stored
  | .add msg => prev ++ [msg]

/-- A `messages` array.  Every update makes a new one; the number tells them apart. -/
structure Snapshot where
  version : Nat
  messages : List Message
  deriving Repr, DecidableEq

/-- How far the load effect has got. -/
inductive HistoryLoad where
  | reading
  /-- `gate.get` has returned. -/
  | read (stored : Option (List Message))
  /-- It is done, or it has failed. -/
  | ended
  deriving Repr, DecidableEq

/-- The component and the record `history` of the store `messages`. -/
structure Conv where
  record : Option (List Message)
  /-- The `messages` of the last commit. -/
  messages : Snapshot
  /-- State updates for the next render. -/
  updates : List Update
  /-- The persist effect of the last commit is still to run. -/
  effectDue : Bool
  loadedRef : Bool
  load : HistoryLoad
  /-- Writes under way, in the order in which they were started. -/
  puts : List Snapshot
  /-- What was written last. -/
  lastPut : Option Snapshot
  deriving Repr, DecidableEq

/-- The component mounted over a record: the load has been started, and the persist effect has run once,
    before the load was done. -/
def Conv.mount (stored : Option (List Message)) : Conv where
  record := stored
  messages := ⟨0, []⟩
  updates := []
  effectDue := false
  loadedRef := false
  load := .reading
  puts := []
  lastPut := none

/-! ## Steps -/

/-- What can happen next. -/
inductive ConvAct where
  /-- `pollOnce` has decrypted a message. -/
  | received (id body : String) (timestamp : Nat)
  /-- `sendEnvelope` of a `send` has returned. -/
  | sent (id body : String) (timestamp : Nat)
  /-- `gate.get` of the load returns. -/
  | loadRead
  /-- The rest of the load runs. -/
  | loadDone
  /-- The load throws: the store does not open, or the record cannot be read. -/
  | loadFailed
  | render
  | runEffect
  | putDone (i : Nat)
  | putFailed (i : Nat)
  deriving Repr, DecidableEq

/-- The message an action brings. -/
def ConvAct.message : ConvAct → Option Message
  | .received id body timestamp => some ⟨id, body, timestamp, false⟩
  | .sent id body timestamp => some ⟨id, body, timestamp, true⟩
  | _ => none

/-- The messages received and sent, in order. -/
def arrivals (acts : List ConvAct) : List Message := acts.filterMap ConvAct.message

/-- `setMessages`. -/
def Conv.setMessages (s : Conv) (u : Update) : Conv := { s with updates := s.updates ++ [u] }

/-- `gate.get`. -/
def Conv.loadRead (s : Conv) : Conv :=
  match s.load with
  | .reading => { s with load := .read s.record }
  | _ => s

/-- `if (stored) setMessages(stored); loadedRef.current = true`. -/
def Conv.loadDone (s : Conv) : Conv :=
  match s.load with
  | .read (some stored) => { s.setMessages (.setTo stored) with load := .ended, loadedRef := true }
  | .read none => { s with load := .ended, loadedRef := true }
  | _ => s

/-- The error is logged; `loadedRef` stays as it is.  (Nothing happens if the load has ended.) -/
def Conv.loadFailed (s : Conv) : Conv := { s with load := .ended }

/-- The persist effect. -/
def Conv.runEffect (s : Conv) : Conv :=
  if s.effectDue = false then s
  else if s.loadedRef = false then { s with effectDue := false }
  else { s with effectDue := false, puts := s.puts ++ [s.messages] }

/-- The list as the next render will see it. -/
def Conv.pending (s : Conv) : List Message := s.updates.foldl Update.apply s.messages.messages

/-- The updates are applied.  Without any, `messages` is the same array and no effect is due. -/
def Conv.commit (s : Conv) : Conv :=
  if s.updates = [] then s
  else
    { s with
      messages := ⟨s.messages.version + 1, s.pending⟩
      updates := []
      effectDue := true }

/-- A write reaches the store. -/
def Conv.putDone (s : Conv) (i : Nat) : Conv :=
  match s.puts[i]? with
  | none => s
  | some p =>
    { s with record := some p.messages, puts := s.puts.eraseIdx i, lastPut := some p }

/-- A write fails; the error is logged. -/
def Conv.putFailed (s : Conv) (i : Nat) : Conv := { s with puts := s.puts.eraseIdx i }

/-- One step.  React runs the effect of a commit before it renders again. -/
def Conv.step (s : Conv) : ConvAct → Conv
  | .received id body timestamp => s.setMessages (.add ⟨id, body, timestamp, false⟩)
  | .sent id body timestamp => s.setMessages (.add ⟨id, body, timestamp, true⟩)
  | .loadRead => s.loadRead
  | .loadDone => s.loadDone
  | .loadFailed => s.loadFailed
  | .render => s.runEffect.commit
  | .runEffect => s.runEffect
  | .putDone i => s.putDone i
  | .putFailed i => s.putFailed i

/-- No operation is pending. -/
def Conv.Idle (s : Conv) : Prop :=
  s.load = .ended ∧ s.updates = [] ∧ s.effectDue = false ∧ s.puts = []

/-- The list and the record hold what was stored and what arrived, each message once. -/
def Conv.HasAll (s : Conv) (stored : Option (List Message)) (arrived : List Message) : Prop :=
  s.messages.messages.Perm (stored.getD [] ++ arrived) ∧
    (s.record.getD []).Perm (stored.getD [] ++ arrived)

/-- `gate.get` has returned a record. -/
def HistoryLoad.found : HistoryLoad → Bool
  | .read (some _) => true
  | _ => false

/-- When a load that found a record is done, no message has arrived yet; and the load fails only if
    there is nothing to load. -/
def LoadsFirst (s : Conv) : ConvAct → Prop
  | .loadDone => s.load.found = true → s.messages.messages = [] ∧ s.updates = []
  | .loadFailed => s.load = .ended ∨ s.record.getD [] = []
  | _ => True

/-- The write that ended last is the one that the last change of the list started. -/
def Conv.LastChangeWrittenLast (s : Conv) : Prop :=
  s.lastPut.map Snapshot.version = some s.messages.version

/-! ## The list -/

variable {stored : Option (List Message)} {arrived : List Message} {s : Conv}

theorem arrivals_concat (acts : List ConvAct) (a : ConvAct) :
    arrivals (acts ++ [a]) = arrivals acts ++ a.message.toList := by
  rw [arrivals, List.filterMap_append]
  cases h : a.message with
  | none => simp [arrivals, h]
  | some msg => simp [arrivals, h]

theorem foldl_add (prev msgs : List Message) :
    (msgs.map Update.add).foldl Update.apply prev = prev ++ msgs := by
  induction msgs generalizing prev with
  | nil => simp
  | cons msg msgs ih => simp [Update.apply, ih]

/-- A queued update is seen by the next render, behind all that were queued before. -/
theorem Conv.pending_setMessages (s : Conv) (u : Update) :
    (s.setMessages u).pending = u.apply s.pending := by
  rw [Conv.pending, Conv.setMessages, List.foldl_append]
  rfl

/-- The persist effect starts a write; the list that the next render will show is as before. -/
theorem Conv.runEffect_frame (s : Conv) :
    s.runEffect.pending = s.pending ∧ s.runEffect.load = s.load := by
  rw [Conv.runEffect]
  split
  · exact ⟨rfl, rfl⟩
  · split
    · exact ⟨rfl, rfl⟩
    · exact ⟨rfl, rfl⟩

/-- A commit applies what was queued, so the list it leads to is the one that was pending. -/
theorem Conv.commit_frame (s : Conv) : s.commit.pending = s.pending ∧ s.commit.load = s.load := by
  rw [Conv.commit]
  split
  · exact ⟨rfl, rfl⟩
  · exact ⟨rfl, rfl⟩

theorem Conv.putDone_frame (s : Conv) (i : Nat) :
    (s.putDone i).pending = s.pending ∧ (s.putDone i).load = s.load := by
  rw [Conv.putDone]
  split
  · exact ⟨rfl, rfl⟩
  · exact ⟨rfl, rfl⟩

/-! ## Something is lost -/

/-- The load has ended, and the list is too short. -/
structure Conv.Lost (stored : Option (List Message)) (arrived : List Message) (s : Conv) : Prop where
  load : s.load = .ended
  short : s.pending.length < (stored.getD []).length + arrived.length

/-- A list that is too short stays too short: a message that arrives is one more to be held. -/
theorem Conv.Lost.add (h : s.Lost stored arrived) (msg : Message) :
    (s.setMessages (.add msg)).Lost stored (arrived ++ [msg]) where
  load := h.load
  short := by
    have hshort := h.short
    rw [Conv.pending_setMessages, Update.apply, List.length_append, List.length_append,
      List.length_singleton]
    omega

/-- A step that brings no message and leaves the list and the load alone. -/
theorem Conv.Lost.of_frame (h : s.Lost stored arrived) {s' : Conv}
    (hframe : s'.pending = s.pending ∧ s'.load = s.load) : s'.Lost stored (arrived ++ []) where
  load := hframe.2.trans h.load
  short := by
    rw [hframe.1, List.append_nil]
    exact h.short

/-- What is lost stays lost. -/
theorem Conv.Lost.step (h : s.Lost stored arrived) (a : ConvAct) :
    (s.step a).Lost stored (arrived ++ a.message.toList) := by
  cases a with
  | received id body timestamp => exact h.add _
  | sent id body timestamp => exact h.add _
  | loadRead =>
    have hstep : s.step .loadRead = s := by rw [Conv.step, Conv.loadRead, h.load]
    rw [hstep]
    exact h.of_frame ⟨rfl, rfl⟩
  | loadDone =>
    have hstep : s.step .loadDone = s := by rw [Conv.step, Conv.loadDone, h.load]
    rw [hstep]
    exact h.of_frame ⟨rfl, rfl⟩
  | loadFailed => exact h.of_frame ⟨rfl, h.load.symm⟩
  | render =>
    have hcommit := Conv.commit_frame s.runEffect
    have heffect := Conv.runEffect_frame s
    exact h.of_frame ⟨hcommit.1.trans heffect.1, hcommit.2.trans heffect.2⟩
  | runEffect => exact h.of_frame (Conv.runEffect_frame s)
  | putDone i => exact h.of_frame (Conv.putDone_frame s i)
  | putFailed i => exact h.of_frame ⟨rfl, rfl⟩

/-! ## Nothing is lost -/

/-- The list is `base` and the first messages that arrived; the others are queued. -/
def Conv.Growing (base arrived : List Message) (s : Conv) : Prop :=
  ∃ shown waiting, arrived = shown ++ waiting ∧ s.messages.messages = base ++ shown ∧
    s.updates = waiting.map Update.add

/-- The load has just replaced an empty list, before any message arrived. -/
structure Conv.Replacing (base arrived : List Message) (s : Conv) : Prop where
  updates : s.updates = .setTo base :: arrived.map Update.add
  puts : s.puts = []
  lastPut : s.lastPut = none
  effectDue : s.effectDue = false

/-- A list that was written, or is being written, is the one on the screen, or an older one and shorter;
    it has everything that was stored and the first messages that arrived. -/
structure Snapshot.Good (p : Snapshot) (stored : Option (List Message)) (arrived : List Message)
    (now : Snapshot) : Prop where
  age : p = now ∨ (p.version < now.version ∧ p.messages.length < now.messages.length)
  content : ∃ shown, shown <+: arrived ∧ p.messages = stored.getD [] ++ shown

/-- Nothing is lost so far. -/
structure Conv.Complete (stored : Option (List Message)) (arrived : List Message) (s : Conv) : Prop where
  before : s.loadedRef = false → s.Growing [] arrived ∧ s.record = stored ∧ s.puts = [] ∧
    s.lastPut = none ∧ (s.effectDue = true → s.messages.messages ≠ [])
  after : s.loadedRef = true → s.load = .ended ∧
    (s.Growing (stored.getD []) arrived ∨ s.Replacing (stored.getD []) arrived)
  failed : s.loadedRef = false → s.load = .ended → stored.getD [] = []
  read : ∀ r, s.load = .read r → r = stored
  record : s.record = (s.lastPut.map Snapshot.messages).or stored
  puts : ∀ p ∈ s.puts, p.Good stored arrived s.messages
  lastPut : ∀ p, s.lastPut = some p → p.Good stored arrived s.messages

/-- An array holds the first of the messages that have arrived, and still does when one more comes. -/
theorem Snapshot.Good.arrive {p now : Snapshot} (h : p.Good stored arrived now) (msg : Message) :
    p.Good stored (arrived ++ [msg]) now where
  age := h.age
  content := by
    obtain ⟨shown, hshown, hp⟩ := h.content
    exact ⟨shown, hshown.trans (List.prefix_append arrived [msg]), hp⟩

/-- The list on the screen is replaced by a longer one. -/
theorem Snapshot.Good.newer {p now now' : Snapshot} (h : p.Good stored arrived now)
    (hversion : now.version < now'.version) (hlength : now.messages.length < now'.messages.length) :
    p.Good stored arrived now' where
  age := by
    rcases h.age with rfl | ⟨hv, hl⟩
    · exact .inr ⟨hversion, hlength⟩
    · exact .inr ⟨Nat.lt_trans hv hversion, Nat.lt_trans hl hlength⟩
  content := h.content

theorem Conv.Growing.add {base : List Message} (h : s.Growing base arrived) (msg : Message) :
    (s.setMessages (.add msg)).Growing base (arrived ++ [msg]) := by
  obtain ⟨shown, waiting, rfl, hmessages, hupdates⟩ := h
  refine ⟨shown, waiting ++ [msg], List.append_assoc .., hmessages, ?_⟩
  rw [Conv.setMessages, hupdates, List.map_append]
  rfl

/-- The next render shows the base and all that arrived, in order. -/
theorem Conv.Growing.pending {base : List Message} (h : s.Growing base arrived) :
    s.pending = base ++ arrived := by
  obtain ⟨shown, waiting, rfl, hmessages, hupdates⟩ := h
  rw [Conv.pending, hmessages, hupdates, foldl_add, List.append_assoc]

/-- So it does where the load has just replaced an empty list. -/
theorem Conv.Replacing.pending {base : List Message} (h : s.Replacing base arrived) :
    s.pending = base ++ arrived := by
  rw [Conv.pending, h.updates, List.foldl_cons, Update.apply, foldl_add]

/-- Queued messages make the list longer. -/
theorem Conv.Growing.length_lt {base : List Message} (h : s.Growing base arrived)
    (hupdates : s.updates ≠ []) : s.messages.messages.length < s.pending.length := by
  rw [h.pending]
  obtain ⟨shown, waiting, rfl, hmessages, hwaiting⟩ := h
  have hne : waiting ≠ [] := by
    rintro rfl
    exact hupdates hwaiting
  have hpos := List.length_pos_iff.mpr hne
  rw [hmessages, List.length_append, List.length_append, List.length_append]
  omega

/-- With nothing on the screen and nothing queued, nothing has arrived. -/
theorem Conv.Growing.untouched (h : s.Growing [] arrived) :
    (s.messages.messages = [] ∧ s.updates = []) ↔ arrived = [] := by
  obtain ⟨shown, waiting, rfl, hmessages, hupdates⟩ := h
  rw [hmessages, hupdates]
  simp

theorem Conv.Complete.mount (stored : Option (List Message)) :
    (Conv.mount stored).Complete stored [] where
  before := fun _ => ⟨⟨[], [], rfl, rfl, rfl⟩, rfl, rfl, rfl, fun h => (by cases h)⟩
  after := fun h => (by cases h)
  failed := fun _ h => (by cases h)
  read := fun _ h => (by cases h)
  record := rfl
  puts := fun _ h => (by cases h)
  lastPut := fun _ h => (by cases h)

/-- A message that arrives is appended to what the load has left or will find; this is where a load that ends later
    would lose it. -/
theorem Conv.Complete.add (h : s.Complete stored arrived) (msg : Message) :
    (s.setMessages (.add msg)).Complete stored (arrived ++ [msg]) where
  before := fun hloaded => by
    obtain ⟨hgrowing, hrest⟩ := h.before hloaded
    exact ⟨hgrowing.add msg, hrest⟩
  after := fun hloaded => by
    obtain ⟨hload, hgrowing | hreplacing⟩ := h.after hloaded
    · exact ⟨hload, .inl (hgrowing.add msg)⟩
    · refine ⟨hload, .inr { hreplacing with updates := ?_ }⟩
      rw [Conv.setMessages, hreplacing.updates, List.map_append]
      rfl
  failed := h.failed
  read := h.read
  record := h.record
  puts := fun p hp => (h.puts p hp).arrive msg
  lastPut := fun p hp => (h.lastPut p hp).arrive msg

/-- Until the load has ended, `loadedRef` is not set. -/
theorem Conv.Complete.not_loaded (h : s.Complete stored arrived) (hload : s.load ≠ .ended) :
    s.loadedRef = false := by
  cases hloaded : s.loadedRef with
  | false => rfl
  | true => exact absurd (h.after hloaded).1 hload

theorem Conv.Complete.loadRead (h : s.Complete stored arrived) : s.loadRead.Complete stored arrived := by
  rw [Conv.loadRead]
  split
  · rename_i hload
    have hloaded : s.loadedRef = false := h.not_loaded (by rw [hload]; decide)
    obtain ⟨-, hrecord, -⟩ := h.before hloaded
    exact { h with
      after := fun hloaded' => absurd (hloaded'.symm.trans hloaded) (by decide)
      failed := fun _ hended => (by cases hended)
      read := fun r hr => by
        cases hr
        exact hrecord }
  · exact h

/-- The effect writes the list on the screen, and only once the load has ended. -/
theorem Conv.Complete.runEffect (h : s.Complete stored arrived) :
    s.runEffect.Complete stored arrived := by
  rw [Conv.runEffect]
  split
  · exact h
  · rename_i hdue
    split
    · rename_i hloaded
      obtain ⟨hgrowing, hrecord, hputs, hlast, -⟩ := h.before hloaded
      exact { h with
        before := fun _ => ⟨hgrowing, hrecord, hputs, hlast, fun hdue' => (by cases hdue')⟩
        after := fun hloaded' => absurd (hloaded'.symm.trans hloaded) (by decide) }
    · rename_i hloaded
      obtain ⟨hload, hgrowing | hreplacing⟩ := h.after (Bool.not_eq_false _ ▸ hloaded)
      · obtain ⟨shown, waiting, harrived, hmessages, hupdates⟩ := hgrowing
        exact { h with
          before := fun hloaded' => absurd hloaded' hloaded
          after := fun _ => ⟨hload, .inl ⟨shown, waiting, harrived, hmessages, hupdates⟩⟩
          puts := fun p hp => by
            rcases List.mem_append.mp hp with hp | hp
            · exact h.puts p hp
            · rw [List.mem_singleton.mp hp]
              exact ⟨.inl rfl, shown, harrived ▸ List.prefix_append shown waiting, hmessages⟩ }
      · exact absurd hreplacing.effectDue hdue

/-- Once a write has been started, every commit makes the list longer. -/
theorem Conv.Complete.length_lt (h : s.Complete stored arrived) (hupdates : s.updates ≠ [])
    {p : Snapshot} (hp : p ∈ s.puts ∨ s.lastPut = some p) :
    s.messages.messages.length < s.pending.length := by
  cases hloaded : s.loadedRef with
  | false =>
    obtain ⟨-, -, hputs, hlast, -⟩ := h.before hloaded
    rw [hputs, hlast] at hp
    rcases hp with hp | hp <;> cases hp
  | true =>
    obtain ⟨-, hgrowing | hreplacing⟩ := h.after hloaded
    · exact hgrowing.length_lt hupdates
    · rw [hreplacing.puts, hreplacing.lastPut] at hp
      rcases hp with hp | hp <;> cases hp

/-- The list on the screen is now the one that was pending, and its write is due. -/
theorem Conv.Complete.commit (h : s.Complete stored arrived) : s.commit.Complete stored arrived := by
  rw [Conv.commit]
  split
  · exact h
  · rename_i hupdates
    refine { h with before := ?_, after := ?_, puts := ?_, lastPut := ?_ }
    · intro hloaded
      obtain ⟨hgrowing, hrecord, hputs, hlast, -⟩ := h.before hloaded
      have hlonger := hgrowing.length_lt hupdates
      refine ⟨⟨arrived, [], (List.append_nil _).symm, hgrowing.pending, rfl⟩, hrecord, hputs, hlast, ?_⟩
      intro _ hnil
      rw [show s.pending = [] from hnil] at hlonger
      exact absurd hlonger (Nat.not_lt_zero _)
    · intro hloaded
      obtain ⟨hload, hcase⟩ := h.after hloaded
      have hpending : s.pending = stored.getD [] ++ arrived := by
        rcases hcase with hgrowing | hreplacing
        · exact hgrowing.pending
        · exact hreplacing.pending
      exact ⟨hload, .inl ⟨arrived, [], (List.append_nil _).symm, hpending, rfl⟩⟩
    · intro p hp
      exact (h.puts p hp).newer (Nat.lt_succ_self _) (h.length_lt hupdates (.inl hp))
    · intro p hp
      exact (h.lastPut p hp).newer (Nat.lt_succ_self _) (h.length_lt hupdates (.inr hp))

/-- A write that has ended, or failed, is not under way any more. -/
theorem Conv.Complete.putFailed (h : s.Complete stored arrived) (i : Nat) :
    (s.putFailed i).Complete stored arrived := by
  refine { h with before := ?_, after := ?_, puts := ?_ }
  · intro hloaded
    obtain ⟨hgrowing, hrecord, hputs, hlast⟩ := h.before hloaded
    refine ⟨hgrowing, hrecord, ?_, hlast⟩
    rw [Conv.putFailed, hputs]
    rfl
  · intro hloaded
    obtain ⟨hload, hgrowing | hreplacing⟩ := h.after hloaded
    · exact ⟨hload, .inl hgrowing⟩
    · refine ⟨hload, .inr { hreplacing with puts := ?_ }⟩
      rw [Conv.putFailed, hreplacing.puts]
      rfl
  · intro p hp
    exact h.puts p (List.mem_of_mem_eraseIdx hp)

/-- The array that reaches the record is complete, or an older one that a write under way will replace. -/
theorem Conv.Complete.putDone (h : s.Complete stored arrived) (i : Nat) :
    (s.putDone i).Complete stored arrived := by
  rw [Conv.putDone]
  split
  · exact h
  · rename_i p hp
    have hmem := List.mem_of_getElem? hp
    refine { h.putFailed i with before := ?_, after := ?_, record := rfl, lastPut := ?_ }
    · intro hloaded
      obtain ⟨-, -, hputs, -⟩ := h.before hloaded
      rw [hputs] at hmem
      cases hmem
    · intro hloaded
      obtain ⟨hload, hgrowing | hreplacing⟩ := h.after hloaded
      · exact ⟨hload, .inl hgrowing⟩
      · rw [hreplacing.puts] at hmem
        cases hmem
    · intro q hq
      cases hq
      exact h.puts p hmem

/-- The load replaces an empty list. -/
theorem Conv.Complete.replace {l : List Message} (h : s.Complete (some l) [])
    (hload : s.load = .read (some l)) :
    ({ s.setMessages (.setTo l) with load := .ended, loadedRef := true } : Conv).Complete (some l) [] := by
  have hloaded : s.loadedRef = false := h.not_loaded (by rw [hload]; exact HistoryLoad.noConfusion)
  obtain ⟨hgrowing, -, hputs, hlast, hdue⟩ := h.before hloaded
  obtain ⟨hmessages, hupdates⟩ := hgrowing.untouched.mpr rfl
  refine { h with before := ?_, after := ?_, failed := ?_, read := ?_ }
  · exact fun hnot => (by cases hnot)
  · refine fun _ => ⟨rfl, .inr ⟨?_, hputs, hlast, ?_⟩⟩
    · rw [Conv.setMessages, hupdates]
      rfl
    · exact Bool.eq_false_iff.mpr fun hdue' => hdue hdue' hmessages
  · exact fun hnot => (by cases hnot)
  · exact fun _ hr => (by cases hr)

/-- **The end of the load.**  A list without messages is replaced without loss; any other is lost. -/
theorem Conv.Complete.loadDone (h : s.Complete stored arrived) :
    (LoadsFirst s .loadDone → s.loadDone.Complete stored arrived) ∧
      (¬ LoadsFirst s .loadDone → s.loadDone.Lost stored arrived) := by
  rw [LoadsFirst, Conv.loadDone]
  cases hload : s.load with
  | reading => exact ⟨fun _ => h, fun hnot => absurd (fun hfound => by cases hfound) hnot⟩
  | ended => exact ⟨fun _ => h, fun hnot => absurd (fun hfound => by cases hfound) hnot⟩
  | read r =>
    have hloaded : s.loadedRef = false := h.not_loaded (by rw [hload]; exact HistoryLoad.noConfusion)
    obtain ⟨hgrowing, -⟩ := h.before hloaded
    have hstored := h.read r hload
    subst hstored
    cases r with
    | none =>
      refine ⟨fun _ => ?_, fun hnot => absurd (fun hfound => by cases hfound) hnot⟩
      exact { h with
        before := fun hnot => (by cases hnot)
        after := fun _ => ⟨rfl, .inl hgrowing⟩
        failed := fun hnot => (by cases hnot)
        read := fun _ hr => (by cases hr) }
    | some l =>
      rw [hgrowing.untouched]
      constructor
      · intro hok
        have hnil := hok rfl
        subst hnil
        exact h.replace hload
      · intro hnot
        have hne : arrived ≠ [] := fun hnil => hnot fun _ => hnil
        have hpos := List.length_pos_iff.mpr hne
        refine ⟨rfl, ?_⟩
        show (s.setMessages (.setTo l)).pending.length < l.length + arrived.length
        rw [Conv.pending_setMessages, Update.apply]
        omega

/-- A load that fails loses what is stored. -/
theorem Conv.Complete.loadFailed (h : s.Complete stored arrived) :
    (LoadsFirst s .loadFailed → s.loadFailed.Complete stored arrived) ∧
      (¬ LoadsFirst s .loadFailed → s.loadFailed.Lost stored arrived) := by
  constructor
  · intro hok
    exact { h with
      after := fun hloaded => by
        obtain ⟨-, hgrowing | hreplacing⟩ := h.after hloaded
        · exact ⟨rfl, .inl hgrowing⟩
        · exact ⟨rfl, .inr { hreplacing with }⟩
      failed := fun hloaded _ => by
        rcases hok with hended | hnil
        · exact h.failed hloaded hended
        · obtain ⟨-, hrecord, -⟩ := h.before hloaded
          rwa [hrecord] at hnil
      read := fun _ hr => (by cases hr) }
  · intro hnot
    obtain ⟨hload, hne⟩ := not_or.mp hnot
    obtain ⟨hgrowing, hrecord, -⟩ := h.before (h.not_loaded hload)
    rw [hrecord] at hne
    have hpos := List.length_pos_iff.mpr hne
    refine ⟨rfl, ?_⟩
    rw [show s.loadFailed.pending = arrived from hgrowing.pending]
    omega

/-- **One step**: nothing is lost if the step meets the condition, and something is if not. -/
theorem Conv.Complete.step (h : s.Complete stored arrived) (a : ConvAct) :
    (LoadsFirst s a → (s.step a).Complete stored (arrived ++ a.message.toList)) ∧
      (¬ LoadsFirst s a → (s.step a).Lost stored (arrived ++ a.message.toList)) := by
  cases a with
  | received id body timestamp => exact ⟨fun _ => h.add _, fun hnot => absurd trivial hnot⟩
  | sent id body timestamp => exact ⟨fun _ => h.add _, fun hnot => absurd trivial hnot⟩
  | loadDone => exact (List.append_nil arrived).symm ▸ h.loadDone
  | loadFailed => exact (List.append_nil arrived).symm ▸ h.loadFailed
  | loadRead =>
    exact ⟨fun _ => (List.append_nil arrived).symm ▸ h.loadRead, fun hnot => absurd trivial hnot⟩
  | render =>
    exact ⟨fun _ => (List.append_nil arrived).symm ▸ h.runEffect.commit,
      fun hnot => absurd trivial hnot⟩
  | runEffect =>
    exact ⟨fun _ => (List.append_nil arrived).symm ▸ h.runEffect, fun hnot => absurd trivial hnot⟩
  | putDone i =>
    exact ⟨fun _ => (List.append_nil arrived).symm ▸ h.putDone i, fun hnot => absurd trivial hnot⟩
  | putFailed i =>
    exact ⟨fun _ => (List.append_nil arrived).symm ▸ h.putFailed i, fun hnot => absurd trivial hnot⟩

/-- A run: nothing is lost if all its steps meet the condition, and something is if one does not. -/
theorem complete_or_lost (stored : Option (List Message)) (acts : List ConvAct) :
    (Meets Conv.step LoadsFirst (.mount stored) acts ∧
        (run Conv.step (.mount stored) acts).Complete stored (arrivals acts)) ∨
      (¬ Meets Conv.step LoadsFirst (.mount stored) acts ∧
        (run Conv.step (.mount stored) acts).Lost stored (arrivals acts)) := by
  induction acts using List.reverseRecOn with
  | nil => exact .inl ⟨trivial, .mount stored⟩
  | append_singleton acts a ih =>
    rw [meets_concat, run_concat, arrivals_concat]
    rcases ih with ⟨hmeets, hcomplete⟩ | ⟨hmeets, hlost⟩
    · by_cases hok : LoadsFirst (run Conv.step (.mount stored) acts) a
      · exact .inl ⟨⟨hmeets, hok⟩, (hcomplete.step a).1 hok⟩
      · exact .inr ⟨fun hboth => hok hboth.2, (hcomplete.step a).2 hok⟩
    · exact .inr ⟨fun hboth => hmeets hboth.1, hlost.step a⟩

/-! ## Once nothing is pending -/

/-- What the list and the record hold when nothing is lost and nothing is pending. -/
theorem Conv.Complete.idle (h : s.Complete stored arrived) (hidle : s.Idle) :
    s.messages.messages = stored.getD [] ++ arrived := by
  obtain ⟨hload, hupdates, -, -⟩ := hidle
  have hpending : s.pending = s.messages.messages := by
    rw [Conv.pending, hupdates]
    rfl
  rw [← hpending]
  cases hloaded : s.loadedRef with
  | false =>
    rw [h.failed hloaded hload]
    exact (h.before hloaded).1.pending
  | true =>
    obtain ⟨-, hgrowing | hreplacing⟩ := h.after hloaded
    · exact hgrowing.pending
    · exact hreplacing.pending

/-- The record is complete exactly if no message arrived, or the last write carries the last change. -/
theorem Conv.Complete.record_perm_iff (h : s.Complete stored arrived) (hidle : s.Idle) :
    (s.record.getD []).Perm (stored.getD [] ++ arrived) ↔
      arrived = [] ∨ s.LastChangeWrittenLast := by
  have hmessages := h.idle hidle
  rw [Conv.LastChangeWrittenLast, h.record]
  cases hlast : s.lastPut with
  | none =>
    constructor
    · intro hperm
      have hlength := hperm.length_eq
      rw [List.length_append] at hlength
      refine .inl (List.length_eq_zero_iff.mp ?_)
      simp only [Option.map_none, Option.none_or] at hlength
      omega
    · rintro (rfl | hnone)
      · rw [List.append_nil]
        exact List.Perm.refl _
      · cases hnone
  | some p =>
    have hgood := h.lastPut p hlast
    constructor
    · intro hperm
      rcases hgood.age with rfl | ⟨-, hshort⟩
      · exact .inr rfl
      · -- an older list is too short
        have hlength : p.messages.length = _ := hperm.length_eq
        rw [hmessages, hlength] at hshort
        exact absurd hshort (Nat.lt_irrefl _)
    · rintro (rfl | hversion)
      · obtain ⟨shown, hshown, hp⟩ := hgood.content
        rw [List.prefix_nil.mp hshown] at hp
        exact List.Perm.of_eq hp
      · rcases hgood.age with rfl | ⟨holder, -⟩
        · exact List.Perm.of_eq hmessages
        · exact absurd (Option.some.inj hversion) (Nat.ne_of_lt holder)

/-- **When the history is complete.**  For every record the component is mounted over and every
    interleaving of the load, the messages received and sent, the renders and the writes, once nothing
    is pending: the list and the record hold every message stored before and every message that arrived,
    each once, IF AND ONLY IF a load that found a record was done before the first message arrived (and
    none failed that had something to load), and, if messages arrived, the write that ended last is the
    one the last change started. -/
theorem history_kept_iff (stored : Option (List Message)) (acts : List ConvAct)
    (hidle : (run Conv.step (.mount stored) acts).Idle) :
    (run Conv.step (.mount stored) acts).HasAll stored (arrivals acts) ↔
      Meets Conv.step LoadsFirst (.mount stored) acts ∧
        (arrivals acts = [] ∨ (run Conv.step (.mount stored) acts).LastChangeWrittenLast) := by
  rw [Conv.HasAll]
  rcases complete_or_lost stored acts with ⟨hmeets, hcomplete⟩ | ⟨hmeets, hlost⟩
  · rw [hcomplete.record_perm_iff hidle]
    have hlist := List.Perm.of_eq (hcomplete.idle hidle)
    exact ⟨fun hall => ⟨hmeets, hall.2⟩, fun hcond => ⟨hlist, hcond.2⟩⟩
  · refine ⟨fun hall => ?_, fun hcond => absurd hcond.1 hmeets⟩
    have hshort := hlost.short
    have hlength := hall.1.length_eq
    rw [Conv.pending, hidle.2.1, List.foldl_nil, hlength, List.length_append] at hshort
    exact absurd hshort (Nat.lt_irrefl _)

instance (s : Conv) : Decidable s.Idle :=
  inferInstanceAs (Decidable (s.load = .ended ∧ s.updates = [] ∧ s.effectDue = false ∧ s.puts = []))

instance (s : Conv) (stored : Option (List Message)) (arrived : List Message) :
    Decidable (s.HasAll stored arrived) :=
  inferInstanceAs (Decidable (_ ∧ _))

instance (s : Conv) : (a : ConvAct) → Decidable (LoadsFirst s a)
  | .loadDone =>
    inferInstanceAs (Decidable (s.load.found = true → s.messages.messages = [] ∧ s.updates = []))
  | .loadFailed => inferInstanceAs (Decidable (s.load = .ended ∨ s.record.getD [] = []))
  | .received _ _ _ => .isTrue trivial
  | .sent _ _ _ => .isTrue trivial
  | .loadRead => .isTrue trivial
  | .render => .isTrue trivial
  | .runEffect => .isTrue trivial
  | .putDone _ => .isTrue trivial
  | .putFailed _ => .isTrue trivial

instance (s : Conv) : Decidable s.LastChangeWrittenLast :=
  inferInstanceAs (Decidable (_ = _))

/-- A history of one message. -/
def oneMessage : Option (List Message) := some [⟨"m0", "hello", 1, true⟩]

/-- The load first, then a message received and one sent, the writes in order. -/
def loadThenTalk : List ConvAct :=
  [.loadRead, .loadDone, .render, .received "m1" "hi" 2, .render, .sent "m2" "how are you" 3, .render,
    .runEffect, .putDone 0, .putDone 0, .putDone 0]

/-- Loaded first, then talked, the writes in order: everything is there. -/
theorem loadThenTalk_kept :
    (run Conv.step (.mount oneMessage) loadThenTalk).HasAll oneMessage (arrivals loadThenTalk) :=
  (history_kept_iff _ _ (by decide +kernel)).mpr ⟨by decide +kernel, .inr (by decide +kernel)⟩

/-- A message is received while the history is read. -/
def talkBeforeLoad : List ConvAct :=
  [.loadRead, .received "m1" "hi" 2, .render, .runEffect, .loadDone, .render, .runEffect, .putDone 0]

/-- The write of the loaded history ends after the write with a new message. -/
def overtakenWrite : List ConvAct :=
  [.loadRead, .loadDone, .render, .runEffect, .received "m1" "hi" 2, .render, .runEffect, .putDone 1,
    .putDone 0]

/-- Two runs that end with nothing pending and a message missing: one arrived before the load had ended; of one the
    write was overtaken. -/
theorem history_lost :
    ((run Conv.step (.mount oneMessage) talkBeforeLoad).Idle ∧
      ¬ (run Conv.step (.mount oneMessage) talkBeforeLoad).HasAll oneMessage
        (arrivals talkBeforeLoad)) ∧
    ((run Conv.step (.mount oneMessage) overtakenWrite).Idle ∧
      ¬ (run Conv.step (.mount oneMessage) overtakenWrite).HasAll oneMessage
        (arrivals overtakenWrite)) := by
  decide +kernel

end E2EMessaging.Web
