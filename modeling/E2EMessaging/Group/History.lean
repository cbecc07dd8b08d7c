/-
  HISTORIES OF GROUP SESSIONS: any number of sessions, created, derived from one another and used
  in any order — and the AES-256-GCM (key, nonce) pairs they use.

  A `World` holds every session handle that exists.  The Rust API moves a session through
  `add_member`/`remove_member`/`rotate_sender_key` (the handle now stands for the result); the wasm
  bindings `group_add_member`/`group_remove_member` CLONE first and return a new handle, so the old
  one stays usable with the chain key it had.  `group_create` — also when the web client restores a
  persisted group — is `GroupSession::new`, whose chain key is a function of the sender's public key.

  Each handle carries its `Line` along as a ghost (never read by the code).  The invariant
  `World.Tracks` says the ghost is right; with `Line.chainKey_injective` it turns a question about
  keys into one about lines:

  * `pairs_distinct_iff` — no two messages of a history share a (key, nonce) pair EXACTLY if no
    message is sent from a line some earlier message was already sent from.  Two sessions are on
    one line if both stem from `new` for one sender, or one was cloned from the other, with no
    rotation since, and both have ratcheted equally often: then the second to send reuses the pair.
-/
import E2EMessaging.Lib.Run
import E2EMessaging.Group.Symbolic

namespace E2EMessaging.Group

open E2EMessaging.Lib

/-! ## Sessions with their lines -/

/-- A session handle, with its line. -/
structure Tracked where
  session : GroupSession Term
  line : Line
  deriving Repr, DecidableEq

namespace Tracked

/-- `GroupSession::new`. -/
def new (sender : Term) : Tracked := ⟨.new symbolic sender, ⟨.created sender, 0⟩⟩

/-- `add_member`: the chain key stays, so does the line. -/
def addMember (t : Tracked) (m : Term) : Tracked := ⟨t.session.addMember m, t.line⟩

/-- `remove_member`: a new line starts at the draw. -/
def removeMember (t : Tracked) (m : Term) (rng : Nat) : Tracked :=
  ⟨(t.session.removeMember symbolic m rng).1, ⟨.drawn rng, 0⟩⟩

/-- `rotate_sender_key`: a new line starts at the draw. -/
def rotateSenderKey (t : Tracked) (rng : Nat) : Tracked :=
  ⟨(t.session.rotateSenderKey symbolic rng).1, ⟨.drawn rng, 0⟩⟩

/-- `encrypt_as`: unless the roster is too large, one step along the line. -/
def encryptAs (t : Tracked) (p : Term) (rng : Nat) : Tracked :=
  ⟨(t.session.encryptFrame symbolic p rng).1,
    if maxMembers < t.session.members.length then t.line else t.line.next⟩

/-- Sending does not leave the line: only a new chain key starts another. -/
theorem encryptAs_origin (t : Tracked) (p : Term) (rng : Nat) :
    (t.encryptAs p rng).line.origin = t.line.origin := by
  show (if maxMembers < t.session.members.length then t.line else t.line.next).origin = _
  split <;> rfl

theorem encryptAs_depth (t : Tracked) (p : Term) (rng : Nat) :
    t.line.depth ≤ (t.encryptAs p rng).line.depth := by
  show _ ≤ (if maxMembers < t.session.members.length then t.line else t.line.next).depth
  split
  · exact Nat.le_refl _
  · exact Nat.le_succ _

/-- The ghost is right. -/
def Tracks (t : Tracked) : Prop := t.session.chainKey = t.line.chainKey

/-- A session just made is at the start of the line of its sender's public key. -/
theorem tracks_new (sender : Term) : (new sender).Tracks := rfl

theorem Tracks.addMember {t : Tracked} (h : t.Tracks) (m : Term) : (t.addMember m).Tracks := h

theorem tracks_removeMember (t : Tracked) (m : Term) (rng : Nat) :
    (t.removeMember m rng).Tracks := rfl

theorem tracks_rotateSenderKey (t : Tracked) (rng : Nat) : (t.rotateSenderKey rng).Tracks := rfl

/-- After a message the chain key is the next one of the line. -/
theorem Tracks.encryptAs {t : Tracked} (h : t.Tracks) (p : Term) (rng : Nat) :
    (t.encryptAs p rng).Tracks := by
  rw [Tracks, Tracked.encryptAs, encryptFrame_session]
  dsimp only
  split
  · exact h
  · rw [Line.chainKey_next, ← h]

end Tracked

/-! ## Histories -/

/-- A message some `encrypt_as` returned: the line it was sent from, the roster and the plaintext
    of the call, the AES key and nonce it used, the frame. -/
structure Sent where
  line : Line
  roster : List Term
  plaintext : Term
  key : Term
  nonce : Term
  frame : Frame Term
  deriving Repr, DecidableEq

/-- Every session that exists, the draws made, the messages sent. -/
structure World where
  sessions : List Tracked
  rng : Nat
  sent : List Sent
  deriving Repr, DecidableEq

/-- The operations on the handles of a world. -/
inductive GroupOp where
  /-- `GroupSession::new`, `group_create`. -/
  | new (sender : Term)
  /-- `add_member`, the handle moved. -/
  | addMember (h : Nat) (member : Term)
  /-- `remove_member`, the handle moved. -/
  | removeMember (h : Nat) (member : Term)
  /-- `rotate_sender_key`, the handle moved. -/
  | rotateSenderKey (h : Nat)
  /-- `group_add_member`: clone, then `add_member`; a new handle. -/
  | groupAddMember (h : Nat) (member : Term)
  /-- `group_remove_member`: clone, then `remove_member`; a new handle. -/
  | groupRemoveMember (h : Nat) (member : Term)
  /-- `encrypt_as`, `group_encrypt`. -/
  | encryptAs (h : Nat) (plaintext : Term)
  deriving Repr, DecidableEq

namespace World

/-- No session yet. -/
def empty : World := ⟨[], 0, []⟩

/-- The message an `encrypt_as` call on `t` sends, if the call succeeds. -/
def message (t : Tracked) (p : Term) (rng : Nat) : Option Sent :=
  match (t.session.encryptFrame symbolic p rng).2.2 with
  | .error _ => none
  | .ok f =>
    some ⟨t.line, t.session.members, p, msgKey symbolic t.session.chainKey,
      msgNonce symbolic t.session.chainKey, f⟩

/-- The handle `h` now stands for `t`. -/
def put (w : World) (h : Nat) (t : Tracked) : World := { w with sessions := w.sessions.set h t }

/-- A new handle for `t`. -/
def push (w : World) (t : Tracked) : World := { w with sessions := w.sessions ++ [t] }

/-- The world after `n` draws. -/
def drawn (w : World) (n : Nat) : World := { w with rng := n }

/-- Act on the session of a handle; a handle that does not exist makes it a no-op. -/
def onHandle (w : World) (h : Nat) (act : Tracked → World) : World :=
  match w.sessions[h]? with
  | none => w
  | some t => act t

/-- One operation. -/
def step (w : World) : GroupOp → World
  | .new sender => w.push (.new sender)
  | .addMember h m => w.onHandle h fun t => w.put h (t.addMember m)
  | .removeMember h m =>
    w.onHandle h fun t => (w.put h (t.removeMember m w.rng)).drawn (w.rng + 1)
  | .rotateSenderKey h =>
    w.onHandle h fun t => (w.put h (t.rotateSenderKey w.rng)).drawn (w.rng + 1)
  | .groupAddMember h m => w.onHandle h fun t => w.push (t.addMember m)
  | .groupRemoveMember h m =>
    w.onHandle h fun t => (w.push (t.removeMember m w.rng)).drawn (w.rng + 1)
  | .encryptAs h p =>
    w.onHandle h fun t =>
      { (w.put h (t.encryptAs p w.rng)).drawn (t.session.encryptFrame symbolic p w.rng).2.1 with
        sent := w.sent ++ (message t p w.rng).toList }

/-! ## What one operation can do -/

/-- An operation acts on the session of its handle, or does nothing. -/
theorem onHandle_cases (w : World) (h : Nat) (act : Tracked → World) :
    w.onHandle h act = w ∨ ∃ t, w.sessions[h]? = some t ∧ w.onHandle h act = act t := by
  rw [onHandle]
  cases ht : w.sessions[h]? with
  | none => exact .inl rfl
  | some t => exact .inr ⟨t, rfl, rfl⟩

/-- What a session can be made of in one operation. -/
inductive MadeFrom (w : World) (op : GroupOp) : Tracked → Prop where
  | new {sender : Term} (hop : op = .new sender) : MadeFrom w op (.new sender)
  | addMember {t : Tracked} (ht : t ∈ w.sessions) (m : Term) : MadeFrom w op (t.addMember m)
  | removeMember {t : Tracked} (ht : t ∈ w.sessions) (m : Term) :
      MadeFrom w op (t.removeMember m w.rng)
  | rotateSenderKey {t : Tracked} (ht : t ∈ w.sessions) : MadeFrom w op (t.rotateSenderKey w.rng)
  | encryptAs {t : Tracked} (ht : t ∈ w.sessions) (p : Term) : MadeFrom w op (t.encryptAs p w.rng)

theorem mem_put {w : World} {h : Nat} {t t' : Tracked} (hm : t' ∈ (w.put h t).sessions) :
    t' ∈ w.sessions ∨ t' = t := List.mem_or_eq_of_mem_set hm

theorem mem_push {w : World} {t t' : Tracked} (hm : t' ∈ (w.push t).sessions) :
    t' ∈ w.sessions ∨ t' = t := by
  simpa [push] using hm

/-- Each session after an operation was there before, or was made from one that was. -/
theorem mem_step_sessions {w : World} {op : GroupOp} {t' : Tracked}
    (hm : t' ∈ (w.step op).sessions) : t' ∈ w.sessions ∨ MadeFrom w op t' := by
  -- on a handle, `put` and `push` add one session, whatever happens to the rest of the world
  have key : ∀ (h : Nat) (act : Tracked → World), t' ∈ (w.onHandle h act).sessions →
      (∀ t ∈ w.sessions, t' ∈ (act t).sessions → t' ∈ w.sessions ∨ MadeFrom w op t') →
      t' ∈ w.sessions ∨ MadeFrom w op t' := by
    intro h act hin hact
    rcases w.onHandle_cases h act with he | ⟨t, ht, he⟩
    · rw [he] at hin
      exact .inl hin
    · rw [he] at hin
      exact hact t (List.mem_of_getElem? ht) hin
  cases op with
  | new sender =>
    rcases mem_push hm with hold | rfl
    · exact .inl hold
    · exact .inr (.new rfl)
  | addMember h m =>
    refine key h _ hm ?_
    intro t ht hin
    rcases mem_put hin with hold | rfl
    · exact .inl hold
    · exact .inr (.addMember ht m)
  | removeMember h m =>
    refine key h _ hm ?_
    intro t ht hin
    rcases mem_put hin with hold | rfl
    · exact .inl hold
    · exact .inr (.removeMember ht m)
  | rotateSenderKey h =>
    refine key h _ hm ?_
    intro t ht hin
    rcases mem_put hin with hold | rfl
    · exact .inl hold
    · exact .inr (.rotateSenderKey ht)
  | groupAddMember h m =>
    refine key h _ hm ?_
    intro t ht hin
    rcases mem_push hin with hold | rfl
    · exact .inl hold
    · exact .inr (.addMember ht m)
  | groupRemoveMember h m =>
    refine key h _ hm ?_
    intro t ht hin
    rcases mem_push hin with hold | rfl
    · exact .inl hold
    · exact .inr (.removeMember ht m)
  | encryptAs h p =>
    refine key h _ hm ?_
    intro t ht hin
    rcases mem_put hin with hold | rfl
    · exact .inl hold
    · exact .inr (.encryptAs ht p)

/-- The message an operation sends, if any. -/
def sentBy (w : World) : GroupOp → Option Sent
  | .encryptAs h p => (w.sessions[h]?).bind fun t => message t p w.rng
  | .new _ => none
  | .addMember _ _ => none
  | .removeMember _ _ => none
  | .rotateSenderKey _ => none
  | .groupAddMember _ _ => none
  | .groupRemoveMember _ _ => none

/-- The log after an operation. -/
theorem step_sent (w : World) (op : GroupOp) :
    (w.step op).sent = w.sent ++ (w.sentBy op).toList := by
  -- only `encrypt_as` writes to the log
  have key : ∀ (h : Nat) (act : Tracked → World), (∀ t, (act t).sent = w.sent) →
      (w.onHandle h act).sent = w.sent ++ (none : Option Sent).toList := by
    intro h act hact
    rcases w.onHandle_cases h act with he | ⟨t, -, he⟩
    · simp [he]
    · simp [he, hact]
  cases op with
  | new sender => simp [step, push, sentBy]
  | addMember h m => exact key h _ (fun _ => rfl)
  | removeMember h m => exact key h _ (fun _ => rfl)
  | rotateSenderKey h => exact key h _ (fun _ => rfl)
  | groupAddMember h m => exact key h _ (fun _ => rfl)
  | groupRemoveMember h m => exact key h _ (fun _ => rfl)
  | encryptAs h p =>
    rw [step, sentBy, onHandle]
    cases w.sessions[h]? with
    | none => simp
    | some t => rfl

/-- What a sent message is made of. -/
theorem message_eq_some {t : Tracked} {p : Term} {rng : Nat} {e : Sent}
    (h : message t p rng = some e) :
    (t.session.encryptFrame symbolic p rng).2.2 = .ok e.frame ∧
      e = ⟨t.line, t.session.members, p, msgKey symbolic t.session.chainKey,
        msgNonce symbolic t.session.chainKey, e.frame⟩ := by
  rw [message] at h
  cases hf : (t.session.encryptFrame symbolic p rng).2.2 with
  | error err => simp [hf] at h
  | ok f =>
    rw [hf] at h
    obtain rfl := Option.some.inj h
    exact ⟨rfl, rfl⟩

/-- A logged message is genuine: its frame carries the message's nonce, its plaintext encrypted
    under the message's key, and that key sealed to each entry of the roster in turn. -/
structure Genuine (e : Sent) : Prop where
  nonce : e.frame.nonce = e.nonce
  payload : e.frame.payload = .aead e.key e.nonce e.plaintext
  roster : e.frame.wrappers.map Prod.fst = e.roster
  wrappers : ∀ w ∈ e.frame.wrappers, ∃ i n, w = (.pub i, .sealed i e.key (.draw n))

/-- What an `encrypt_as` returned is encrypted as the record says. -/
theorem message_genuine {t : Tracked} {p : Term} {rng : Nat} {e : Sent}
    (h : message t p rng = some e) : Genuine e := by
  obtain ⟨hf, he⟩ := message_eq_some h
  obtain ⟨-, ⟨c, hnew, henc⟩, hnonce, hmap, hws⟩ := encryptFrame_ok hf
  rw [he]
  refine ⟨hnonce, ?_, hmap, ?_⟩
  · obtain rfl : msgKey symbolic t.session.chainKey = c := by simpa [symbolic] using hnew
    by_cases hp : p.encryptable
    · simpa [symbolic, hp] using henc.symm
    · simp [symbolic, hp] at henc
  · intro w hw
    obtain ⟨n, hseal⟩ := hws w hw
    obtain ⟨i, hi, hblob⟩ := symbolic_sealTo_ok hseal
    exact ⟨i, n, Prod.ext hi hblob⟩

/-- Only `encrypt_as` sends, and it sends from the session of its handle. -/
theorem sentBy_eq_some {w : World} {op : GroupOp} {e : Sent} (h : w.sentBy op = some e) :
    ∃ i p t, op = .encryptAs i p ∧ w.sessions[i]? = some t ∧ message t p w.rng = some e := by
  cases op with
  | encryptAs i p =>
    obtain ⟨t, ht, hmsg⟩ := Option.bind_eq_some_iff.mp h
    exact ⟨i, p, t, rfl, ht, hmsg⟩
  | _ => simp [sentBy] at h

/-! ## The ghost is right along every history -/

/-- Every handle tracks its line, and every logged message used the key and the nonce of the chain
    key at the line it was sent from. -/
structure Tracks (w : World) : Prop where
  sessions : ∀ t ∈ w.sessions, t.Tracks
  key : ∀ e ∈ w.sent, e.key = msgKey symbolic e.line.chainKey
  nonce : ∀ e ∈ w.sent, e.nonce = msgNonce symbolic e.line.chainKey

/-- In the beginning there is no session and no message. -/
theorem tracks_empty : empty.Tracks where
  sessions := fun _ h => absurd h List.not_mem_nil
  key := fun _ h => absurd h List.not_mem_nil
  nonce := fun _ h => absurd h List.not_mem_nil

/-- A message uses the key and the nonce of its place on the line.  Equal places give equal pairs,
    which is how a pair comes to be used twice. -/
theorem sentBy_tracks {w : World} (hw : w.Tracks) {op : GroupOp} {e : Sent}
    (h : w.sentBy op = some e) :
    e.key = msgKey symbolic e.line.chainKey ∧ e.nonce = msgNonce symbolic e.line.chainKey := by
  obtain ⟨i, p, t, -, ht, hmsg⟩ := sentBy_eq_some h
  have htracks : t.session.chainKey = t.line.chainKey := hw.sessions t (List.mem_of_getElem? ht)
  rw [(message_eq_some hmsg).2]
  simp only [htracks, and_self]

/-- One operation keeps the ghost right. -/
theorem Tracks.step {w : World} (hw : w.Tracks) (op : GroupOp) : (w.step op).Tracks := by
  have hlog : ∀ e ∈ (w.step op).sent, e.key = msgKey symbolic e.line.chainKey ∧
      e.nonce = msgNonce symbolic e.line.chainKey := by
    intro e he
    rw [step_sent] at he
    rcases List.mem_append.mp he with hold | hnew
    · exact ⟨hw.key e hold, hw.nonce e hold⟩
    · exact sentBy_tracks hw (Option.mem_toList.mp hnew)
  refine ⟨?_, fun e he => (hlog e he).1, fun e he => (hlog e he).2⟩
  intro t' ht'
  rcases mem_step_sessions ht' with hold | hmade
  · exact hw.sessions t' hold
  · cases hmade with
    | new _ => exact Tracked.tracks_new _
    | addMember ht m => exact (hw.sessions _ ht).addMember m
    | removeMember ht m => exact Tracked.tracks_removeMember _ m _
    | rotateSenderKey ht => exact Tracked.tracks_rotateSenderKey _ _
    | encryptAs ht p => exact (hw.sessions _ ht).encryptAs p _

/-- **The ghost is right after every history.** -/
theorem tracks_run (ops : List GroupOp) : (run step empty ops).Tracks :=
  run_inv (fun _ op hw => hw.step op) tracks_empty ops

/-! ## (key, nonce) pairs -/

/-- No two messages of the log used the same AES-256-GCM (key, nonce) pair. -/
def PairsDistinct (sent : List Sent) : Prop :=
  sent.Pairwise fun e e' => (e.key, e.nonce) ≠ (e'.key, e'.nonce)

instance (sent : List Sent) : Decidable (PairsDistinct sent) :=
  inferInstanceAs (Decidable (sent.Pairwise _))

/-- An `encrypt_as` call that gets as far as returning a frame: the roster fits, every entry is a
    genuine public key, AES-GCM takes the plaintext. -/
def Sendable (t : Tracked) (p : Term) : Prop :=
  t.session.members.length ≤ maxMembers ∧ (∀ m ∈ t.session.members, m.isPublicKey) ∧ p.encryptable

/-- The session is not a STALE COPY: when it sends, no message has yet been sent from the same
    origin — a `new` for the same sender, or the same CSPRNG draw — at the same ratchet step. -/
def FreshLine (w : World) : GroupOp → Prop
  | .encryptAs h p =>
    ∀ t, w.sessions[h]? = some t → Sendable t p → ∀ e ∈ w.sent, e.line ≠ t.line
  | _ => True

/-- When a message is sent at all: the frame can be built. -/
theorem message_isSome_iff (t : Tracked) (p : Term) (rng : Nat) :
    (∃ e, message t p rng = some e) ↔ Sendable t p := by
  rw [Sendable, ← encryptFrame_symbolic_iff t.session p rng, message]
  cases (t.session.encryptFrame symbolic p rng).2.2 with
  | error err => simp
  | ok f => simp

/-- The condition, read off the message the operation sends. -/
theorem freshLine_iff (w : World) (op : GroupOp) :
    FreshLine w op ↔ ∀ e', w.sentBy op = some e' → ∀ e ∈ w.sent, e.line ≠ e'.line := by
  cases op with
  | encryptAs h p =>
    constructor
    · intro hfresh e' he' e he
      obtain ⟨t, ht, hmsg⟩ := Option.bind_eq_some_iff.mp he'
      rw [(message_eq_some hmsg).2]
      exact hfresh t ht ((message_isSome_iff t p w.rng).mp ⟨e', hmsg⟩) e he
    · intro hall t ht hsend e he
      obtain ⟨e', hmsg⟩ := (message_isSome_iff t p w.rng).mpr hsend
      have hne := hall e' (Option.bind_eq_some_iff.mpr ⟨t, ht, hmsg⟩) e he
      rw [(message_eq_some hmsg).2] at hne
      exact hne
  | _ => simp [FreshLine, sentBy]

/-- With the ghost right, pairs are distinct exactly if lines are. -/
theorem Tracks.pairsDistinct_iff {w : World} (hw : w.Tracks) :
    PairsDistinct w.sent ↔ w.sent.Pairwise fun e e' => e.line ≠ e'.line := by
  refine List.Pairwise.iff_of_mem (fun {e e'} he he' => not_congr ?_)
  rw [Prod.mk.injEq, hw.key e he, hw.key e' he', hw.nonce e he, hw.nonce e' he']
  constructor
  · rintro ⟨hkey, -⟩
    exact Line.chainKey_injective (msgKey_injective hkey)
  · intro hline
    rw [hline]
    exact ⟨rfl, rfl⟩

/-- Distinct lines along a history: by induction from its end, each message against all before. -/
theorem lines_distinct_iff (ops : List GroupOp) :
    ((run step empty ops).sent.Pairwise fun e e' => e.line ≠ e'.line) ↔
      Meets step FreshLine empty ops := by
  induction ops using List.reverseRecOn with
  | nil => simp [empty, Meets]
  | append_singleton ops op ih =>
    rw [run_concat, meets_concat, step_sent, List.pairwise_append, ih, freshLine_iff]
    refine and_congr_right ?_
    intro _
    cases (run step empty ops).sentBy op with
    | none => simp
    | some e' => simp

/-- **Exactly when no (key, nonce) pair is reused.** -/
theorem pairs_distinct_iff (ops : List GroupOp) :
    PairsDistinct (run step empty ops).sent ↔ Meets step FreshLine empty ops := by
  rw [(tracks_run ops).pairsDistinct_iff, lines_distinct_iff]

/-- A group created, used, and created again for the same sender — what the web client does when it
    restores a persisted group after a reload: the first message of the second session reuses the
    key and the nonce of the first message of the first. -/
theorem pair_reused_after_restore :
    ¬ PairsDistinct (run step empty
      [.new (.pub 0), .addMember 0 (.pub 1), .encryptAs 0 (.data [104, 105]),
       .new (.pub 0), .addMember 1 (.pub 1), .encryptAs 1 (.data [121, 111])]).sent := by
  decide

-- The old handle after a `group_add_member`: the clone and the original are on one line.
example : ¬ PairsDistinct (run step empty
    [.new (.pub 0), .groupAddMember 0 (.pub 1), .encryptAs 0 (.data [104, 105]),
     .encryptAs 1 (.data [121, 111])]).sent := by decide

end World

end E2EMessaging.Group
