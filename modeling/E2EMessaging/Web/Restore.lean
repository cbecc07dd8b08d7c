/-
  THE WASM GROUP BINDINGS (`core/bindings/wasm/src/lib.rs`) AND RESTORING A GROUP WITH THEM
  (`clients/web/src/GroupConversation.tsx`, mount effect).

  A `GroupHandle` is a JS object around a pointer to a Rust `GroupSession`.  `group_add_member` and
  `group_remove_member` CLONE the session behind the handle they are given and return a handle to
  the result; the one they were given keeps its roster and its chain key.  The wasm heap is a
  `World`: a pointer is the number of a session.

  The loop that rebuilds a persisted group after a reload calls `group_add_member` on the SAME
  handle each time and installs that one, so the group it installs has nobody in it:
  `restore_preserves_iff`.
-/
import E2EMessaging.Group.History

namespace E2EMessaging.Web

open E2EMessaging.Lib E2EMessaging.Group

/-! ## The wasm bindings -/

/-- A `GroupHandle` as JS sees it: a pointer, and a `members` property if something assigned one —
    the class itself has none. -/
structure GroupHandle where
  ptr : Nat
  members : Option (List Term)
  deriving Repr, DecidableEq

/-- The handle to the session that is pushed next. -/
def freshHandle (w : World) : GroupHandle := ⟨w.sessions.length, none⟩

/-- `group_create`. -/
def groupCreate (w : World) (sender : Term) : World × GroupHandle :=
  (w.step (.new sender), freshHandle w)

/-- `group_add_member`. -/
def groupAddMember (w : World) (h : GroupHandle) (member : Term) : World × GroupHandle :=
  (w.step (.groupAddMember h.ptr member), freshHandle w)

/-- `group_remove_member`. -/
def groupRemoveMember (w : World) (h : GroupHandle) (member : Term) : World × GroupHandle :=
  (w.step (.groupRemoveMember h.ptr member), freshHandle w)

/-- `group_encrypt`, up to the layout of the frame as bytes.  A null pointer makes the glue throw. -/
def groupEncrypt (w : World) (h : GroupHandle) (plaintext : Term) :
    World × Except IoError (Frame Term) :=
  (w.step (.encryptAs h.ptr plaintext),
    match w.sessions[h.ptr]? with
    | none => .error ⟨.other, "null pointer passed to rust"⟩
    | some t => (t.session.encryptFrame symbolic plaintext w.rng).2.2)

/-! ## Restoring a persisted group -/

/-- `RealMember`, also as it is persisted. -/
structure RealMember where
  recipientId : String
  publicBytes : Term
  deriving Repr, DecidableEq

/-- The loop over the persisted members.  The new handle is used for its `members` property only. -/
def restoreLoop (w : World) (restoredGroup : GroupHandle) :
    List RealMember → World × GroupHandle × List RealMember
  | [] => (w, restoredGroup, [])
  | m :: ms =>
    let r := groupAddMember w restoredGroup m.publicBytes
    let newGroup := r.2
    let rest := restoreLoop r.1 { restoredGroup with members := newGroup.members } ms
    (rest.1, rest.2.1, m :: rest.2.2)

/-- What the mount effect installs. -/
structure Restored where
  world : World
  group : Option GroupHandle
  realMembers : List RealMember

/-- The restore branch of the mount effect. -/
def restore (w : World) (self : Term) (persisted : List RealMember) : Restored :=
  if persisted.isEmpty then ⟨w, none, []⟩
  else
    let c := groupCreate w self
    let r := restoreLoop c.1 c.2 persisted
    ⟨r.1, some r.2.1, r.2.2⟩

/-- Whatever the handle encrypts has one wrapper for each of the keys, in order. -/
def EncryptsTo (w : World) (h : GroupHandle) (keys : List Term) : Prop :=
  ∀ p f, (groupEncrypt w h p).2 = .ok f → f.wrappers.map Prod.fst = keys

/-- The handle installed after a reload encrypts to the persisted members. -/
def RestorePreserves (w : World) (self : Term) (persisted : List RealMember) : Prop :=
  ∀ h, (restore w self persisted).group = some h →
    EncryptsTo (restore w self persisted).world h (persisted.map RealMember.publicBytes)

/-- The loop leaves the session behind its handle alone: every round pushes a clone. -/
theorem restoreLoop_session (w : World) (h : GroupHandle) (ms : List RealMember) {t : Tracked}
    (ht : w.sessions[h.ptr]? = some t) :
    (restoreLoop w h ms).2.1.ptr = h.ptr ∧
      (restoreLoop w h ms).1.sessions[h.ptr]? = some t := by
  induction ms generalizing w h with
  | nil => exact ⟨rfl, ht⟩
  | cons m ms ih =>
    have hkept : (groupAddMember w h m.publicBytes).1.sessions[h.ptr]? = some t := by
      rw [groupAddMember, World.step, World.onHandle, ht]
      dsimp only [World.push]
      rw [List.getElem?_append_left (List.getElem?_eq_some_iff.mp ht).1]
      exact ht
    exact ih _ { h with members := (groupAddMember w h m.publicBytes).2.members } hkept

/-- What is installed for a non-empty list: a session fresh from `group_create`. -/
theorem restore_session (w : World) (self : Term) {l : List RealMember} (hl : l ≠ []) :
    ∃ h, (restore w self l).group = some h ∧
      (restore w self l).world.sessions[h.ptr]? = some (.new self) := by
  have hempty : l.isEmpty = false := by
    cases l with
    | nil => exact absurd rfl hl
    | cons m ms => rfl
  have hnew : (groupCreate w self).1.sessions[(groupCreate w self).2.ptr]? = some (.new self) := by
    simp [groupCreate, freshHandle, World.step, World.push]
  obtain ⟨hptr, hsess⟩ := restoreLoop_session _ _ l hnew
  refine ⟨(restoreLoop (groupCreate w self).1 (groupCreate w self).2 l).2.1, ?_, ?_⟩
  · simp [restore, hempty]
  · rw [hptr]
    simpa [restore, hempty] using hsess

/-- A session without members encrypts, and seals its key to nobody. -/
theorem empty_encrypts {w : World} {h : GroupHandle} {self : Term}
    (ht : w.sessions[h.ptr]? = some (.new self)) :
    ∃ p f, (groupEncrypt w h p).2 = .ok f ∧ f.wrappers.map Prod.fst = [] := by
  obtain ⟨f, hf⟩ := (encryptFrame_symbolic_iff (Tracked.new self).session (.data []) w.rng).mpr
    ⟨Nat.zero_le _, fun m hm => absurd hm List.not_mem_nil, rfl⟩
  refine ⟨.data [], f, ?_, (encryptFrame_ok hf).2.2.2.1⟩
  rw [groupEncrypt, ht]
  exact hf

/-- **Exactly when a restored group encrypts to its persisted members**: when there are none. -/
theorem restore_preserves_iff (w : World) (self : Term) (persisted : List RealMember) :
    RestorePreserves w self persisted ↔ persisted = [] := by
  constructor
  · intro h
    by_contra hne
    obtain ⟨g, hg, hsess⟩ := restore_session w self hne
    obtain ⟨p, f, hf, hnone⟩ := empty_encrypts hsess
    have hall := h g hg p f hf
    rw [hnone] at hall
    exact hne (List.map_eq_nil_iff.mp hall.symm)
  · rintro rfl h hg
    simp [restore] at hg

/-- A group with one peer, reloaded. -/
theorem restored_group_is_empty :
    ¬ RestorePreserves World.empty (.pub 0) [⟨"bob", .pub 1⟩] := by
  intro h
  have hf : (groupEncrypt (restore World.empty (.pub 0) [⟨"bob", .pub 1⟩]).world ⟨0, none⟩
      (.data [104, 105])).2 = .ok ⟨msgNonce symbolic (.hkdf (.data []) (.pub 0) "chain" 32),
        .aead (msgKey symbolic (.hkdf (.data []) (.pub 0) "chain" 32))
          (msgNonce symbolic (.hkdf (.data []) (.pub 0) "chain" 32)) (.data [104, 105]), []⟩ := by
    decide
  exact absurd (h ⟨0, none⟩ rfl _ _ hf) (by decide)

end E2EMessaging.Web
