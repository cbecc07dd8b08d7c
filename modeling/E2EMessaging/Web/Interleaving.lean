/-
  MEMBERSHIP CHANGES THAT DO NOT UNDO ONE ANOTHER (`clients/web/src/GroupConversation.tsx`).

  What the component owes its user (`MembershipKept`): a removed peer stays out — of the roster of
  the current group, of `realMembers`, of what was last persisted — until an add that names it
  starts, no chain key from before its removal leads to the current one, and no completed add is
  lost.

  An `addPeer` that resumes after a membership change rebuilds the group from the handle and the
  list it captured, and so UNDOES the change: `removed_peer_readmitted`.

  * `membership_kept` — in every run in which each change is made FROM THE CURRENT HANDLE and no key
    is used twice where it matters (`Timely`), everything is kept in every state.

  The invariant is `Inv`.  What makes captured state safe to use is one fact: every membership
  change installs a NEW handle, so whoever still has the current handle has the current list
  (`Captured`), and one lemma, `Inv.install`, carries the invariant over all of them.  That no old
  chain key leads to the current one is a matter of dates: a removal draws a chain key, and every
  chain key seen before was drawn earlier (`Before`).
-/
import E2EMessaging.Lib.Run
import E2EMessaging.Web.GroupConversation

namespace E2EMessaging.Web

open E2EMessaging.Lib E2EMessaging.Group

variable {demoKey : String → Term}

/-! ## What is to be kept -/

/-- The session of the current group handle. -/
def Component.session (s : Component) : Option Tracked :=
  s.current.group.bind fun h => s.world.sessions[h.ptr]?

/-- The roster of the current group handle. -/
def Component.roster (s : Component) : List Term :=
  match s.session with
  | none => []
  | some t => t.session.members

/-- Removed peers stay out, no older chain key leads to the current one, no completed add is
    lost. -/
structure MembershipKept (demoKey : String → Term) (s : Component) : Prop where
  removed_roster : ∀ x ∈ s.ghost.removals, x.member.publicBytes ∉ s.roster
  removed_members : ∀ x ∈ s.ghost.removals, ∀ m ∈ s.current.realMembers,
    m.recipientId ≠ x.member.recipientId ∧ m.publicBytes ≠ x.member.publicBytes
  removed_persisted : ∀ x ∈ s.ghost.removals, ∀ m ∈ s.persisted,
    m.recipientId ≠ x.member.recipientId ∧ m.publicBytes ≠ x.member.publicBytes
  chain : ∀ x ∈ s.ghost.removals, ∀ k ∈ x.older, ∀ d t, s.session = some t →
    t.session.chainKey ≠ ratchet k d
  added_kept : ∀ m ∈ s.ghost.added,
    m.publicBytes ∈ s.roster ∧ m ∈ s.current.realMembers ∧ m ∈ s.persisted
  addedNames_kept : ∀ name ∈ s.ghost.addedNames,
    name ∈ s.current.memberNames ∧ demoKey name ∈ s.roster

/-! ## When it is -/

/-- The handler about to run closed over the handle that is current. -/
def OnCurrent (s : Component) : Prop := s.rendered.group = s.current.group

/-- The key is that of no removed peer but possibly `who`. -/
def Admissible (s : Component) (who : Option String) (key : Term) : Prop :=
  ∀ x ∈ s.ghost.removals, x.member.publicBytes = key → some x.member.recipientId = who

/-- The peer shares its recipient ID and its key with nobody else in the group. -/
def Alone (demoKey : String → Term) (s : Component) (m : RealMember) : Prop :=
  (∀ m' ∈ s.current.realMembers,
    m'.recipientId = m.recipientId ∨ m'.publicBytes = m.publicBytes → m' = m) ∧
  ∀ name ∈ s.current.memberNames, demoKey name ≠ m.publicBytes

/-- The demo member shares its key with nobody else in the group. -/
def AloneName (demoKey : String → Term) (s : Component) (name : String) : Prop :=
  (∀ m ∈ s.current.realMembers, m.publicBytes ≠ demoKey name) ∧
  ∀ name' ∈ s.current.memberNames, demoKey name' = demoKey name → name' = name

/-- The member of a list that a handler finds for a recipient ID. -/
def findPeer (l : List RealMember) (recipientId : String) : Option RealMember :=
  l.find? fun m => decide (m.recipientId = recipientId)

/-- A change of the membership is made from the current handle, adds no removed peer's key under
    another name, and removes nobody whose key somebody else uses. -/
def Timely (demoKey : String → Term) (s : Component) : UiAction → Prop
  | .addMember name => OnCurrent s ∧ Admissible s none (demoKey name)
  | .removeMember name => OnCurrent s ∧ AloneName demoKey s name
  | .addPeer =>
    ∀ m ∈ findPeer s.rendered.removedRealMembers (jsTrim s.rendered.peerIdInput),
      OnCurrent s ∧ Admissible s (some m.recipientId) m.publicBytes
  | .resume i (some key) =>
    ∀ p ∈ s.pending[i]?, s.current.group = some p.group ∧ Admissible s (some p.trimmedId) key
  | .removePeer r => OnCurrent s ∧ ∀ m ∈ findPeer s.current.realMembers r, Alone demoKey s m
  | .reAddPeer r =>
    ∀ m ∈ findPeer s.rendered.removedRealMembers r,
      OnCurrent s ∧ Admissible s (some m.recipientId) m.publicBytes
  | .resume _ none => True
  | .render => True
  | .setPeerIdInput _ => True
  | .send _ => True

instance (s : Component) : Decidable (OnCurrent s) :=
  inferInstanceAs (Decidable (s.rendered.group = s.current.group))

instance (s : Component) (who : Option String) (key : Term) : Decidable (Admissible s who key) :=
  inferInstanceAs (Decidable (∀ x ∈ s.ghost.removals, _))

instance (s : Component) (m : RealMember) : Decidable (Alone demoKey s m) :=
  inferInstanceAs (Decidable (_ ∧ _))

instance (s : Component) (name : String) : Decidable (AloneName demoKey s name) :=
  inferInstanceAs (Decidable (_ ∧ _))

instance (s : Component) : (a : UiAction) → Decidable (Timely demoKey s a)
  | .addMember _ => inferInstanceAs (Decidable (_ ∧ _))
  | .removeMember _ => inferInstanceAs (Decidable (_ ∧ _))
  | .addPeer => inferInstanceAs (Decidable (∀ m ∈ findPeer _ _, _))
  | .resume i (some _) => inferInstanceAs (Decidable (∀ p ∈ s.pending[i]?, _))
  | .removePeer _ => inferInstanceAs (Decidable (_ ∧ _))
  | .reAddPeer _ => inferInstanceAs (Decidable (∀ m ∈ findPeer _ _, _))
  | .resume _ none => .isTrue trivial
  | .render => .isTrue trivial
  | .setPeerIdInput _ => .isTrue trivial
  | .send _ => .isTrue trivial

/-! ## Dates of chain keys -/

/-- A chain key that comes from a public key, or from a draw before number `mark`. -/
def Before (mark : Nat) (k : Term) : Prop :=
  ∃ l : Line, k = l.chainKey ∧ ∀ n, l.origin = .drawn n → n < mark

/-- A chain key seen before some date was also seen before any later one. -/
theorem Before.mono {mark mark' : Nat} {k : Term} (h : Before mark k) (hle : mark ≤ mark') :
    Before mark' k := by
  obtain ⟨l, hk, hl⟩ := h
  refine ⟨l, hk, ?_⟩
  intro n hn
  have hlt := hl n hn
  omega

/-- Ratcheting does not change where a chain key comes from. -/
theorem ratchet_chainKey (l : Line) (d : Nat) :
    ratchet l.chainKey d = (Line.mk l.origin (l.depth + d)).chainKey := by
  induction d with
  | zero => rfl
  | succ d ih =>
    rw [ratchet, ih]
    rfl

/-- No chain key from before a draw leads to one that comes from it or from a later one. -/
theorem Before.not_ratchet {mark n : Nat} {k : Term} (h : Before mark k) {t : Tracked}
    (ht : t.Tracks) (ho : t.line.origin = .drawn n) (hle : mark ≤ n) (d : Nat) :
    t.session.chainKey ≠ ratchet k d := by
  obtain ⟨l, rfl, hl⟩ := h
  intro heq
  rw [ht, ratchet_chainKey] at heq
  have horigin : t.line.origin = l.origin := by rw [Line.chainKey_injective heq]
  have hlt : n < mark := hl n (by rw [← horigin, ho])
  omega

/-- Every session is on its line, and that line does not start at a draw still to come. -/
def Dated (w : World) : Prop :=
  ∀ t ∈ w.sessions, t.Tracks ∧ ∀ n, t.line.origin = .drawn n → n < w.rng

/-- Every chain key in use is on a line that began before now. -/
theorem Dated.before {w : World} (hw : Dated w) {t : Tracked} (ht : t ∈ w.sessions) :
    Before w.rng t.session.chainKey :=
  ⟨t.line, (hw t ht).1, (hw t ht).2⟩

/-- A new session keeps the dates in order, if its own line began before now. -/
theorem Dated.push {w : World} (hw : Dated w) {t : Tracked} (ht : t.Tracks)
    (hn : ∀ n, t.line.origin = .drawn n → n < w.rng) : Dated (w.push t) := by
  intro u hu
  rcases World.mem_push hu with hold | rfl
  · exact hw u hold
  · exact ⟨ht, hn⟩

/-- Later is later: more draws do not change the date of a key. -/
theorem Dated.drawn {w : World} (hw : Dated w) {n : Nat} (hle : w.rng ≤ n) :
    Dated (w.drawn n) := by
  intro t ht
  obtain ⟨htracks, hdate⟩ := hw t ht
  refine ⟨htracks, ?_⟩
  intro k hk
  show k < n
  have hlt := hdate k hk
  omega

/-! ## What the bindings do to the heap -/

/-- `group_add_member` makes a new session beside the old one, with one member more and the same chain key. -/
theorem groupAddMember_world {w : World} {h : GroupHandle} {t : Tracked}
    (ht : w.sessions[h.ptr]? = some t) (k : Term) :
    (groupAddMember w h k).1 = w.push (t.addMember k) := by
  rw [groupAddMember, World.step, World.onHandle, ht]

/-- `group_remove_member` makes a new session whose chain key is drawn just now.  This draw is what locks the removed
    member out. -/
theorem groupRemoveMember_world {w : World} {h : GroupHandle} {t : Tracked}
    (ht : w.sessions[h.ptr]? = some t) (k : Term) :
    (groupRemoveMember w h k).1 = (w.push (t.removeMember k w.rng)).drawn (w.rng + 1) := by
  rw [groupRemoveMember, World.step, World.onHandle, ht]

/-- An added member gets a copy of a chain key that was there already. -/
theorem Dated.groupAddMember {w : World} (hw : Dated w) (h : GroupHandle) (k : Term) :
    Dated (groupAddMember w h k).1 := by
  cases ht : w.sessions[h.ptr]? with
  | none =>
    rw [Web.groupAddMember, World.step, World.onHandle, ht]
    exact hw
  | some t =>
    have hmem := List.mem_of_getElem? ht
    rw [groupAddMember_world ht]
    exact hw.push ((hw t hmem).1.addMember k) (hw t hmem).2

/-- A removal dates its chain key at the draw, before everything that comes after. -/
theorem Dated.groupRemoveMember {w : World} (hw : Dated w) (h : GroupHandle) (k : Term) :
    Dated (groupRemoveMember w h k).1 := by
  cases ht : w.sessions[h.ptr]? with
  | none =>
    rw [Web.groupRemoveMember, World.step, World.onHandle, ht]
    exact hw
  | some t =>
    rw [groupRemoveMember_world ht]
    refine (hw.drawn (Nat.le_succ w.rng)).push (Tracked.tracks_removeMember t k w.rng) ?_
    intro n hn
    obtain rfl : w.rng = n := by simpa [Tracked.removeMember] using hn
    exact Nat.lt_succ_self _

/-- `group_encrypt` moves one session along its line. -/
theorem groupEncrypt_cases (w : World) (h : GroupHandle) (p : Term) :
    (groupEncrypt w h p).1 = w ∨
      ∃ t, w.sessions[h.ptr]? = some t ∧
        (groupEncrypt w h p).1.sessions = w.sessions.set h.ptr (t.encryptAs p w.rng) ∧
        w.rng ≤ (groupEncrypt w h p).1.rng := by
  show w.step (.encryptAs h.ptr p) = w ∨ ∃ t, w.sessions[h.ptr]? = some t ∧
    (w.step (.encryptAs h.ptr p)).sessions = w.sessions.set h.ptr (t.encryptAs p w.rng) ∧
    w.rng ≤ (w.step (.encryptAs h.ptr p)).rng
  rw [World.step]
  rcases w.onHandle_cases h.ptr (fun t =>
      { (w.put h.ptr (t.encryptAs p w.rng)).drawn (t.session.encryptFrame symbolic p w.rng).2.1 with
        sent := w.sent ++ (World.message t p w.rng).toList }) with he | ⟨t, ht, he⟩
  · exact .inl he
  · refine .inr ⟨t, ht, ?_, ?_⟩
    · rw [he]
      rfl
    · rw [he]
      exact encryptFrame_rng_le symbolic t.session p w.rng

/-- A message ratchets a chain key on; its date stays that of the draw behind it. -/
theorem Dated.groupEncrypt {w : World} (hw : Dated w) (h : GroupHandle) (p : Term) :
    Dated (groupEncrypt w h p).1 := by
  rcases groupEncrypt_cases w h p with he | ⟨t, ht, hset, hrng⟩
  · rw [he]
    exact hw
  · obtain ⟨htracks, hdate⟩ := hw t (List.mem_of_getElem? ht)
    intro u hu
    rw [hset] at hu
    rcases List.mem_or_eq_of_mem_set hu with hold | rfl
    · refine ⟨(hw u hold).1, ?_⟩
      intro n hn
      have hlt := (hw u hold).2 n hn
      omega
    · refine ⟨htracks.encryptAs p w.rng, ?_⟩
      intro n hn
      rw [Tracked.encryptAs_origin] at hn
      have hlt := hdate n hn
      omega

/-! ## The invariant -/

/-- The keys of everybody the component shows as a member. -/
def View.keys (demoKey : String → Term) (v : View) : List Term :=
  v.realMembers.map RealMember.publicBytes ++ v.memberNames.map demoKey

/-- The keys a view stands for are those of its peers and those of its demo members. -/
theorem mem_keys {v : View} {k : Term} :
    k ∈ v.keys demoKey ↔
      (∃ m ∈ v.realMembers, m.publicBytes = k) ∨ ∃ name ∈ v.memberNames, demoKey name = k := by
  simp [View.keys]

/-- The lists of the component agree with each other and with the record. -/
structure Lists (demoKey : String → Term) (s : Component) : Prop where
  persisted : s.persisted = s.current.realMembers
  removed_key : ∀ x ∈ s.ghost.removals, x.member.publicBytes ∉ s.current.keys demoKey
  removed_id : ∀ x ∈ s.ghost.removals, ∀ m ∈ s.current.realMembers,
    m.recipientId ≠ x.member.recipientId
  added : ∀ m ∈ s.ghost.added, m ∈ s.current.realMembers
  addedNames : ∀ name ∈ s.ghost.addedNames, name ∈ s.current.memberNames

/-- The session `t` fits the component: its roster holds everybody added here and nobody who is not
    shown (it may lack members that were restored), and its chain key is younger than every
    removal. -/
structure Fits (demoKey : String → Term) (s : Component) (t : Tracked) : Prop where
  roster : ∀ k ∈ t.session.members, k ∈ s.current.keys demoKey
  added : ∀ m ∈ s.ghost.added, m.publicBytes ∈ t.session.members
  addedNames : ∀ name ∈ s.ghost.addedNames, demoKey name ∈ t.session.members
  younger : ∀ x ∈ s.ghost.removals, ∃ mark n, mark ≤ n ∧ t.line.origin = .drawn n ∧
    ∀ k ∈ x.older, Before mark k

/-- A list captured together with a handle: good as long as the handle is. -/
def Captured (s : Component) (h : GroupHandle) (realMembers : List RealMember) : Prop :=
  h.ptr < s.world.sessions.length ∧
    (s.current.group = some h → realMembers = s.current.realMembers)

/-- **The invariant.** -/
structure Inv (demoKey : String → Term) (s : Component) : Prop where
  dated : Dated s.world
  held : ∀ k ∈ s.ghost.held, Before s.world.rng k
  session : ∃ h t, s.current.group = some h ∧ s.world.sessions[h.ptr]? = some t ∧ Fits demoKey s t
  lists : Lists demoKey s
  rendered : ∀ h, s.rendered.group = some h → Captured s h s.rendered.realMembers
  pending : ∀ p ∈ s.pending, Captured s p.group p.realMembers
  /-- A lookup still under way is for nobody who was removed after it started. -/
  awaited : ∀ p ∈ s.pending, s.current.group = some p.group →
    ∀ x ∈ s.ghost.removals, x.member.recipientId ≠ p.trimmedId

/-- What the invariant is for. -/
theorem Inv.kept {s : Component} (hs : Inv demoKey s) : MembershipKept demoKey s := by
  obtain ⟨h, t, hgroup, ht, hfits⟩ := hs.session
  have hsession : s.session = some t := by rw [Component.session, hgroup]; exact ht
  have hroster : s.roster = t.session.members := by rw [Component.roster, hsession]
  have hout : ∀ x ∈ s.ghost.removals, ∀ m ∈ s.current.realMembers,
      m.recipientId ≠ x.member.recipientId ∧ m.publicBytes ≠ x.member.publicBytes := by
    intro x hx m hm
    refine ⟨hs.lists.removed_id x hx m hm, fun heq => hs.lists.removed_key x hx ?_⟩
    exact mem_keys.mpr (.inl ⟨m, hm, heq⟩)
  refine ⟨?_, hout, ?_, ?_, ?_, ?_⟩
  · intro x hx hin
    rw [hroster] at hin
    exact hs.lists.removed_key x hx (hfits.roster _ hin)
  · rw [hs.lists.persisted]
    exact hout
  · intro x hx k hk d u hu
    obtain rfl : t = u := Option.some.inj (hsession.symm.trans hu)
    obtain ⟨mark, n, hle, ho, hold⟩ := hfits.younger x hx
    exact (hold k hk).not_ratchet (hs.dated t (List.mem_of_getElem? ht)).1 ho hle d
  · intro m hm
    rw [hroster, hs.lists.persisted]
    exact ⟨hfits.added m hm, hs.lists.added m hm, hs.lists.added m hm⟩
  · intro name hname
    rw [hroster]
    exact ⟨hs.lists.addedNames name hname, hfits.addedNames name hname⟩

/-! ## Steps that leave the membership alone -/

/-- Heap, group and lists are as they were, and no removal has been added to the record. -/
structure Undisturbed (s s' : Component) : Prop where
  world : s'.world = s.world
  group : s'.current.group = s.current.group
  realMembers : s'.current.realMembers = s.current.realMembers
  memberNames : s'.current.memberNames = s.current.memberNames
  persisted : s'.persisted = s.persisted
  added : s'.ghost.added = s.ghost.added
  addedNames : s'.ghost.addedNames = s.ghost.addedNames
  removals : ∀ x ∈ s'.ghost.removals, x ∈ s.ghost.removals

/-- If the group is undisturbed, so are the keys its members stand for. -/
theorem Undisturbed.keys {s s' : Component} (h : Undisturbed s s') :
    s'.current.keys demoKey = s.current.keys demoKey := by
  rw [View.keys, View.keys, h.realMembers, h.memberNames]

/-- What a handler has captured is as good, or as stale, as it was. -/
theorem Undisturbed.captured {s s' : Component} (h : Undisturbed s s') {g : GroupHandle}
    {l : List RealMember} : Captured s' g l ↔ Captured s g l := by
  rw [Captured, Captured, h.world, h.group, h.realMembers]

/-- The lists still agree with what was persisted and with the record. -/
theorem Undisturbed.lists {s s' : Component} (h : Undisturbed s s') (hs : Lists demoKey s) :
    Lists demoKey s' where
  persisted := by rw [h.persisted, h.realMembers]; exact hs.persisted
  removed_key := by rw [h.keys]; exact fun x hx => hs.removed_key x (h.removals x hx)
  removed_id := by rw [h.realMembers]; exact fun x hx => hs.removed_id x (h.removals x hx)
  added := by rw [h.added, h.realMembers]; exact hs.added
  addedNames := by rw [h.addedNames, h.memberNames]; exact hs.addedNames

/-- The session of the current handle still has the roster that the lists name. -/
theorem Undisturbed.fits {s s' : Component} (h : Undisturbed s s') {t : Tracked}
    (hs : Fits demoKey s t) : Fits demoKey s' t where
  roster := by rw [h.keys]; exact hs.roster
  added := by rw [h.added]; exact hs.added
  addedNames := by rw [h.addedNames]; exact hs.addedNames
  younger := fun x hx => hs.younger x (h.removals x hx)

/-- What is left to show of a step that leaves the membership alone: the record of keys, and what
    is captured. -/
theorem Undisturbed.inv {s s' : Component} (h : Undisturbed s s') (hs : Inv demoKey s)
    (hheld : ∀ k ∈ s'.ghost.held, Before s.world.rng k)
    (hrendered : ∀ g, s'.rendered.group = some g → Captured s g s'.rendered.realMembers)
    (hpending : ∀ p ∈ s'.pending, Captured s p.group p.realMembers)
    (hawaited : ∀ p ∈ s'.pending, s.current.group = some p.group →
      ∀ x ∈ s'.ghost.removals, x.member.recipientId ≠ p.trimmedId) : Inv demoKey s' := by
  obtain ⟨g, t, hg, ht, hfits⟩ := hs.session
  refine ⟨?_, ?_, ⟨g, t, ?_, ?_, h.fits hfits⟩, h.lists hs.lists, ?_, ?_, ?_⟩
  · rw [h.world]; exact hs.dated
  · rw [h.world]; exact hheld
  · rw [h.group]; exact hg
  · rw [h.world]; exact ht
  · intro g hg
    exact h.captured.mpr (hrendered g hg)
  · intro p hp
    exact h.captured.mpr (hpending p hp)
  · rw [h.group]; exact hawaited

theorem Inv.recordKeys {s : Component} (hs : Inv demoKey s) : Inv demoKey s.recordKeys := by
  have h : Undisturbed s s.recordKeys := ⟨rfl, rfl, rfl, rfl, rfl, rfl, rfl, fun _ hx => hx⟩
  refine h.inv hs ?_ hs.rendered hs.pending hs.awaited
  intro k hk
  rcases List.mem_append.mp hk with hold | hnow
  · exact hs.held k hold
  · obtain ⟨t, ht, rfl⟩ := List.mem_map.mp hnow
    exact hs.dated.before ht

/-- The current handle, with the current list. -/
theorem Inv.captured_current {s : Component} (hs : Inv demoKey s) {g : GroupHandle}
    (hg : s.current.group = some g) : Captured s g s.current.realMembers := by
  obtain ⟨h, t, hh, ht, -⟩ := hs.session
  obtain rfl : h = g := Option.some.inj (hh.symm.trans hg)
  exact ⟨(List.getElem?_eq_some_iff.mp ht).1, fun _ => rfl⟩

/-- A render brings the snapshot up to date: from then on its handlers work on the current handle. -/
theorem Inv.render {s : Component} (hs : Inv demoKey s) :
    Inv demoKey { s with rendered := s.current } := by
  have h : Undisturbed s { s with rendered := s.current } :=
    ⟨rfl, rfl, rfl, rfl, rfl, rfl, rfl, fun _ hx => hx⟩
  exact h.inv hs hs.held (fun g hg => hs.captured_current hg) hs.pending hs.awaited

/-- What is typed, and whether an add is under way, is nobody's membership. -/
theorem Inv.form {s : Component} (hs : Inv demoKey s) (text : String) (adding : Bool) :
    Inv demoKey
      { s with current := { s.current with peerIdInput := text, addingPeer := adding } } := by
  have h : Undisturbed s
      { s with current := { s.current with peerIdInput := text, addingPeer := adding } } :=
    ⟨rfl, rfl, rfl, rfl, rfl, rfl, rfl, fun _ hx => hx⟩
  exact h.inv hs hs.held hs.rendered hs.pending hs.awaited

/-- Taking a peer off the list of the removed ones changes no member. -/
theorem Inv.unremove {s : Component} (hs : Inv demoKey s) (r : String) :
    Inv demoKey (s.unremove r) := by
  have h : Undisturbed s (s.unremove r) := ⟨rfl, rfl, rfl, rfl, rfl, rfl, rfl, fun _ hx => hx⟩
  exact h.inv hs hs.held hs.rendered hs.pending hs.awaited

/-- An add of a recipient ends the record of his removals, and of nobody else's. -/
theorem mem_starting {s : Component} {r : String} {x : Removal} :
    x ∈ (s.starting r).ghost.removals ↔ x ∈ s.ghost.removals ∧ x.member.recipientId ≠ r := by
  simp [Component.starting]

/-- So it keeps the invariant: there is one thing less to keep. -/
theorem Inv.starting {s : Component} (hs : Inv demoKey s) (r : String) :
    Inv demoKey (s.starting r) := by
  have h : Undisturbed s (s.starting r) :=
    ⟨rfl, rfl, rfl, rfl, rfl, rfl, rfl, fun x hx => (mem_starting.mp hx).1⟩
  exact h.inv hs hs.held hs.rendered hs.pending
    (fun p hp hg x hx => hs.awaited p hp hg x (mem_starting.mp hx).1)

/-- A lookup returns, whatever it brings. -/
theorem Inv.returned {s : Component} (hs : Inv demoKey s) (i : Nat) :
    Inv demoKey { s with pending := s.pending.eraseIdx i } := by
  have h : Undisturbed s { s with pending := s.pending.eraseIdx i } :=
    ⟨rfl, rfl, rfl, rfl, rfl, rfl, rfl, fun _ hx => hx⟩
  exact h.inv hs hs.held hs.rendered (fun p hp => hs.pending p (List.mem_of_mem_eraseIdx hp))
    (fun p hp => hs.awaited p (List.mem_of_mem_eraseIdx hp))

/-- A lookup starts: what `addPeer` captures is what was rendered. -/
theorem Inv.lookup {s : Component} (hs : Inv demoKey s) {g : GroupHandle}
    (hg : s.rendered.group = some g) (r : String) :
    Inv demoKey
      { s.starting r with
        current := { s.current with addingPeer := true }
        pending := s.pending ++ [⟨g, s.rendered.realMembers, r⟩] } := by
  have h : Undisturbed s
      { s.starting r with
        current := { s.current with addingPeer := true }
        pending := s.pending ++ [⟨g, s.rendered.realMembers, r⟩] } :=
    ⟨rfl, rfl, rfl, rfl, rfl, rfl, rfl, fun x hx => (mem_starting.mp hx).1⟩
  refine h.inv hs hs.held hs.rendered ?_ ?_
  · intro p hp
    rcases List.mem_append.mp hp with hold | hnew
    · exact hs.pending p hold
    · rw [List.mem_singleton.mp hnew]
      exact hs.rendered g hg
  · intro p hp hcur x hx
    rcases List.mem_append.mp hp with hold | hnew
    · exact hs.awaited p hold hcur x (mem_starting.mp hx).1
    · rw [List.mem_singleton.mp hnew]
      exact (mem_starting.mp hx).2

/-- Sending moves a session along its line, whichever handle is used. -/
theorem Inv.encrypted {s : Component} (hs : Inv demoKey s) (g : GroupHandle) (p : Term) :
    Inv demoKey { s with world := (groupEncrypt s.world g p).1 } := by
  rcases groupEncrypt_cases s.world g p with he | ⟨u, hu, hset, hrng⟩
  · rw [he]
    exact hs
  obtain ⟨h, t, hh, ht, hfits⟩ := hs.session
  have hlen : (groupEncrypt s.world g p).1.sessions.length = s.world.sessions.length := by
    rw [hset, List.length_set]
  have hlt := (List.getElem?_eq_some_iff.mp ht).1
  refine ⟨hs.dated.groupEncrypt g p, ?_, ?_, ⟨hs.lists.persisted, hs.lists.removed_key,
    hs.lists.removed_id, hs.lists.added, hs.lists.addedNames⟩, ?_, ?_, hs.awaited⟩
  · intro k hk
    exact (hs.held k hk).mono hrng
  · by_cases heq : g.ptr = h.ptr
    · obtain rfl : u = t := by
        rw [heq] at hu
        exact Option.some.inj (hu.symm.trans ht)
      refine ⟨h, u.encryptAs p s.world.rng, hh, ?_, ?_⟩
      · show (groupEncrypt s.world g p).1.sessions[h.ptr]? = some (u.encryptAs p s.world.rng)
        rw [hset, heq, List.getElem?_set_self hlt]
      · refine ⟨?_, ?_, ?_, ?_⟩
        · rw [Tracked.encryptAs, encryptFrame_members]
          exact hfits.roster
        · rw [Tracked.encryptAs, encryptFrame_members]
          exact hfits.added
        · rw [Tracked.encryptAs, encryptFrame_members]
          exact hfits.addedNames
        · rw [Tracked.encryptAs_origin]
          exact hfits.younger
    · refine ⟨h, t, hh, ?_, ⟨hfits.roster, hfits.added, hfits.addedNames, hfits.younger⟩⟩
      show (groupEncrypt s.world g p).1.sessions[h.ptr]? = some t
      rw [hset, List.getElem?_set_ne heq]
      exact ht
  · intro c hc
    show c.ptr < (groupEncrypt s.world g p).1.sessions.length ∧ _
    rw [hlen]
    exact hs.rendered c hc
  · intro c hc
    show c.group.ptr < (groupEncrypt s.world g p).1.sessions.length ∧ _
    rw [hlen]
    exact hs.pending c hc

/-! ## Steps that change the membership -/

/-- A new session is installed under a new handle. -/
structure Installs (s s' : Component) (t : Tracked) : Prop where
  sessions : s'.world.sessions = s.world.sessions ++ [t]
  group : s'.current.group = some (freshHandle s.world)
  rng : s.world.rng ≤ s'.world.rng
  held : s'.ghost.held = s.ghost.held
  rendered : s'.rendered = s.rendered
  pending : s'.pending = s.pending

/-- Whatever was captured before was captured with an OLD handle. -/
theorem Installs.outdates {s s' : Component} {t : Tracked} (h : Installs s s' t) {g : GroupHandle}
    {l : List RealMember} (hg : Captured s g l) : s'.current.group ≠ some g := by
  rw [h.group]
  intro heq
  have hptr : s.world.sessions.length = g.ptr := congrArg GroupHandle.ptr (Option.some.inj heq)
  have hlt := hg.1
  omega

/-- So nothing has to be known about it. -/
theorem Installs.captured {s s' : Component} {t : Tracked} (h : Installs s s' t) {g : GroupHandle}
    {l : List RealMember} (hg : Captured s g l) : Captured s' g l := by
  refine ⟨?_, fun heq => absurd heq (h.outdates hg)⟩
  have hlt := hg.1
  rw [h.sessions, List.length_append]
  omega

/-- **What is left to show of a membership change**: the new session fits the new lists. -/
theorem Installs.inv {s s' : Component} {t : Tracked} (h : Installs s s' t) (hs : Inv demoKey s)
    (hdated : Dated s'.world) (hlists : Lists demoKey s') (hfits : Fits demoKey s' t) :
    Inv demoKey s' where
  dated := hdated
  held := by
    rw [h.held]
    intro k hk
    exact (hs.held k hk).mono h.rng
  session := by
    refine ⟨freshHandle s.world, t, h.group, ?_, hfits⟩
    rw [h.sessions, freshHandle]
    exact List.getElem?_concat_length
  lists := hlists
  rendered := by
    rw [h.rendered]
    intro g hg
    exact h.captured (hs.rendered g hg)
  pending := by
    rw [h.pending]
    intro p hp
    exact h.captured (hs.pending p hp)
  awaited := by
    rw [h.pending]
    intro p hp hg
    exact absurd hg (h.outdates (hs.pending p hp))

/-- The session behind the current handle. -/
theorem Inv.fits {s : Component} (hs : Inv demoKey s) {g : GroupHandle}
    (hg : s.current.group = some g) :
    ∃ t, s.world.sessions[g.ptr]? = some t ∧ Fits demoKey s t := by
  obtain ⟨h, t, hh, ht, hfits⟩ := hs.session
  obtain rfl : h = g := Option.some.inj (hh.symm.trans hg)
  exact ⟨t, ht, hfits⟩

/-- A peer is enrolled in the current group: nobody removed had its ID or its key. -/
theorem Inv.enroll {s : Component} (hs : Inv demoKey s) {g : GroupHandle}
    (hg : s.current.group = some g) {m : RealMember}
    (hid : ∀ x ∈ s.ghost.removals, x.member.recipientId ≠ m.recipientId)
    (hkey : ∀ x ∈ s.ghost.removals, x.member.publicBytes ≠ m.publicBytes) :
    Inv demoKey (s.enroll g s.current.realMembers m) := by
  obtain ⟨t, ht, hfits⟩ := hs.fits hg
  have hkeys : ∀ k, k ∈ (s.enroll g s.current.realMembers m).current.keys demoKey ↔
      k ∈ s.current.keys demoKey ∨ k = m.publicBytes := by
    intro k
    simp only [Component.enroll, View.keys, List.map_append, List.mem_append, List.map_cons,
      List.map_nil, List.mem_singleton]
    tauto
  have h : Installs s (s.enroll g s.current.realMembers m) (t.addMember m.publicBytes) := by
    refine ⟨?_, rfl, ?_, rfl, rfl, rfl⟩
    · rw [Component.enroll, groupAddMember_world ht]
      rfl
    · rw [Component.enroll, groupAddMember_world ht]
      exact Nat.le_refl _
  refine h.inv hs (hs.dated.groupAddMember g m.publicBytes) ⟨rfl, ?_, ?_, ?_, ?_⟩ ⟨?_, ?_, ?_, ?_⟩
  · intro x hx hin
    rcases (hkeys _).mp hin with hold | hnew
    · exact hs.lists.removed_key x hx hold
    · exact hkey x hx hnew
  · intro x hx m' hm'
    rcases List.mem_append.mp hm' with hold | hnew
    · exact hs.lists.removed_id x hx m' hold
    · rw [List.mem_singleton.mp hnew]
      exact (hid x hx).symm
  · intro m' hm'
    rcases List.mem_append.mp hm' with hold | hnew
    · exact List.mem_append_left _ (hs.lists.added m' hold)
    · exact List.mem_append_right _ hnew
  · exact hs.lists.addedNames
  · intro k hk
    rcases List.mem_append.mp hk with hold | hnew
    · exact (hkeys k).mpr (.inl (hfits.roster k hold))
    · exact (hkeys k).mpr (.inr (List.mem_singleton.mp hnew))
  · intro m' hm'
    rcases List.mem_append.mp hm' with hold | hnew
    · exact List.mem_append_left _ (hfits.added m' hold)
    · rw [List.mem_singleton.mp hnew]
      exact List.mem_append_right _ (List.mem_singleton.mpr rfl)
  · intro name hname
    exact List.mem_append_left _ (hfits.addedNames name hname)
  · exact hfits.younger

/-- A demo member added from the current handle joins the roster, and no removed peer comes in by his key. -/
theorem Inv.addMember {s : Component} (hs : Inv demoKey s) {name : String}
    (hcur : OnCurrent s) (hkey : Admissible s none (demoKey name)) :
    Inv demoKey (s.addMember demoKey name) := by
  rw [Component.addMember]
  cases hg : s.rendered.group with
  | none => exact hs
  | some g =>
    dsimp only
    split
    · exact hs
    obtain ⟨t, ht, hfits⟩ := hs.fits (hcur.symm.trans hg)
    refine Installs.inv (s := s) (t := t.addMember (demoKey name)) ⟨?_, rfl, ?_, rfl, rfl, rfl⟩ hs
      (hs.dated.groupAddMember g (demoKey name)) ⟨hs.lists.persisted, ?_, hs.lists.removed_id,
        hs.lists.added, ?_⟩ ⟨?_, ?_, ?_, hfits.younger⟩
    · rw [groupAddMember_world ht]
      rfl
    · rw [groupAddMember_world ht]
      exact Nat.le_refl _
    · intro x hx hin
      rcases mem_keys.mp hin with ⟨m, hm, heq⟩ | ⟨n, hn, heq⟩
      · exact hs.lists.removed_key x hx (mem_keys.mpr (.inl ⟨m, hm, heq⟩))
      · rcases List.mem_append.mp hn with hold | hnew
        · exact hs.lists.removed_key x hx (mem_keys.mpr (.inr ⟨n, hold, heq⟩))
        · rw [List.mem_singleton.mp hnew] at heq
          exact absurd (hkey x hx heq.symm) (Option.some_ne_none _)
    · intro n hn
      rcases List.mem_append.mp hn with hold | hnew
      · exact List.mem_append_left _ (hs.lists.addedNames n hold)
      · exact List.mem_append_right _ hnew
    · intro k hk
      rcases List.mem_append.mp hk with hold | hnew
      · rcases mem_keys.mp (hfits.roster k hold) with hreal | ⟨n, hn, heq⟩
        · exact mem_keys.mpr (.inl hreal)
        · exact mem_keys.mpr (.inr ⟨n, List.mem_append_left _ hn, heq⟩)
      · refine mem_keys.mpr (.inr ⟨name, List.mem_append_right _ (List.mem_singleton.mpr rfl), ?_⟩)
        exact (List.mem_singleton.mp hnew).symm
    · intro m hm
      exact List.mem_append_left _ (hfits.added m hm)
    · intro n hn
      rcases List.mem_append.mp hn with hold | hnew
      · exact List.mem_append_left _ (hfits.addedNames n hold)
      · rw [List.mem_singleton.mp hnew]
        exact List.mem_append_right _ (List.mem_singleton.mpr rfl)

/-- A session whose chain key has just been drawn is younger than every removal so far. -/
theorem Inv.younger_of_drawn {s : Component} (hs : Inv demoKey s) {t t' : Tracked}
    (ht : t ∈ s.world.sessions) (hfits : Fits demoKey s t)
    (ho : t'.line.origin = .drawn s.world.rng) {x : Removal} (hx : x ∈ s.ghost.removals) :
    ∃ mark n, mark ≤ n ∧ t'.line.origin = .drawn n ∧ ∀ k ∈ x.older, Before mark k := by
  obtain ⟨mark, n, hle, hn, hold⟩ := hfits.younger x hx
  have hlt : n < s.world.rng := (hs.dated t ht).2 n hn
  exact ⟨mark, s.world.rng, by omega, ho, hold⟩

/-- A demo member removed from the current handle leaves the roster, as nobody else has his key. -/
theorem Inv.removeMember {s : Component} (hs : Inv demoKey s) {name : String}
    (hcur : OnCurrent s) (halone : AloneName demoKey s name) :
    Inv demoKey (s.removeMember demoKey name) := by
  rw [Component.removeMember]
  cases hg : s.rendered.group with
  | none => exact hs
  | some g =>
    dsimp only
    split
    · exact hs
    obtain ⟨t, ht, hfits⟩ := hs.fits (hcur.symm.trans hg)
    have hmembers : ∀ k, k ∈ (t.removeMember (demoKey name) s.world.rng).session.members ↔
        k ∈ t.session.members ∧ k ≠ demoKey name :=
      fun k => mem_removeMember symbolic t.session (demoKey name) k s.world.rng
    refine Installs.inv (s := s) (t := t.removeMember (demoKey name) s.world.rng)
      ⟨?_, rfl, ?_, rfl, rfl, rfl⟩ hs (hs.dated.groupRemoveMember g (demoKey name))
      ⟨hs.lists.persisted, ?_, hs.lists.removed_id, hs.lists.added, ?_⟩ ⟨?_, ?_, ?_, ?_⟩
    · rw [groupRemoveMember_world ht]
      rfl
    · rw [groupRemoveMember_world ht]
      exact Nat.le_succ _
    · intro x hx hin
      rcases mem_keys.mp hin with hreal | ⟨n, hn, heq⟩
      · exact hs.lists.removed_key x hx (mem_keys.mpr (.inl hreal))
      · exact hs.lists.removed_key x hx (mem_keys.mpr (.inr ⟨n, List.mem_of_mem_filter hn, heq⟩))
    · intro n hn
      have hmem := List.mem_filter.mp hn
      exact List.mem_filter.mpr ⟨hs.lists.addedNames n hmem.1, hmem.2⟩
    · intro k hk
      obtain ⟨hold, hne⟩ := (hmembers k).mp hk
      rcases mem_keys.mp (hfits.roster k hold) with hreal | ⟨n, hn, heq⟩
      · exact mem_keys.mpr (.inl hreal)
      · refine mem_keys.mpr (.inr ⟨n, List.mem_filter.mpr ⟨hn, decide_eq_true ?_⟩, heq⟩)
        rintro rfl
        exact hne heq.symm
    · intro m hm
      have hother := halone.1 m (hs.lists.added m hm)
      exact (hmembers _).mpr ⟨hfits.added m hm, hother⟩
    · intro n hn
      obtain ⟨hold, hne⟩ := List.mem_filter.mp hn
      refine (hmembers _).mpr ⟨hfits.addedNames n hold, ?_⟩
      intro heq
      exact of_decide_eq_true hne (halone.2 n (hs.lists.addedNames n hold) heq)
    · intro x hx
      exact hs.younger_of_drawn (List.mem_of_getElem? ht) hfits rfl hx

/-- The member a handler finds is in the list and has the recipient ID it looked for. -/
theorem findPeer_eq_some {l : List RealMember} {r : String} {m : RealMember}
    (h : findPeer l r = some m) : m ∈ l ∧ m.recipientId = r := by
  rw [findPeer] at h
  exact ⟨List.mem_of_find?_eq_some h, by simpa using List.find?_some h⟩

/-- Whoever is left when a peer is taken out differs from it in ID and in key. -/
theorem Alone.left {s : Component} {m m' : RealMember} (h : Alone demoKey s m)
    (hm' : m' ∈ s.current.realMembers.filter fun x => decide (x.recipientId ≠ m.recipientId)) :
    m' ∈ s.current.realMembers ∧ m'.recipientId ≠ m.recipientId ∧
      m'.publicBytes ≠ m.publicBytes := by
  obtain ⟨hold, hne⟩ := List.mem_filter.mp hm'
  refine ⟨hold, of_decide_eq_true hne, fun heq => of_decide_eq_true hne ?_⟩
  rw [h.1 m' hold (.inr heq)]

/-- A peer removed from the current handle leaves the roster and the lists together; the new chain key is younger than
    all that he has seen. -/
theorem Inv.removePeer {s : Component} (hs : Inv demoKey s) {r : String} (hcur : OnCurrent s)
    (halone : ∀ m ∈ findPeer s.current.realMembers r, Alone demoKey s m) :
    Inv demoKey (s.removePeer r) := by
  rw [Component.removePeer]
  cases hg : s.rendered.group with
  | none => exact hs
  | some g =>
    have hlist : s.rendered.realMembers = s.current.realMembers :=
      (hs.rendered g hg).2 (hcur.symm.trans hg)
    rw [hlist]
    dsimp only
    cases hfind : s.current.realMembers.find? (fun m => decide (m.recipientId = r)) with
    | none => exact hs
    | some m =>
      obtain ⟨-, rfl⟩ := findPeer_eq_some hfind
      have hm : Alone demoKey s m := halone m hfind
      obtain ⟨t, ht, hfits⟩ := hs.fits (hcur.symm.trans hg)
      have hmembers : ∀ k, k ∈ (t.removeMember m.publicBytes s.world.rng).session.members ↔
          k ∈ t.session.members ∧ k ≠ m.publicBytes :=
        fun k => mem_removeMember symbolic t.session m.publicBytes k s.world.rng
      dsimp only
      refine Installs.inv (s := s) (t := t.removeMember m.publicBytes s.world.rng)
        ⟨?_, rfl, ?_, rfl, rfl, rfl⟩ hs (hs.dated.groupRemoveMember g m.publicBytes)
        ⟨rfl, ?_, ?_, ?_, hs.lists.addedNames⟩ ⟨?_, ?_, ?_, ?_⟩
      · rw [groupRemoveMember_world ht]
        rfl
      · rw [groupRemoveMember_world ht]
        exact Nat.le_succ _
      · intro x hx hin
        rcases List.mem_append.mp hx with hold | hnew
        · refine hs.lists.removed_key x hold ?_
          rcases mem_keys.mp hin with ⟨m', hm', heq⟩ | hname
          · exact mem_keys.mpr (.inl ⟨m', (hm.left hm').1, heq⟩)
          · exact mem_keys.mpr (.inr hname)
        · rw [List.mem_singleton.mp hnew] at hin
          rcases mem_keys.mp hin with ⟨m', hm', heq⟩ | ⟨n, hn, heq⟩
          · exact (hm.left hm').2.2 heq
          · exact hm.2 n hn heq
      · intro x hx m' hm'
        rcases List.mem_append.mp hx with hold | hnew
        · exact hs.lists.removed_id x hold m' (hm.left hm').1
        · rw [List.mem_singleton.mp hnew]
          exact (hm.left hm').2.1
      · intro m' hm'
        obtain ⟨hold, hne⟩ := List.mem_filter.mp hm'
        exact List.mem_filter.mpr ⟨hs.lists.added m' hold, hne⟩
      · intro k hk
        obtain ⟨hold, hne⟩ := (hmembers k).mp hk
        rcases mem_keys.mp (hfits.roster k hold) with ⟨m', hm', heq⟩ | hname
        · refine mem_keys.mpr (.inl ⟨m', List.mem_filter.mpr ⟨hm', decide_eq_true ?_⟩, heq⟩)
          intro hid
          rw [hm.1 m' hm' (.inl hid)] at heq
          exact hne heq.symm
        · exact mem_keys.mpr (.inr hname)
      · intro m' hm'
        obtain ⟨hold, hne⟩ := List.mem_filter.mp hm'
        have hleft := hm.left (List.mem_filter.mpr ⟨hs.lists.added m' hold, hne⟩)
        exact (hmembers _).mpr ⟨hfits.added m' hold, hleft.2.2⟩
      · intro n hn
        have hother := hm.2 n (hs.lists.addedNames n hn)
        exact (hmembers _).mpr ⟨hfits.addedNames n hn, hother⟩
      · intro x hx
        rcases List.mem_append.mp hx with hold | hnew
        · exact hs.younger_of_drawn (List.mem_of_getElem? ht) hfits rfl hold
        · rw [List.mem_singleton.mp hnew]
          exact ⟨s.world.rng, s.world.rng, Nat.le_refl _, rfl, hs.held⟩

/-- A known peer is added again, from the current handle. -/
theorem Inv.reEnroll {s : Component} (hs : Inv demoKey s) {g : GroupHandle} {m : RealMember}
    (hg : s.rendered.group = some g) (hcur : OnCurrent s)
    (hkey : Admissible s (some m.recipientId) m.publicBytes) :
    Inv demoKey (((s.starting m.recipientId).enroll g s.rendered.realMembers m).unremove
      m.recipientId) := by
  have hlist : s.rendered.realMembers = s.current.realMembers :=
    (hs.rendered g hg).2 (hcur.symm.trans hg)
  rw [hlist]
  -- `unremove` first: the two write different parts of the state
  refine Inv.enroll (s := (s.starting m.recipientId).unremove m.recipientId)
    ((hs.starting m.recipientId).unremove m.recipientId) (hcur.symm.trans hg) ?_ ?_
  · intro x hx
    exact (mem_starting.mp hx).2
  · intro x hx heq
    obtain ⟨hold, hne⟩ := mem_starting.mp hx
    exact hne (Option.some.inj (hkey x hold heq))

/-- A peer added again comes back into the roster and the lists together, and his removal is no longer to be kept. -/
theorem Inv.reAddPeer {s : Component} (hs : Inv demoKey s) {r : String}
    (hok : Timely demoKey s (.reAddPeer r)) : Inv demoKey (s.reAddPeer r) := by
  rw [Component.reAddPeer]
  cases hg : s.rendered.group with
  | none => exact hs
  | some g =>
    dsimp only
    cases hfind : s.rendered.removedRealMembers.find? (fun m => decide (m.recipientId = r)) with
    | none => exact hs
    | some m =>
      obtain ⟨-, rfl⟩ := findPeer_eq_some hfind
      obtain ⟨hcur, hkey⟩ := hok m hfind
      exact hs.reEnroll hg hcur hkey

/-- `addPeer` up to its await: it either adds a removed peer again or only remembers what it will need. -/
theorem Inv.addPeer {s : Component} (hs : Inv demoKey s) (hok : Timely demoKey s .addPeer) :
    Inv demoKey s.addPeer := by
  rw [Component.addPeer]
  cases hg : s.rendered.group with
  | none => exact hs
  | some g =>
    dsimp only
    split
    · exact hs
    split
    · exact hs
    cases hfind : s.rendered.removedRealMembers.find?
        (fun m => decide (m.recipientId = jsTrim s.rendered.peerIdInput)) with
    | none => exact hs.lookup hg _
    | some m =>
      have hid := (findPeer_eq_some hfind).2
      obtain ⟨hcur, hkey⟩ := hok m hfind
      dsimp only
      rw [← hid]
      exact (hs.reEnroll hg hcur hkey).form "" s.current.addingPeer

/-- `addPeer` after its await works with the group it captured, which in a timely run is the current one still. -/
theorem Inv.resume {s : Component} (hs : Inv demoKey s) {i : Nat} {key : Option Term}
    (hok : Timely demoKey s (.resume i key)) : Inv demoKey (s.resume i key) := by
  rw [Component.resume]
  cases hp : s.pending[i]? with
  | none => exact hs
  | some p =>
    cases key with
    | none => exact (hs.returned i).form s.current.peerIdInput false
    | some key =>
      obtain ⟨hcur, hkey⟩ := hok p hp
      have hmem := List.mem_of_getElem? hp
      have hid := hs.awaited p hmem hcur
      have hlist : p.realMembers = s.current.realMembers := (hs.pending p hmem).2 hcur
      have hfresh : ∀ x ∈ s.ghost.removals, x.member.publicBytes ≠ key := by
        intro x hx heq
        exact hid x hx (Option.some.inj (hkey x hx heq))
      dsimp only
      rw [hlist]
      exact Inv.form ((hs.returned i).enroll hcur (m := ⟨p.trimmedId, key⟩) hid hfresh) "" false

/-- A message ratchets the chain key of the current session in place; members and lists stay. -/
theorem Inv.send {s : Component} (hs : Inv demoKey s) (p : Term) : Inv demoKey (s.send p) := by
  rw [Component.send]
  cases s.rendered.group with
  | none => exact hs
  | some g => exact hs.encrypted g p

/-! ## Whole runs -/

/-- A timely action keeps the invariant. -/
theorem Inv.step {s : Component} {a : UiAction} (hs : Inv demoKey s) (hok : Timely demoKey s a) :
    Inv demoKey (s.step demoKey a) := by
  refine Inv.recordKeys ?_
  cases a with
  | render => exact hs.render
  | setPeerIdInput text => exact hs.form text s.current.addingPeer
  | addMember name => exact hs.addMember hok.1 hok.2
  | removeMember name => exact hs.removeMember hok.1 hok.2
  | addPeer => exact hs.addPeer hok
  | resume i key => exact hs.resume hok
  | removePeer r => exact hs.removePeer hok.1 hok.2
  | reAddPeer r => exact hs.reAddPeer hok
  | send p => exact hs.send p

theorem Dated.restoreLoop {w : World} (hw : Dated w) (h : GroupHandle) (ms : List RealMember) :
    Dated (restoreLoop w h ms).1 := by
  induction ms generalizing w h with
  | nil => exact hw
  | cons m ms ih =>
    exact ih (hw.groupAddMember h m.publicBytes)
      { h with members := (Web.groupAddMember w h m.publicBytes).2.members }

/-- A group just created has one session, whose chain key is that of its maker's key. -/
theorem dated_created (self : Term) : Dated (groupCreate World.empty self).1 := by
  have hempty : Dated World.empty := fun t ht => absurd ht List.not_mem_nil
  exact hempty.push (Tracked.tracks_new self) (fun n hn => by simp [Tracked.new] at hn)

/-- The mounted component: dated sessions, and a current one without members. -/
theorem mount_session (self : Term) (persisted : List RealMember) :
    Dated (Component.mount self persisted).world ∧
      ∃ h, (Component.mount self persisted).current.group = some h ∧
        (Component.mount self persisted).world.sessions[h.ptr]? = some (.new self) := by
  by_cases hp : persisted = []
  · subst hp
    exact ⟨dated_created self, (groupCreate World.empty self).2, rfl, rfl⟩
  · obtain ⟨h, hgroup, hsess⟩ := restore_session World.empty self hp
    have hdated : Dated (restore World.empty self persisted).world := by
      rw [restore, if_neg (by simpa using hp)]
      exact (dated_created self).restoreLoop _ persisted
    have hmount : (Component.mount self persisted).world = (restore World.empty self persisted).world
        ∧ (Component.mount self persisted).current.group = some h := by
      simp only [Component.mount, hgroup, and_self]
    rw [hmount.1, hmount.2]
    exact ⟨hdated, h, rfl, hsess⟩

/-- A component that has just mounted keeps everything, restored members and all: nothing has been removed or added
    yet. -/
theorem inv_mount (self : Term) (persisted : List RealMember) :
    Inv demoKey (Component.mount self persisted) := by
  obtain ⟨hdated, h, hgroup, hsess⟩ := mount_session self persisted
  refine ⟨hdated, ?_, ⟨h, _, hgroup, hsess, ?_⟩, ?_, ?_, ?_, ?_⟩
  · intro k hk
    obtain ⟨t, ht, rfl⟩ := List.mem_map.mp hk
    exact hdated.before ht
  · exact ⟨fun k hk => absurd hk List.not_mem_nil, fun m hm => absurd hm List.not_mem_nil,
      fun n hn => absurd hn List.not_mem_nil, fun x hx => absurd hx List.not_mem_nil⟩
  · exact ⟨rfl, fun x hx => absurd hx List.not_mem_nil, fun x hx => absurd hx List.not_mem_nil,
      fun m hm => absurd hm List.not_mem_nil, fun n hn => absurd hn List.not_mem_nil⟩
  · intro g hg
    obtain rfl : h = g := Option.some.inj (hgroup.symm.trans hg)
    exact ⟨(List.getElem?_eq_some_iff.mp hsess).1, fun _ => rfl⟩
  · intro p hp
    exact absurd hp List.not_mem_nil
  · intro p hp
    exact absurd hp List.not_mem_nil

/-- **Membership changes do not undo one another** in any state of a run of timely actions, however
    they interleave.  That every action is timely is sufficient, not exact: the second of two clicks on the
    same demo member, made before the screen is drawn again, is late and undoes nothing. -/
theorem membership_kept (demoKey : String → Term) (self : Term) (persisted : List RealMember)
    (acts : List UiAction)
    (h : Meets (Component.step demoKey) (Timely demoKey) (Component.mount self persisted) acts)
    (past : List UiAction) (hpast : past <+: acts) :
    MembershipKept demoKey
      (run (Component.step demoKey) (Component.mount self persisted) past) :=
  (meets_inv (fun _ _ hs hok => hs.step hok) (inv_mount self persisted) (h.initial hpast)).kept

/-- Keys for the demo members. -/
def sampleKey (name : String) : Term :=
  if name = "Alice" then .pub 10 else if name = "Bob" then .pub 11 else .pub 12

/-- Bob looked up and added, Alice added while the message to both is sent, Bob removed, Carol
    looked up and added, Alice removed, Bob added again: all in time, from a restored group. -/
def inTurn : List UiAction :=
  [.setPeerIdInput " bob", .render, .addPeer, .render, .resume 0 (some (.pub 1)), .render,
   .addMember "Alice", .send (.data [104, 105]), .render, .removePeer "bob", .render,
   .setPeerIdInput "carol", .render, .addPeer, .send (.data [121, 111]), .resume 0 (some (.pub 2)),
   .render, .removeMember "Alice", .render, .reAddPeer "bob"]

/-- After these actions the roster is Carol and Bob, and all of the membership is kept. -/
theorem membership_kept_in_turn :
    (run (Component.step sampleKey) (Component.mount (.pub 0) [⟨"dave", .pub 3⟩]) inTurn).roster =
        [.pub 2, .pub 1] ∧
      MembershipKept sampleKey
        (run (Component.step sampleKey) (Component.mount (.pub 0) [⟨"dave", .pub 3⟩]) inTurn) :=
  ⟨by decide +kernel,
    membership_kept sampleKey (.pub 0) [⟨"dave", .pub 3⟩] inTurn (by decide +kernel) inTurn
      List.prefix_rfl⟩

/-- Bob is removed while the lookup of Carol is under way.  When it returns, `addPeer` adds Carol to
    the group from before the removal, and Bob is back in. -/
theorem removed_peer_readmitted :
    ¬ MembershipKept sampleKey (run (Component.step sampleKey) (Component.mount (.pub 0) [])
      [.setPeerIdInput "bob", .render, .addPeer, .render, .resume 0 (some (.pub 1)), .render,
       .setPeerIdInput "carol", .render, .addPeer, .render, .removePeer "bob", .render,
       .resume 0 (some (.pub 2))]) :=
  fun h => absurd h.removed_roster (by decide +kernel)

end E2EMessaging.Web
