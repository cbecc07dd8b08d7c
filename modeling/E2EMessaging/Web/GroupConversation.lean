/-
  THE GROUP CONVERSATION COMPONENT (`clients/web/src/GroupConversation.tsx`): its membership
  handlers, as they interleave.

  A handler closes over the state of the render it was created in: what it READS is that snapshot
  (`rendered`), what it WRITES goes to the state proper (`current`) — `setX(v)` replaces,
  `setX(prev => …)` updates.  The next render makes `current` the snapshot.  `addPeer` awaits a
  lookup: what it captured before the await it still uses after it, whatever happened in between
  (`Pending`).  Any list of actions is a run: clicks, renders and lookups interleave freely.

  Removals and adds are recorded beside the component (`Ghost`); no handler reads them.
-/
import E2EMessaging.Web.Restore

namespace E2EMessaging.Web

open E2EMessaging.Lib E2EMessaging.Group

/-! ## The component -/

/-- `DEMO_MEMBER_NAMES`. -/
def demoMemberNames : List String := ["Alice", "Bob", "Eve"]

/-- What `String.prototype.trim` strips. -/
def isJsSpace (c : Char) : Bool :=
  c.toNat ∈ [9, 10, 11, 12, 13, 32, 160, 0x1680, 0x2000, 0x2001, 0x2002, 0x2003, 0x2004, 0x2005,
    0x2006, 0x2007, 0x2008, 0x2009, 0x200A, 0x2028, 0x2029, 0x202F, 0x205F, 0x3000, 0xFEFF]

/-- `String.prototype.trim`. -/
def jsTrim (s : String) : String :=
  String.ofList ((s.toList.dropWhile isJsSpace).reverse.dropWhile isJsSpace).reverse

/-- The state variables the membership handlers read and write. -/
structure View where
  group : Option GroupHandle
  memberNames : List String
  realMembers : List RealMember
  removedRealMembers : List RealMember
  peerIdInput : String
  addingPeer : Bool
  deriving Repr, DecidableEq

/-- An `addPeer` that waits for its lookup: what it captured. -/
structure Pending where
  group : GroupHandle
  realMembers : List RealMember
  trimmedId : String
  deriving Repr, DecidableEq

/-- An executed `removePeer` that no add of the same recipient has followed: the member removed, and
    every chain key any session had held by then. -/
structure Removal where
  member : RealMember
  older : List Term
  deriving Repr, DecidableEq

/-- The record kept beside the component. -/
structure Ghost where
  removals : List Removal
  /-- Real peers whose add completed and who have not been removed since. -/
  added : List RealMember
  /-- The same for demo members. -/
  addedNames : List String
  /-- Every chain key any session has held. -/
  held : List Term
  deriving Repr, DecidableEq

/-- A mounted component: the wasm heap, the state, the snapshot of the last render, the suspended
    calls, and the list last handed to `persistGroupState`. -/
structure Component where
  world : World
  current : View
  rendered : View
  pending : List Pending
  persisted : List RealMember
  ghost : Ghost
  deriving Repr, DecidableEq

/-- What can happen on a mounted component. -/
inductive UiAction where
  | render
  | setPeerIdInput (text : String)
  | addMember (name : String)
  | removeMember (name : String)
  | addPeer
  /-- The lookup of suspended call number `i` returns: the identity key of the bundle, or nothing if
      the lookup failed or the bundle is invalid. -/
  | resume (i : Nat) (identityKey : Option Term)
  | removePeer (recipientId : String)
  | reAddPeer (recipientId : String)
  | send (plaintext : Term)
  deriving Repr, DecidableEq

namespace Component

/-- The component once it has a group and has rendered it: the one restored from the persisted
    members or, there being none, the one `createGroup` creates. -/
def mount (self : Term) (persisted : List RealMember) : Component :=
  let r := restore World.empty self persisted
  let g : World × GroupHandle :=
    match r.group with
    | some h => (r.world, h)
    | none => groupCreate r.world self
  let v : View := ⟨some g.2, [], r.realMembers, [], "", false⟩
  ⟨g.1, v, v, [], r.realMembers, ⟨[], [], [], g.1.sessions.map fun t => t.session.chainKey⟩⟩

/-! ## The handlers -/

/-- `setGroup`, `setRealMembers` and `persistGroupState` with one more member, as `addPeer` and
    `reAddPeer` end: group and list are the ones they closed over. -/
def enroll (s : Component) (group : GroupHandle) (realMembers : List RealMember)
    (member : RealMember) : Component :=
  let r := groupAddMember s.world group member.publicBytes
  let updatedMembers := realMembers ++ [member]
  { s with
    world := r.1
    current := { s.current with group := some r.2, realMembers := updatedMembers }
    persisted := updatedMembers
    ghost := { s.ghost with added := s.ghost.added ++ [member] } }

/-- `setRemovedRealMembers(prev => prev.filter(…))`. -/
def unremove (s : Component) (recipientId : String) : Component :=
  { s with
    current := { s.current with
      removedRealMembers :=
        s.current.removedRealMembers.filter fun m => decide (m.recipientId ≠ recipientId) } }

/-- An add that names the recipient starts. -/
def starting (s : Component) (recipientId : String) : Component :=
  { s with
    ghost := { s.ghost with
      removals := s.ghost.removals.filter fun x => decide (x.member.recipientId ≠ recipientId) } }

/-- `addPeer`, up to its end or its `await`. -/
def addPeer (s : Component) : Component :=
  let trimmedId := jsTrim s.rendered.peerIdInput
  match s.rendered.group with
  | none => s
  | some group =>
    if trimmedId = "" ∨ s.rendered.addingPeer = true then s
    else if s.rendered.realMembers.any (fun m => decide (m.recipientId = trimmedId)) then s
    else
      match s.rendered.removedRealMembers.find? (fun m => decide (m.recipientId = trimmedId)) with
      -- the key is known from before: no lookup
      | some previouslyRemoved =>
        let s := ((s.starting trimmedId).enroll group s.rendered.realMembers
          previouslyRemoved).unremove trimmedId
        { s with current := { s.current with peerIdInput := "" } }
      | none =>
        let s := s.starting trimmedId
        { s with
          current := { s.current with addingPeer := true }
          pending := s.pending ++ [⟨group, s.rendered.realMembers, trimmedId⟩] }

/-- `addPeer` after its `await`. -/
def resume (s : Component) (i : Nat) (identityKey : Option Term) : Component :=
  match s.pending[i]? with
  | none => s
  | some p =>
    let s := { s with pending := s.pending.eraseIdx i }
    match identityKey with
    | none => { s with current := { s.current with addingPeer := false } }
    | some key =>
      -- the group and the list of the render in which the call began
      let s := s.enroll p.group p.realMembers ⟨p.trimmedId, key⟩
      { s with current := { s.current with peerIdInput := "", addingPeer := false } }

/-- `reAddPeer`. -/
def reAddPeer (s : Component) (recipientId : String) : Component :=
  match s.rendered.group with
  | none => s
  | some group =>
    match s.rendered.removedRealMembers.find? (fun m => decide (m.recipientId = recipientId)) with
    | none => s
    | some member =>
      ((s.starting recipientId).enroll group s.rendered.realMembers member).unremove recipientId

/-- `removePeer`. -/
def removePeer (s : Component) (recipientId : String) : Component :=
  match s.rendered.group with
  | none => s
  | some group =>
    match s.rendered.realMembers.find? (fun m => decide (m.recipientId = recipientId)) with
    | none => s
    | some member =>
      let r := groupRemoveMember s.world group member.publicBytes
      let updatedMembers :=
        s.rendered.realMembers.filter fun m => decide (m.recipientId ≠ recipientId)
      -- a functional update, unlike the two lists before it
      let prev := s.current.removedRealMembers
      { s with
        world := r.1
        current := { s.current with
          group := some r.2
          realMembers := updatedMembers
          removedRealMembers :=
            if prev.any (fun m => decide (m.recipientId = recipientId)) then prev
            else prev ++ [member] }
        persisted := updatedMembers
        ghost := { s.ghost with
          removals := s.ghost.removals ++ [⟨member, s.ghost.held⟩]
          added := s.ghost.added.filter fun m => decide (m.recipientId ≠ recipientId) } }

/-- `addMember`; `demoKey` are the keys generated for the demo members. -/
def addMember (demoKey : String → Term) (s : Component) (name : String) : Component :=
  match s.rendered.group with
  | none => s
  | some group =>
    if name ∈ s.rendered.memberNames ∨ name ∉ demoMemberNames then s
    else
      let r := groupAddMember s.world group (demoKey name)
      { s with
        world := r.1
        current := { s.current with
          group := some r.2, memberNames := s.current.memberNames ++ [name] }
        ghost := { s.ghost with addedNames := s.ghost.addedNames ++ [name] } }

/-- `removeMember`.  The button is there for rendered members only. -/
def removeMember (demoKey : String → Term) (s : Component) (name : String) : Component :=
  match s.rendered.group with
  | none => s
  | some group =>
    if name ∉ s.rendered.memberNames ∨ name ∉ demoMemberNames then s
    else
      let r := groupRemoveMember s.world group (demoKey name)
      { s with
        world := r.1
        current := { s.current with
          group := some r.2
          memberNames := s.current.memberNames.filter fun n => decide (n ≠ name) }
        ghost := { s.ghost with
          addedNames := s.ghost.addedNames.filter fun n => decide (n ≠ name) } }

/-- The part of `send` that touches the group: it ratchets the session of the rendered handle. -/
def send (s : Component) (plaintext : Term) : Component :=
  match s.rendered.group with
  | none => s
  | some group => { s with world := (groupEncrypt s.world group plaintext).1 }

/-- One action. -/
def act (demoKey : String → Term) (s : Component) : UiAction → Component
  | .render => { s with rendered := s.current }
  | .setPeerIdInput text => { s with current := { s.current with peerIdInput := text } }
  | .addMember name => s.addMember demoKey name
  | .removeMember name => s.removeMember demoKey name
  | .addPeer => s.addPeer
  | .resume i key => s.resume i key
  | .removePeer r => s.removePeer r
  | .reAddPeer r => s.reAddPeer r
  | .send p => s.send p

/-- Keep the record of chain keys. -/
def recordKeys (s : Component) : Component :=
  { s with
    ghost := { s.ghost with
      held := s.ghost.held ++ s.world.sessions.map fun t => t.session.chainKey } }

/-- One action, with the record of chain keys kept. -/
def step (demoKey : String → Term) (s : Component) (a : UiAction) : Component :=
  (s.act demoKey a).recordKeys

end Component

end E2EMessaging.Web
