/-
  THE USER'S IDENTITY (`loadOrGenerateIdentity` of `clients/web/src/identity.ts`), called by several
  tabs or by an effect that runs twice.

  A call reads the identity record; if there is one it is the identity, and if it is corrupt the call
  fails; if there is none the call draws an identity, WRITES it and returns it.  Reading and writing
  are atomic each, but not together: two calls can both find nothing, draw two identities, and return
  them both, while only the one written last is there after a reload (`two_calls_two_identities`).

  `identity_stable`: as long as no call reads while another that found nothing has still to write
  (`NoOverlap`), all calls return the same identity and it is the one stored.  A corrupt record makes
  every call fail and stays as it is, in every interleaving.
-/
import E2EMessaging.Lib.Run
import E2EMessaging.Relay.Base64

namespace E2EMessaging.Web

open E2EMessaging.Lib

/-! ## Identities and their record -/

/-- The identity handles of the WASM binding. -/
structure IdentityApi (Handle : Type) where
  /-- `identity_from_bytes`; it throws on malformed bytes. -/
  fromBytes : Bytes → Option Handle
  /-- `public_bytes`. -/
  publicBytes : Handle → Bytes
  /-- `private_bytes`, the serialised key pair. -/
  privateBytes : Handle → Bytes

/-- A key pair is read back from its serialisation; a public key has 33 bytes, a serialised key pair at
    least 32. -/
structure IdentityApi.Lawful {Handle : Type} (I : IdentityApi Handle) : Prop where
  fromBytes : ∀ h, I.fromBytes (I.privateBytes h) = some h
  privateLength : ∀ h, 32 ≤ (I.privateBytes h).length
  publicLength : ∀ h, (I.publicBytes h).length = 33

/-- `PersistedIdentity`. -/
structure PersistedIdentity (Handle : Type) where
  handle : Handle
  publicBytes : Bytes
  recipientId : String
  deriving Repr, DecidableEq

/-- What lies under `self` in the store `identity`. -/
inductive StoredIdentity where
  | absent
  /-- The ciphertext does not decrypt or parse. -/
  | unreadable
  /-- `null`, `false`, `0` or the empty string: a value `if (record)` takes for none. -/
  | falsy
  /-- A value without the two arrays. -/
  | malformed
  | record (privateBytes publicBytes : Bytes)
  deriving Repr, DecidableEq

/-- What a call throws. -/
inductive IdentityError where
  /-- "decryption failed" -/
  | decryptionFailed
  /-- "corrupt identity record: missing or invalid fields" -/
  | invalidFields
  /-- "corrupt identity: private bytes too short (… < 32)" -/
  | privateTooShort (length : Nat)
  /-- "corrupt identity: public bytes wrong length (…, expected 33)" -/
  | publicWrongLength (length : Nat)
  /-- `identity_from_bytes` throws. -/
  | malformedKeyPair
  /-- "corrupt identity: deserialized public bytes do not match stored record" -/
  | publicMismatch
  deriving Repr, DecidableEq

section

variable {Handle : Type}

/-- A handle with its public bytes and recipient id. -/
def persisted (I : IdentityApi Handle) (h : Handle) : PersistedIdentity Handle where
  handle := h
  publicBytes := I.publicBytes h
  recipientId := Relay.b64Encode (I.publicBytes h)

/-- `identityFromRecord`, on a record with its two arrays. -/
def identityFromRecord (I : IdentityApi Handle) (privateBytes publicBytes : Bytes) :
    Except IdentityError (PersistedIdentity Handle) :=
  if privateBytes.length < 32 then .error (.privateTooShort privateBytes.length)
  else if publicBytes.length ≠ 33 then .error (.publicWrongLength publicBytes.length)
  else
    match I.fromBytes privateBytes with
    | none => .error .malformedKeyPair
    | some handle =>
      if I.publicBytes handle ≠ publicBytes then .error .publicMismatch
      else .ok (persisted I handle)

/-- `gate.get` and what `loadOrGenerateIdentity` makes of it: an identity, nothing, or an error. -/
def readIdentity (I : IdentityApi Handle) :
    StoredIdentity → Except IdentityError (Option (PersistedIdentity Handle))
  | .absent => .ok none
  | .falsy => .ok none
  | .unreadable => .error .decryptionFailed
  | .malformed => .error .invalidFields
  | .record privateBytes publicBytes =>
    match identityFromRecord I privateBytes publicBytes with
    | .error e => .error e
    | .ok id => .ok (some id)

/-- The record of a new identity. -/
def recordOf (I : IdentityApi Handle) (h : Handle) : StoredIdentity :=
  .record (I.privateBytes h) (I.publicBytes h)

/-! ## Calls in any order -/

/-- How far a call has got. -/
inductive IdentityCall (Handle : Type) where
  | started
  /-- It found nothing, drew an identity, and has still to write it. -/
  | generated (h : Handle)
  | returned (id : PersistedIdentity Handle)
  | failed
  deriving Repr, DecidableEq

/-- The store and the calls on it. -/
structure IdentityTabs (Handle : Type) where
  store : StoredIdentity
  calls : List (IdentityCall Handle)
  deriving Repr, DecidableEq

inductive IdentityAct (Handle : Type) where
  | call
  /-- `gate.get` of a call returns; `drawn` is what `generate_identity` draws if it is asked. -/
  | read (i : Nat) (drawn : Handle)
  | readFailed (i : Nat)
  /-- `gate.put` of a call is done. -/
  | write (i : Nat)
  | writeFailed (i : Nat)
  deriving Repr, DecidableEq

/-- The call behind its `gate.get`. -/
def IdentityCall.afterRead (I : IdentityApi Handle) (store : StoredIdentity) (drawn : Handle) :
    IdentityCall Handle :=
  match readIdentity I store with
  | .error _ => .failed
  | .ok (some id) => .returned id
  | .ok none => .generated drawn

/-- The call is now at `c`. -/
def IdentityTabs.advance (s : IdentityTabs Handle) (i : Nat) (c : IdentityCall Handle) :
    IdentityTabs Handle :=
  { s with calls := s.calls.modify i fun _ => c }

/-- One step. -/
def IdentityTabs.step (I : IdentityApi Handle) (s : IdentityTabs Handle) :
    IdentityAct Handle → IdentityTabs Handle
  | .call => { s with calls := s.calls ++ [.started] }
  | .read i drawn =>
    match s.calls[i]? with
    | some .started => s.advance i (.afterRead I s.store drawn)
    | _ => s
  | .readFailed i =>
    match s.calls[i]? with
    | some .started => s.advance i .failed
    | _ => s
  | .write i =>
    match s.calls[i]? with
    | some (.generated h) =>
      { s.advance i (.returned (persisted I h)) with store := recordOf I h }
    | _ => s
  | .writeFailed i =>
    match s.calls[i]? with
    | some (.generated _) => s.advance i .failed
    | _ => s

/-- Nothing called yet. -/
def IdentityTabs.new (store : StoredIdentity) : IdentityTabs Handle where
  store := store
  calls := []

/-- The call has found nothing and has still to write. -/
def IdentityCall.writes : IdentityCall Handle → Bool
  | .generated _ => true
  | _ => false

/-- No call reads while another that found nothing has still to write. -/
def NoOverlap (s : IdentityTabs Handle) : IdentityAct Handle → Prop
  | .read _ _ => ∀ c ∈ s.calls, c.writes = false
  | _ => True

/-! ## One identity -/

variable {I : IdentityApi Handle}

/-- The record of an identity is read as that identity. -/
theorem readIdentity_recordOf (hI : I.Lawful) (h : Handle) :
    readIdentity I (recordOf I h) = .ok (some (persisted I h)) := by
  have hpriv := hI.privateLength h
  have hid : identityFromRecord I (I.privateBytes h) (I.publicBytes h) = .ok (persisted I h) := by
    rw [identityFromRecord, if_neg (by omega), if_neg (fun hne => hne (hI.publicLength h)),
      hI.fromBytes]
    exact if_neg (fun hne => hne rfl)
  rw [recordOf, readIdentity, hid]

/-- Either the record is the first one still, and at most one call is about to write the first; or one
    identity has been written, and all that has been returned is that. -/
def IdentityTabs.Inv (I : IdentityApi Handle) (store₀ : StoredIdentity) (s : IdentityTabs Handle) : Prop :=
  (s.store = store₀ ∧
    (∀ (i : Nat) (id : PersistedIdentity Handle), s.calls[i]? = some (.returned id) →
      readIdentity I store₀ = .ok (some id)) ∧
    (∀ (i : Nat) (h : Handle), s.calls[i]? = some (.generated h) → readIdentity I store₀ = .ok none) ∧
    (∀ (i j : Nat) (h h' : Handle), s.calls[i]? = some (.generated h) →
      s.calls[j]? = some (.generated h') → i = j)) ∨
  (readIdentity I store₀ = .ok none ∧ ∃ h, s.store = recordOf I h ∧
    (∀ (i : Nat) (id : PersistedIdentity Handle), s.calls[i]? = some (.returned id) →
      id = persisted I h) ∧
    (∀ (i : Nat) (h' : Handle), s.calls[i]? ≠ some (.generated h')))

variable {store₀ : StoredIdentity} {s : IdentityTabs Handle}

/-- Where the calls are after one has advanced. -/
theorem IdentityTabs.advance_calls {i k : Nat} {c b : IdentityCall Handle}
    (h : (s.advance i c).calls[k]? = some b) : (k = i ∧ b = c) ∨ (k ≠ i ∧ s.calls[k]? = some b) := by
  rcases getElem?_modify_eq_some.mp h with ⟨hk, a, -, hb⟩ | ⟨hk, hb⟩
  · exact .inl ⟨hk, hb⟩
  · exact .inr ⟨hk, hb⟩

theorem IdentityTabs.Inv.new (store₀ : StoredIdentity) :
    (IdentityTabs.new store₀ : IdentityTabs Handle).Inv I store₀ :=
  .inl ⟨rfl, fun _ _ h => (by cases h), fun _ _ h => (by cases h), fun _ _ _ _ h => (by cases h)⟩

/-- The invariant stays when nothing returns and nobody gets ready to write. -/
theorem IdentityTabs.Inv.of_calls (h : s.Inv I store₀) {s' : IdentityTabs Handle}
    (hstore' : s'.store = s.store)
    (hret : ∀ (k : Nat) id, s'.calls[k]? = some (.returned id) → s.calls[k]? = some (.returned id))
    (hgen : ∀ (k : Nat) h, s'.calls[k]? = some (.generated h) → s.calls[k]? = some (.generated h)) :
    s'.Inv I store₀ := by
  rcases h with ⟨hstore, hids, hgens, hone⟩ | ⟨hnone, h, hstore, hids, hgens⟩
  · exact .inl ⟨hstore'.trans hstore, fun k id hk => hids k id (hret k id hk),
      fun k h hk => hgens k h (hgen k h hk),
      fun j k h h' hj hk => hone j k h h' (hgen j h hj) (hgen k h' hk)⟩
  · exact .inr ⟨hnone, h, hstore'.trans hstore, fun k id hk => hids k id (hret k id hk),
      fun k h' hk => hgens k h' (hgen k h' hk)⟩

theorem IdentityTabs.Inv.call (h : s.Inv I store₀) :
    ({ s with calls := s.calls ++ [.started] } : IdentityTabs Handle).Inv I store₀ := by
  refine h.of_calls ?_ ?_ ?_
  · rfl
  · intro k id hk
    rcases getElem?_concat_eq_some.mp hk with hk | ⟨-, heq⟩
    · exact hk
    · cases heq
  · intro k h hk
    rcases getElem?_concat_eq_some.mp hk with hk | ⟨-, heq⟩
    · exact hk
    · cases heq

/-- A call that fails changes nothing for the others. -/
theorem IdentityTabs.Inv.fail (h : s.Inv I store₀) (i : Nat) :
    (s.advance i .failed).Inv I store₀ := by
  refine h.of_calls ?_ ?_ ?_
  · rfl
  · intro k id hk
    rcases IdentityTabs.advance_calls hk with ⟨-, heq⟩ | ⟨-, hk⟩
    · cases heq
    · exact hk
  · intro k h hk
    rcases IdentityTabs.advance_calls hk with ⟨-, heq⟩ | ⟨-, hk⟩
    · cases heq
    · exact hk

/-- A call that reads an identity returns the one everybody returns. -/
theorem IdentityTabs.Inv.find (hI : I.Lawful) (h : s.Inv I store₀) (i : Nat)
    {id : PersistedIdentity Handle} (hread : readIdentity I s.store = .ok (some id)) :
    (s.advance i (.returned id)).Inv I store₀ := by
  rcases h with ⟨hstore, hids, hgens, hone⟩ | ⟨hnone, h, hstore, hids, hgens⟩
  · rw [hstore] at hread
    refine .inl ⟨hstore, ?_, ?_, ?_⟩
    · intro k id' hk
      rcases IdentityTabs.advance_calls hk with ⟨-, heq⟩ | ⟨-, hk⟩
      · cases heq
        exact hread
      · exact hids k id' hk
    · intro k h hk
      rcases IdentityTabs.advance_calls hk with ⟨-, heq⟩ | ⟨-, hk⟩
      · cases heq
      · exact hgens k h hk
    · intro j k h h' hj hk
      rcases IdentityTabs.advance_calls hj with ⟨-, heq⟩ | ⟨-, hj⟩
      · cases heq
      · rcases IdentityTabs.advance_calls hk with ⟨-, heq⟩ | ⟨-, hk⟩
        · cases heq
        · exact hone j k h h' hj hk
  · rw [hstore, readIdentity_recordOf hI] at hread
    cases hread
    refine .inr ⟨hnone, h, hstore, ?_, ?_⟩
    · intro k id' hk
      rcases IdentityTabs.advance_calls hk with ⟨-, heq⟩ | ⟨-, hk⟩
      · cases heq
        rfl
      · exact hids k id' hk
    · intro k h' hk
      rcases IdentityTabs.advance_calls hk with ⟨-, heq⟩ | ⟨-, hk⟩
      · cases heq
      · exact hgens k h' hk

/-- A call that finds nothing, while no other is about to write, is the only one about to write. -/
theorem IdentityTabs.Inv.generate (hI : I.Lawful) (h : s.Inv I store₀) (i : Nat) (drawn : Handle)
    (hread : readIdentity I s.store = .ok none) (hok : ∀ c ∈ s.calls, c.writes = false) :
    (s.advance i (.generated drawn)).Inv I store₀ := by
  have hnone : ∀ {k : Nat} {h : Handle}, s.calls[k]? ≠ some (.generated h) := by
    intro k h hk
    have hwrites := hok _ (List.mem_of_getElem? hk)
    cases hwrites
  rcases h with ⟨hstore, hids, -, -⟩ | ⟨-, h, hstore, -, -⟩
  · rw [hstore] at hread
    refine .inl ⟨hstore, ?_, fun _ _ _ => hread, ?_⟩
    · intro k id hk
      rcases IdentityTabs.advance_calls hk with ⟨-, heq⟩ | ⟨-, hk⟩
      · cases heq
      · exact hids k id hk
    · intro j k h h' hj hk
      rcases IdentityTabs.advance_calls hj with ⟨rfl, -⟩ | ⟨-, hj⟩
      · rcases IdentityTabs.advance_calls hk with ⟨rfl, -⟩ | ⟨-, hk⟩
        · rfl
        · exact absurd hk hnone
      · exact absurd hj hnone
  · -- an identity has been written: it would have been found
    rw [hstore, readIdentity_recordOf hI] at hread
    cases hread

/-- The only call about to write writes: its identity is now everybody's. -/
theorem IdentityTabs.Inv.write (h : s.Inv I store₀) (i : Nat) {drawn : Handle}
    (hi : s.calls[i]? = some (.generated drawn)) :
    ({ s.advance i (.returned (persisted I drawn)) with store := recordOf I drawn } :
      IdentityTabs Handle).Inv I store₀ := by
  rcases h with ⟨-, hids, hgens, hone⟩ | ⟨-, h, -, -, hgens⟩
  · have hnone := hgens i drawn hi
    refine .inr ⟨hnone, drawn, rfl, ?_, ?_⟩
    · intro k id hk
      rcases IdentityTabs.advance_calls hk with ⟨-, heq⟩ | ⟨-, hk⟩
      · cases heq
        rfl
      · have hfound := hids k id hk
        rw [hnone] at hfound
        cases hfound
    · intro k h' hk
      rcases IdentityTabs.advance_calls hk with ⟨-, heq⟩ | ⟨hne, hk⟩
      · cases heq
      · exact hne (hone k i h' drawn hk hi)
  · exact absurd hi (hgens i drawn)

theorem IdentityTabs.Inv.step (hI : I.Lawful) (h : s.Inv I store₀) (a : IdentityAct Handle)
    (hok : NoOverlap s a) : (s.step I a).Inv I store₀ := by
  cases a with
  | call => exact h.call
  | read i drawn =>
    rw [IdentityTabs.step]
    split
    · rw [IdentityCall.afterRead]
      split
      · exact h.fail i
      · rename_i id hread
        exact h.find hI i hread
      · rename_i hread
        exact h.generate hI i drawn hread hok
    · exact h
  | readFailed i =>
    rw [IdentityTabs.step]
    split
    · exact h.fail i
    · exact h
  | write i =>
    rw [IdentityTabs.step]
    split
    · rename_i drawn hi
      exact h.write i hi
    · exact h
  | writeFailed i =>
    rw [IdentityTabs.step]
    split
    · exact h.fail i
    · exact h

/-- The record cannot be read as an identity. -/
def StoredIdentity.Corrupt (I : IdentityApi Handle) (store : StoredIdentity) : Prop :=
  store = .falsy ∨ ∃ e, readIdentity I store = .error e

/-- **A corrupt record stays, and no call gets past it**, in every interleaving. -/
theorem corrupt_identity_kept (I : IdentityApi Handle) {store₀ : StoredIdentity} {e : IdentityError}
    (herr : readIdentity I store₀ = .error e) (acts : List (IdentityAct Handle)) :
    (run (IdentityTabs.step I) (IdentityTabs.new store₀) acts).store = store₀ ∧
      ∀ c ∈ (run (IdentityTabs.step I) (IdentityTabs.new store₀) acts).calls,
        c = .started ∨ c = .failed := by
  have hfail : ∀ (s : IdentityTabs Handle) (i : Nat),
      (s.store = store₀ ∧ ∀ c ∈ s.calls, c = .started ∨ c = .failed) →
      (s.advance i .failed).store = store₀ ∧
        ∀ c ∈ (s.advance i .failed).calls, c = .started ∨ c = .failed := by
    rintro s i ⟨hstore, hcalls⟩
    refine ⟨hstore, fun c hc => ?_⟩
    obtain ⟨k, hk⟩ := List.mem_iff_getElem?.mp hc
    rcases IdentityTabs.advance_calls hk with ⟨-, rfl⟩ | ⟨-, hk⟩
    · exact .inr rfl
    · exact hcalls c (List.mem_of_getElem? hk)
  refine run_inv (I := fun s : IdentityTabs Handle =>
    s.store = store₀ ∧ ∀ c ∈ s.calls, c = .started ∨ c = .failed) ?_ ⟨rfl, fun c hc => (by cases hc)⟩ acts
  rintro s a h
  have hnone : ∀ {i : Nat} {h' : Handle}, s.calls[i]? ≠ some (.generated h') := by
    intro i h' hi
    rcases h.2 _ (List.mem_of_getElem? hi) with heq | heq
    · cases heq
    · cases heq
  cases a with
  | call =>
    refine ⟨h.1, fun c hc => ?_⟩
    rcases List.mem_append.mp hc with hold | hnew
    · exact h.2 c hold
    · exact .inl (List.mem_singleton.mp hnew)
  | read i drawn =>
    rw [IdentityTabs.step]
    split
    · rw [IdentityCall.afterRead, h.1, herr]
      exact hfail s i h
    · exact h
  | readFailed i =>
    rw [IdentityTabs.step]
    split
    · exact hfail s i h
    · exact h
  | write i =>
    rw [IdentityTabs.step]
    split
    · rename_i hi
      exact absurd hi hnone
    · exact h
  | writeFailed i =>
    rw [IdentityTabs.step]
    split
    · exact hfail s i h
    · exact h

/-- **The identity is stable**: in every interleaving in which no call reads while another that found
    nothing has still to write, and in every state of it, all calls that have returned returned the same
    identity, and the record is that identity's; a corrupt record is left as it is, and no call gets past
    it.  (A record with a falsy value is taken for none, and excluded.)  That no calls overlap is
    sufficient, not exact: a call that overlaps another may still fail before it writes. -/
theorem identity_stable (I : IdentityApi Handle) (hI : I.Lawful) (store₀ : StoredIdentity)
    (hfalsy : store₀ ≠ .falsy) (acts : List (IdentityAct Handle))
    (hacts : Meets (IdentityTabs.step I) NoOverlap (IdentityTabs.new store₀) acts) :
    (∀ (i j : Nat) (id id' : PersistedIdentity Handle),
      (run (IdentityTabs.step I) (IdentityTabs.new store₀) acts).calls[i]? = some (.returned id) →
      (run (IdentityTabs.step I) (IdentityTabs.new store₀) acts).calls[j]? = some (.returned id') →
      id = id') ∧
    (∀ (i : Nat) (id : PersistedIdentity Handle),
      (run (IdentityTabs.step I) (IdentityTabs.new store₀) acts).calls[i]? = some (.returned id) →
      readIdentity I (run (IdentityTabs.step I) (IdentityTabs.new store₀) acts).store = .ok (some id)) ∧
    (store₀.Corrupt I →
      (run (IdentityTabs.step I) (IdentityTabs.new store₀) acts).store = store₀ ∧
      ∀ c ∈ (run (IdentityTabs.step I) (IdentityTabs.new store₀) acts).calls,
        c = .started ∨ c = .failed) := by
  have hinv := meets_inv (I := IdentityTabs.Inv I store₀)
    (fun _ a hs hok => IdentityTabs.Inv.step hI hs a hok) (IdentityTabs.Inv.new store₀) hacts
  have hstored : ∀ (i : Nat) (id : PersistedIdentity Handle),
      (run (IdentityTabs.step I) (IdentityTabs.new store₀) acts).calls[i]? = some (.returned id) →
      readIdentity I (run (IdentityTabs.step I) (IdentityTabs.new store₀) acts).store =
        .ok (some id) := by
    intro i id hi
    rcases hinv with ⟨hstore, hids, -, -⟩ | ⟨-, h, hstore, hids, -⟩
    · rw [hstore]
      exact hids i id hi
    · rw [hstore, hids i id hi]
      exact readIdentity_recordOf hI h
  refine ⟨?_, hstored, ?_⟩
  · intro i j id id' hi hj
    have heq := (hstored i id hi).symm.trans (hstored j id' hj)
    exact Option.some.inj (Except.ok.inj heq)
  · rintro (hfalsy' | ⟨e, herr⟩)
    · exact absurd hfalsy' hfalsy
    · exact corrupt_identity_kept I herr acts

/-! ## Two calls -/

instance (s : IdentityTabs Handle) : (a : IdentityAct Handle) → Decidable (NoOverlap s a)
  | .call => .isTrue trivial
  | .read _ _ => inferInstanceAs (Decidable (∀ c ∈ s.calls, c.writes = false))
  | .readFailed _ => .isTrue trivial
  | .write _ => .isTrue trivial
  | .writeFailed _ => .isTrue trivial

end

/-- Handles that are one byte, repeated in their serialisations. -/
def byteIdentities : IdentityApi UInt8 where
  fromBytes := fun bs => bs.head?
  publicBytes := fun h => List.replicate 33 h
  privateBytes := fun h => List.replicate 64 h

theorem byteIdentities_lawful : byteIdentities.Lawful where
  fromBytes := fun _ => rfl
  privateLength := fun h => by
    show 32 ≤ (List.replicate 64 h).length
    rw [List.length_replicate]
    decide
  publicLength := fun h => List.length_replicate

/-- One call after the other: both return the identity the first has drawn, and it is stored. -/
theorem second_call_finds_identity :
    readIdentity byteIdentities (run (IdentityTabs.step byteIdentities) (IdentityTabs.new .absent)
        [.call, .call, .read 0 7, .write 0, .read 1 8]).store =
      .ok (some (persisted byteIdentities 7)) :=
  (identity_stable byteIdentities byteIdentities_lawful .absent (by decide)
    [.call, .call, .read 0 7, .write 0, .read 1 8] (by decide +kernel)).2.1 1 _ (by decide +kernel)

/-- Both calls read before one has written: they return different identities. -/
theorem two_calls_two_identities :
    byteIdentities.Lawful ∧
      (run (IdentityTabs.step byteIdentities) (IdentityTabs.new .absent)
        [.call, .call, .read 0 7, .read 1 8, .write 0, .write 1]).calls =
        [.returned (persisted byteIdentities 7), .returned (persisted byteIdentities 8)] ∧
      persisted byteIdentities 7 ≠ persisted byteIdentities 8 :=
  ⟨byteIdentities_lawful, by decide +kernel, by decide +kernel⟩

end E2EMessaging.Web
