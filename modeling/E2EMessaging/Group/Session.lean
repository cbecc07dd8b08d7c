/-
  `core/protocol/src/group.rs` — SENDER-KEYS GROUP SESSIONS.

  A `GroupSession` is a roster of public identity keys and a 32-byte CHAIN KEY.  `encrypt_as`
  derives from the current chain key, by three HKDF expansions with different labels, the AES-256-GCM
  key and nonce of this one message and the NEXT chain key, stores the next chain key before
  anything can fail, encrypts, and SEALS the message key to every member.  `remove_member` and
  `rotate_sender_key` replace the chain key by a CSPRNG draw.

  The code is modelled ONCE, over a type `B` of byte strings and a `Suite` of the primitives it
  calls (HKDF, AES-GCM, `seal`/`open_sealed`, the OS random generator).  Two instances are used:

  * `B = Bytes`  — the wire format: what `encrypt_as` serialises and `decrypt_as` parses
                   (`Group.Wire`);
  * `B = Term`   — free terms: what can be derived from what (`Group.Symbolic` and on).

  A message is built as a `Frame` (`encryptFrame`) before it is laid out as bytes; everything that
  is about KEYS is stated on frames, everything that is about BYTES on their layout.

  Randomness is explicit: the generator is a stream `Nat → B`, the state carries the number of
  draws made so far, and every draw advances it — so no draw is ever read twice.
-/
import E2EMessaging.Lib.Bytes

namespace E2EMessaging.Group

open E2EMessaging.Lib

/-! ## Errors -/

/-- The `std::io::ErrorKind`s the module uses. -/
inductive ErrorKind where
  | invalidInput
  | invalidData
  | permissionDenied
  | other
  deriving Repr, DecidableEq

/-- A `std::io::Error`: kind and message. -/
structure IoError where
  kind : ErrorKind
  message : String
  deriving Repr, DecidableEq

/-- `crypto::identity::SealError`. -/
inductive SealError where
  | malformed
  | decryptionFailed
  deriving Repr, DecidableEq

/-- Its `Display` text. -/
def SealError.toString : SealError → String
  | malformed => "sealed identity blob is structurally malformed"
  | decryptionFailed => "sealed identity blob decryption failed"

/-! ## The primitives -/

/-- What the module calls and does not define.  `K` is the type of identity KEY PAIRS; a public
    identity key is the byte string `PublicIdentityKey::to_bytes` returns. -/
structure Suite (B K : Type) where
  /-- `Hkdf::<Sha256>::new(None, ikm).expand(info, &mut [0u8; len])`. -/
  hkdf : B → String → Nat → B
  /-- `Aes256Gcm::new_from_slice(key)`: the cipher is its validated key. -/
  aesNew : B → Except String B
  /-- `cipher.encrypt(nonce, plaintext)`. -/
  aesEncrypt : B → B → B → Except String B
  /-- `cipher.decrypt(nonce, payload)`. -/
  aesDecrypt : B → B → B → Except String B
  /-- `IdentityKeyPair::public().to_bytes()`. -/
  publicKey : K → B
  /-- `PublicIdentityKey::seal`, on the draw with the given index. -/
  sealTo : B → B → Nat → Except SealError B
  /-- `IdentityKeyPair::open_sealed`. -/
  openSealed : K → B → Except SealError B
  /-- `OsRng.try_fill_bytes(&mut [0u8; 32])`, the draw with the given index. -/
  osRng : Nat → B

variable {B K : Type}

/-! ## Callers -/

/-- The `Caller` trait: who a caller says it is, and its attempt to unseal a wrapper. -/
structure Caller (B : Type) where
  publicKey : B
  openSealed : B → Except IoError B

/-- `impl Caller for IdentityKeyPair`. -/
def Caller.ofKeyPair (S : Suite B K) (kp : K) : Caller B where
  publicKey := S.publicKey kp
  openSealed := fun blob =>
    match S.openSealed kp blob with
    | .error e => .error ⟨.invalidData, e.toString⟩
    | .ok key => .ok key

/-- `impl Caller for NonMember`: a public key without a private one opens nothing. -/
def Caller.nonMember (publicKey : B) : Caller B where
  publicKey := publicKey
  openSealed := fun _ =>
    .error ⟨.permissionDenied, "non-member holds no private key to open a sealed wrapper"⟩

/-! ## The session -/

/-- Members beyond this count would overflow the wire format's one-byte wrapper count. -/
def maxMembers : Nat := 255

/-- `GroupSession`: the roster and the chain key. -/
structure GroupSession (B : Type) where
  members : List B
  chainKey : B
  deriving Repr, DecidableEq

/-- `GroupSession::new`: an empty roster, and the chain key expanded from the sender's PUBLIC key. -/
def GroupSession.new (S : Suite B K) (senderPub : B) : GroupSession B where
  members := []
  chainKey := S.hkdf senderPub "chain" 32

/-- `add_member`. -/
def GroupSession.addMember (s : GroupSession B) (member : B) : GroupSession B :=
  { s with members := s.members ++ [member] }

/-- `rotate_sender_key`: a fresh draw replaces the chain key.  Returns the number of draws after. -/
def GroupSession.rotateSenderKey (S : Suite B K) (s : GroupSession B) (rng : Nat) :
    GroupSession B × Nat :=
  ({ s with chainKey := S.osRng rng }, rng + 1)

/-- `remove_member`: `retain` everyone else, then rotate. -/
def GroupSession.removeMember [DecidableEq B] (S : Suite B K) (s : GroupSession B) (member : B)
    (rng : Nat) : GroupSession B × Nat :=
  GroupSession.rotateSenderKey S
    { s with members := s.members.filter (fun m => decide (m ≠ member)) } rng

/-! ## The per-message key schedule -/

/-- `key_bytes`, the AES key of the message sent from chain key `ck`. -/
def msgKey (S : Suite B K) (ck : B) : B := S.hkdf ck "msg" 32

/-- `nonce_bytes`, its nonce. -/
def msgNonce (S : Suite B K) (ck : B) : B := S.hkdf ck "nonce" 12

/-- `next_chain_key`. -/
def nextChainKey (S : Suite B K) (ck : B) : B := S.hkdf ck "chain-ratchet" 32

/-! ## Frames -/

/-- What a message consists of, before it is laid out as bytes: nonce, AES-GCM payload, and one
    wrapper (member key, sealed message key) for each roster entry. -/
structure Frame (B : Type) where
  nonce : B
  payload : B
  wrappers : List (B × B)
  deriving Repr, DecidableEq

/-- `std::io::Error::other`. -/
def ioOther (message : String) : IoError := ⟨.other, message⟩

/-- The sealing loop of `encrypt_as`: seal the message key to each member in turn, stop at the
    first failure.  Each `seal` draws its ephemeral key and nonce anew. -/
def sealAll (S : Suite B K) (key : B) : List B → Nat → Nat × Except IoError (List (B × B))
  | [], rng => (rng, .ok [])
  | m :: ms, rng =>
    match S.sealTo m key rng with
    | .error e => (rng + 1, .error (ioOther e.toString))
    | .ok blob =>
      match sealAll S key ms (rng + 1) with
      | (rng', .error e) => (rng', .error e)
      | (rng', .ok ws) => (rng', .ok ((m, blob) :: ws))

/-- The error of a roster that does not fit the wire format. -/
def tooManyMembers (n : Nat) : IoError :=
  ⟨.invalidInput, s!"group has {n} members, exceeding the wire format's {maxMembers}-member limit"⟩

/-- `encrypt_as` up to the serialisation: the session afterwards, the draws made, the frame or the
    error.  The roster check comes BEFORE the ratchet; everything that can fail after it fails on a
    session whose chain key has already moved on. -/
def GroupSession.encryptFrame (S : Suite B K) (s : GroupSession B) (plaintext : B) (rng : Nat) :
    GroupSession B × Nat × Except IoError (Frame B) :=
  if maxMembers < s.members.length then (s, rng, .error (tooManyMembers s.members.length))
  else
    let key := msgKey S s.chainKey
    let nonce := msgNonce S s.chainKey
    let s' := { s with chainKey := nextChainKey S s.chainKey }
    match S.aesNew key with
    | .error e => (s', rng, .error (ioOther e))
    | .ok cipher =>
      match S.aesEncrypt cipher nonce plaintext with
      | .error e => (s', rng, .error (ioOther e))
      | .ok payload =>
        match sealAll S key s.members rng with
        | (rng', .error e) => (s', rng', .error e)
        | (rng', .ok wrappers) => (s', rng', .ok ⟨nonce, payload, wrappers⟩)

/-- The wrapper `decrypt_as` uses: the FIRST one whose key is the caller's. -/
def findSealed [DecidableEq B] (wrappers : List (B × B)) (callerPub : B) : Option B :=
  (wrappers.find? (fun w => decide (w.1 = callerPub))).map Prod.snd

/-- The error of a caller no wrapper is addressed to. -/
def notAMember : IoError := ⟨.permissionDenied, "caller not a member"⟩

/-- `decrypt_as` from the point where the caller's wrapper is known (or known to be missing):
    unseal it, decrypt the payload with what it contains.  The session itself is not consulted. -/
def openPayload (S : Suite B K) (caller : Caller B) (found : Option B) (nonce payload : B) :
    Except IoError B :=
  match found with
  | none => .error notAMember
  | some blob =>
    match caller.openSealed blob with
    | .error e => .error e
    | .ok key =>
      match S.aesNew key with
      | .error e => .error (ioOther e)
      | .ok cipher =>
        match S.aesDecrypt cipher nonce payload with
        | .error e => .error ⟨.invalidData, e⟩
        | .ok plaintext => .ok plaintext

/-- `decrypt_as` on a frame. -/
def decryptFrame [DecidableEq B] (S : Suite B K) (caller : Caller B) (f : Frame B) :
    Except IoError B :=
  openPayload S caller (findSealed f.wrappers caller.publicKey) f.nonce f.payload

/-! ## What a session operation does -/

@[simp] theorem new_members (S : Suite B K) (senderPub : B) :
    (GroupSession.new S senderPub).members = [] := rfl

@[simp] theorem addMember_members (s : GroupSession B) (m : B) :
    (s.addMember m).members = s.members ++ [m] := rfl

/-- Removal removes EVERY occurrence of the key and nothing else. -/
theorem mem_removeMember [DecidableEq B] (S : Suite B K) (s : GroupSession B) (m x : B)
    (rng : Nat) : x ∈ (s.removeMember S m rng).1.members ↔ x ∈ s.members ∧ x ≠ m := by
  simp [GroupSession.removeMember, GroupSession.rotateSenderKey]

/-- A completed sealing loop wraps the roster in order, each wrapper sealed to its own key. -/
theorem sealAll_ok {S : Suite B K} {key : B} {ms : List B} {rng rng' : Nat}
    {ws : List (B × B)} (h : sealAll S key ms rng = (rng', .ok ws)) :
    ws.map Prod.fst = ms ∧ ∀ w ∈ ws, ∃ n, S.sealTo w.1 key n = .ok w.2 := by
  induction ms generalizing rng rng' ws with
  | nil =>
    obtain ⟨-, rfl⟩ : rng = rng' ∧ [] = ws := by simpa [sealAll] using h
    exact ⟨rfl, fun w hw => absurd hw List.not_mem_nil⟩
  | cons m ms ih =>
    rw [sealAll] at h
    cases hseal : S.sealTo m key rng with
    | error e => simp [hseal] at h
    | ok blob =>
      rw [hseal] at h
      cases hrest : sealAll S key ms (rng + 1) with
      | mk r res =>
        rw [hrest] at h
        cases res with
        | error e => simp at h
        | ok ws' =>
          obtain ⟨-, rfl⟩ : r = rng' ∧ (m, blob) :: ws' = ws := by simpa using h
          obtain ⟨hmap, hws⟩ := ih hrest
          refine ⟨by simp [hmap], ?_⟩
          intro w hw
          rcases List.mem_cons.mp hw with rfl | hw
          · exact ⟨rng, hseal⟩
          · exact hws w hw

/-- Sealing fails only if some member's key cannot be sealed to. -/
theorem sealAll_error {S : Suite B K} {key : B} {ms : List B} {rng rng' : Nat} {e : IoError}
    (h : sealAll S key ms rng = (rng', .error e)) :
    ∃ m ∈ ms, ∃ n e', S.sealTo m key n = .error e' := by
  induction ms generalizing rng rng' e with
  | nil => simp [sealAll] at h
  | cons m ms ih =>
    rw [sealAll] at h
    cases hseal : S.sealTo m key rng with
    | error e' => exact ⟨m, List.mem_cons_self, rng, e', hseal⟩
    | ok blob =>
      rw [hseal] at h
      cases hrest : sealAll S key ms (rng + 1) with
      | mk r res =>
        rw [hrest] at h
        cases res with
        | ok ws' => simp at h
        | error e' =>
          obtain ⟨m', hm', hn⟩ := ih hrest
          exact ⟨m', List.mem_cons_of_mem _ hm', hn⟩

/-- Everything `encryptFrame` can do to the session: nothing (roster too large), or one ratchet
    step.  The roster never changes. -/
theorem encryptFrame_session (S : Suite B K) (s : GroupSession B) (p : B) (rng : Nat) :
    (s.encryptFrame S p rng).1 =
      if maxMembers < s.members.length then s
      else { s with chainKey := nextChainKey S s.chainKey } := by
  rw [GroupSession.encryptFrame]
  split
  · rfl
  · dsimp only
    cases S.aesNew (msgKey S s.chainKey) with
    | error e => rfl
    | ok c =>
      dsimp only
      cases S.aesEncrypt c (msgNonce S s.chainKey) p with
      | error e => rfl
      | ok payload =>
        dsimp only
        cases sealAll S (msgKey S s.chainKey) s.members rng with
        | mk r res => cases res <;> rfl

@[simp] theorem encryptFrame_members (S : Suite B K) (s : GroupSession B) (p : B) (rng : Nat) :
    (s.encryptFrame S p rng).1.members = s.members := by
  rw [encryptFrame_session]
  split <;> rfl

/-- **What a returned frame is.**  The roster fitted, the payload is the AES-GCM encryption of the
    plaintext under this message's key and nonce, and the wrappers seal that key to the roster, in
    order. -/
theorem encryptFrame_ok {S : Suite B K} {s : GroupSession B} {p : B} {rng : Nat} {f : Frame B}
    (h : (s.encryptFrame S p rng).2.2 = .ok f) :
    s.members.length ≤ maxMembers ∧
    (∃ c, S.aesNew (msgKey S s.chainKey) = .ok c ∧
      S.aesEncrypt c (msgNonce S s.chainKey) p = .ok f.payload) ∧
    f.nonce = msgNonce S s.chainKey ∧
    f.wrappers.map Prod.fst = s.members ∧
    ∀ w ∈ f.wrappers, ∃ n, S.sealTo w.1 (msgKey S s.chainKey) n = .ok w.2 := by
  rw [GroupSession.encryptFrame] at h
  split at h
  · simp at h
  · rename_i hroster
    dsimp only at h
    cases hnew : S.aesNew (msgKey S s.chainKey) with
    | error e => simp [hnew] at h
    | ok c =>
      rw [hnew] at h
      dsimp only at h
      cases henc : S.aesEncrypt c (msgNonce S s.chainKey) p with
      | error e => simp [henc] at h
      | ok payload =>
        rw [henc] at h
        dsimp only at h
        cases hseal : sealAll S (msgKey S s.chainKey) s.members rng with
        | mk r res =>
          rw [hseal] at h
          cases res with
          | error e => simp at h
          | ok ws =>
            obtain rfl : (⟨_, payload, ws⟩ : Frame B) = f := by simpa using h
            obtain ⟨hmap, hws⟩ := sealAll_ok hseal
            exact ⟨Nat.le_of_not_lt hroster, ⟨c, rfl, henc⟩, rfl, hmap, hws⟩

/-- Draws are only ever used up. -/
theorem sealAll_rng_le (S : Suite B K) (key : B) (ms : List B) (rng : Nat) :
    rng ≤ (sealAll S key ms rng).1 := by
  induction ms generalizing rng with
  | nil => exact Nat.le_refl _
  | cons m ms ih =>
    rw [sealAll]
    cases S.sealTo m key rng with
    | error e => exact Nat.le_succ _
    | ok blob =>
      have h := ih (rng + 1)
      dsimp only
      cases hrest : sealAll S key ms (rng + 1) with
      | mk r res =>
        rw [hrest] at h
        cases res <;> exact Nat.le_of_succ_le h

theorem encryptFrame_rng_le (S : Suite B K) (s : GroupSession B) (p : B) (rng : Nat) :
    rng ≤ (s.encryptFrame S p rng).2.1 := by
  rw [GroupSession.encryptFrame]
  split
  · exact Nat.le_refl _
  · dsimp only
    cases S.aesNew (msgKey S s.chainKey) with
    | error e => exact Nat.le_refl _
    | ok c =>
      dsimp only
      cases S.aesEncrypt c (msgNonce S s.chainKey) p with
      | error e => exact Nat.le_refl _
      | ok payload =>
        have h := sealAll_rng_le S (msgKey S s.chainKey) s.members rng
        dsimp only
        cases hseal : sealAll S (msgKey S s.chainKey) s.members rng with
        | mk r res =>
          rw [hseal] at h
          cases res <;> exact h

/-! ## Frames decrypt for the roster, and only for it -/

theorem openSealed_ofKeyPair {S : Suite B K} {kp : K} {blob key : B} (h : S.openSealed kp blob = .ok key) :
    (Caller.ofKeyPair S kp).openSealed blob = .ok key := by
  simp only [Caller.ofKeyPair, h]

section Correctness

variable [DecidableEq B] {S : Suite B K}

/-- A caller outside the roster finds no wrapper. -/
theorem findSealed_eq_none {wrappers : List (B × B)} {pk : B}
    (h : pk ∉ wrappers.map Prod.fst) : findSealed wrappers pk = none := by
  rw [findSealed, Option.map_eq_none_iff, List.find?_eq_none]
  intro w hw hpk
  exact h (List.mem_map.mpr ⟨w, hw, of_decide_eq_true hpk⟩)

/-- A caller inside it finds one, and it is addressed to them. -/
theorem findSealed_eq_some {wrappers : List (B × B)} {pk : B}
    (h : pk ∈ wrappers.map Prod.fst) :
    ∃ blob, findSealed wrappers pk = some blob ∧ (pk, blob) ∈ wrappers := by
  obtain ⟨w, hw, rfl⟩ := List.mem_map.mp h
  cases hf : wrappers.find? (fun x => decide (x.1 = w.1)) with
  | none =>
    have hnone := List.find?_eq_none.mp hf w hw
    simp at hnone
  | some x =>
    have hx : x.1 = w.1 := by simpa using List.find?_some hf
    have hmem := List.mem_of_find?_eq_some hf
    refine ⟨x.2, by rw [findSealed, hf]; rfl, ?_⟩
    rw [← hx]
    exact hmem

theorem decryptFrame_not_member {f : Frame B} {caller : Caller B}
    (h : caller.publicKey ∉ f.wrappers.map Prod.fst) :
    decryptFrame S caller f = .error notAMember := by
  rw [decryptFrame, findSealed_eq_none h]
  rfl

/-- A wrapper that opens to a key under which the payload decrypts is all `decrypt_as` asks for:
    where the key came from plays no role. -/
theorem decryptFrame_ok {f : Frame B} {caller : Caller B} {blob key cipher p : B}
    (hfind : findSealed f.wrappers caller.publicKey = some blob)
    (hopen : caller.openSealed blob = .ok key) (hnew : S.aesNew key = .ok cipher)
    (hdec : S.aesDecrypt cipher f.nonce f.payload = .ok p) :
    decryptFrame S caller f = .ok p := by
  rw [decryptFrame, hfind]
  simp only [openPayload, hopen, hnew, hdec]

/-- **Every member decrypts.**  `open_sealed` inverts `seal` and AES-GCM decrypts what it
    encrypted; then a returned frame decrypts to the plaintext for every roster entry. -/
theorem decryptFrame_encryptFrame
    (hopen : ∀ kp key n blob, S.sealTo (S.publicKey kp) key n = .ok blob →
      S.openSealed kp blob = .ok key)
    (haes : ∀ c nonce m ct, S.aesEncrypt c nonce m = .ok ct → S.aesDecrypt c nonce ct = .ok m)
    {s : GroupSession B} {p : B} {rng : Nat} {f : Frame B}
    (h : (s.encryptFrame S p rng).2.2 = .ok f) {kp : K}
    (hmem : S.publicKey kp ∈ s.members) : decryptFrame S (Caller.ofKeyPair S kp) f = .ok p := by
  obtain ⟨-, ⟨c, hnew, henc⟩, hnonce, hmap, hws⟩ := encryptFrame_ok h
  have hin : S.publicKey kp ∈ f.wrappers.map Prod.fst := by
    rw [hmap]
    exact hmem
  obtain ⟨blob, hfind, hblob⟩ := findSealed_eq_some hin
  obtain ⟨n, hseal⟩ := hws _ hblob
  have hdec : S.aesDecrypt c f.nonce f.payload = .ok p := by
    rw [hnonce]
    exact haes _ _ _ _ henc
  exact decryptFrame_ok hfind (openSealed_ofKeyPair (hopen _ _ _ _ hseal)) hnew hdec

end Correctness

end E2EMessaging.Group
