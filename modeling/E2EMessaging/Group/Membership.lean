/-
  GROUP MEMBERSHIP OVER WHOLE RUNS: who can read a frame is decided by the history of membership
  operations.

  A run of one `GroupSession` is `GroupSession::new` followed by any list of `SessionOp`s.  The
  roster such a run ends with is characterised by the history alone (`mem_members_iff`): a key is
  in it exactly when the LAST operation that named it was an `add_member` — however often it was
  added before, one `remove_member` takes out every copy.

  `frame_of_run` puts this together with the wire format (`Group.Wire`): every frame `encrypt_as`
  returns parses into one wrapper per roster entry, in order, with no bytes left over; every
  identity in the roster decrypts it to the plaintext; every caller, with a private key or without,
  whose key was never added or was removed last gets an error.
-/
import E2EMessaging.Lib.Run
import E2EMessaging.Group.Wire

namespace E2EMessaging.Group

open E2EMessaging.Lib

variable {B K : Type}

/-! ## Runs of one session -/

/-- The operations on a session. -/
inductive SessionOp (B : Type) where
  | addMember (member : B)
  | removeMember (member : B)
  | rotateSenderKey
  | encryptAs (plaintext : B)
  deriving Repr, DecidableEq

/-- A session together with the number of CSPRNG draws made so far. -/
structure Live (B : Type) where
  session : GroupSession B
  rng : Nat
  deriving Repr, DecidableEq

/-- One operation. -/
def Live.step [DecidableEq B] (S : Suite B K) (s : Live B) : SessionOp B → Live B
  | .addMember m => { s with session := s.session.addMember m }
  | .removeMember m =>
    let r := s.session.removeMember S m s.rng
    ⟨r.1, r.2⟩
  | .rotateSenderKey =>
    let r := s.session.rotateSenderKey S s.rng
    ⟨r.1, r.2⟩
  | .encryptAs p =>
    let r := s.session.encryptFrame S p s.rng
    ⟨r.1, r.2.1⟩

/-- `GroupSession::new` for the sender, with `rng` draws already made. -/
def Live.start (S : Suite B K) (sender : B) (rng : Nat) : Live B := ⟨.new S sender, rng⟩

/-- The member key an operation names. -/
def SessionOp.member : SessionOp B → Option B
  | .addMember m => some m
  | .removeMember m => some m
  | .rotateSenderKey => none
  | .encryptAs _ => none

/-! ## The roster is decided by the last operation on each key -/

/-- What an operation says about the membership of `pk`. -/
inductive Membership where
  | added
  | removed
  deriving Repr, DecidableEq

/-- The membership of `pk` after the operation, if the operation names `pk`. -/
def SessionOp.membership [DecidableEq B] (pk : B) : SessionOp B → Option Membership
  | .addMember m => if m = pk then some .added else none
  | .removeMember m => if m = pk then some .removed else none
  | .rotateSenderKey => none
  | .encryptAs _ => none

/-- The LAST membership operation of a history that names `pk`. -/
def lastMembership [DecidableEq B] (pk : B) (ops : List (SessionOp B)) : Option Membership :=
  ops.foldl (fun last op => (op.membership pk).or last) none

theorem lastMembership_concat [DecidableEq B] (pk : B) (ops : List (SessionOp B))
    (op : SessionOp B) :
    lastMembership pk (ops ++ [op]) = (op.membership pk).or (lastMembership pk ops) := by
  simp [lastMembership]

/-- The roster after one operation. -/
theorem mem_step [DecidableEq B] (S : Suite B K) (s : Live B) (op : SessionOp B) (pk : B) :
    pk ∈ (s.step S op).session.members ↔
      op.membership pk = some .added ∨
        (op.membership pk = none ∧ pk ∈ s.session.members) := by
  cases op with
  | addMember m =>
    by_cases h : m = pk
    · simp [Live.step, SessionOp.membership, h]
    · simp [Live.step, SessionOp.membership, h, Ne.symm h]
  | removeMember m =>
    have hmem : pk ∈ (s.step S (.removeMember m)).session.members ↔
        pk ∈ s.session.members ∧ pk ≠ m := mem_removeMember S s.session m pk s.rng
    rw [hmem]
    by_cases h : m = pk
    · simp [SessionOp.membership, h]
    · simp [SessionOp.membership, h, Ne.symm h]
  | rotateSenderKey => simp [Live.step, SessionOp.membership, GroupSession.rotateSenderKey]
  | encryptAs p => simp [Live.step, SessionOp.membership]

/-- **The roster of a run.**  By induction from the end of the history: only the last operation
    that names the key counts. -/
theorem mem_members_iff [DecidableEq B] (S : Suite B K) (sender : B) (rng : Nat) (pk : B)
    (ops : List (SessionOp B)) :
    pk ∈ (run (Live.step S) (Live.start S sender rng) ops).session.members ↔
      lastMembership pk ops = some .added := by
  induction ops using List.reverseRecOn with
  | nil => simp [Live.start, lastMembership]
  | append_singleton ops op ih =>
    rw [run_concat, mem_step, ih, lastMembership_concat]
    cases op.membership pk with
    | none => simp
    | some m => simp

/-- A key that was never added is not in the roster. -/
theorem lastMembership_ne_added [DecidableEq B] {pk : B} {ops : List (SessionOp B)}
    (h : SessionOp.addMember pk ∉ ops) : lastMembership pk ops ≠ some .added := by
  induction ops using List.reverseRecOn with
  | nil => simp [lastMembership]
  | append_singleton ops op ih =>
    obtain ⟨hops, hop⟩ : SessionOp.addMember pk ∉ ops ∧ SessionOp.addMember pk ≠ op := by
      simpa using h
    rw [lastMembership_concat]
    cases op with
    | addMember m =>
      have hm : m ≠ pk := fun he => hop (by rw [he])
      simpa [SessionOp.membership, hm] using ih hops
    | removeMember m =>
      by_cases hm : m = pk
      · simp [SessionOp.membership, hm]
      · simpa [SessionOp.membership, hm] using ih hops
    | rotateSenderKey => simpa [SessionOp.membership] using ih hops
    | encryptAs p => simpa [SessionOp.membership] using ih hops

/-- Every roster entry was named by some operation of the run. -/
theorem members_named [DecidableEq B] (S : Suite B K) (sender : B) (rng : Nat) {pk : B}
    {ops : List (SessionOp B)}
    (h : pk ∈ (run (Live.step S) (Live.start S sender rng) ops).session.members) :
    SessionOp.addMember pk ∈ ops := by
  by_contra hno
  exact lastMembership_ne_added hno ((mem_members_iff S sender rng pk ops).mp h)

/-! ## Frames of a run -/

/-- What is relied on of the primitives: HKDF fills the buffer it is given, `open_sealed` with the
    matching key inverts `seal`, a sealed 32-byte key is shorter than `2^16` bytes, and AES-GCM
    decrypts what it encrypted. -/
structure Suite.Lawful (S : Suite Bytes K) : Prop where
  hkdf_length : ∀ ikm info len, (S.hkdf ikm info len).length = len
  open_seal : ∀ kp key n blob, S.sealTo (S.publicKey kp) key n = .ok blob →
    S.openSealed kp blob = .ok key
  seal_length : ∀ pk key n blob, key.length = 32 → S.sealTo pk key n = .ok blob →
    blob.length < 2 ^ 16
  aes_decrypt : ∀ c nonce m ct, S.aesEncrypt c nonce m = .ok ct → S.aesDecrypt c nonce ct = .ok m

/-- A frame of a session with 33-byte member keys fits the wire format. -/
theorem frameFits_encryptFrame {S : Suite Bytes K} (hS : S.Lawful) {s : GroupSession Bytes}
    {p : Bytes} {rng : Nat} {f : Frame Bytes} (h : (s.encryptFrame S p rng).2.2 = .ok f)
    (hkeys : ∀ m ∈ s.members, m.length = 33) (hpayload : f.payload.length < 2 ^ 32) :
    FrameFits f := by
  obtain ⟨hroster, -, hnonce, hmap, hws⟩ := encryptFrame_ok h
  have hcount : f.wrappers.length = s.members.length := by rw [← hmap, List.length_map]
  refine ⟨?_, hpayload, by omega, fun w hw => ⟨?_, ?_⟩⟩
  · rw [hnonce]
    exact hS.hkdf_length _ _ _
  · have hmem : w.1 ∈ s.members := by
      rw [← hmap]
      exact List.mem_map_of_mem hw
    exact hkeys _ hmem
  · obtain ⟨n, hseal⟩ := hws w hw
    exact hS.seal_length _ _ _ _ (hS.hkdf_length _ _ _) hseal

/-- **Membership over whole runs.** -/
theorem frame_of_run {a : Arch} {S : Suite Bytes K} (hS : S.Lawful) (sender : Bytes) (rng : Nat)
    {ops : List (SessionOp Bytes)} (hkeys : ∀ op ∈ ops, ∀ m, op.member = some m → m.length = 33)
    {s : Live Bytes} (hs : s = run (Live.step S) (Live.start S sender rng) ops)
    {p ct : Bytes} (hct : (s.session.encryptAs a S p s.rng).2.2 = .ok ct)
    (hpayload : ∀ c payload, S.aesNew (msgKey S s.session.chainKey) = .ok c →
      S.aesEncrypt c (msgNonce S s.session.chainKey) p = .ok payload → payload.length < 2 ^ 32) :
    (∃ f, parseFrame a ct = .ok (f, ct.length) ∧ f.wrappers.map Prod.fst = s.session.members) ∧
    (∀ kp, S.publicKey kp ∈ s.session.members →
      decryptAs a S (.ofKeyPair S kp) ct = .ok p) ∧
    (∀ caller : Caller Bytes, SessionOp.addMember caller.publicKey ∉ ops ∨
        lastMembership caller.publicKey ops = some .removed →
      ∃ e, decryptAs a S caller ct = .err e) := by
  obtain ⟨f, hf, rfl, hfit⟩ := encryptAs_ok hct
  obtain ⟨-, ⟨c, hnew, henc⟩, -, hmap, -⟩ := encryptFrame_ok hf
  have hlen : (serialize f).length < 2 ^ a.bits := Arch.lt_of_le_isizeMax hfit
  have hroster : ∀ m ∈ s.session.members, m.length = 33 := by
    intro m hm
    rw [hs] at hm
    exact hkeys _ (members_named S sender rng hm) m rfl
  have hfits : FrameFits f := frameFits_encryptFrame hS hf hroster (hpayload c _ hnew henc)
  refine ⟨⟨f, parseFrame_serialize hfits hlen, hmap⟩, ?_, ?_⟩
  · intro kp hmem
    rw [decryptAs_serialize hfits hlen,
      decryptFrame_encryptFrame hS.open_seal hS.aes_decrypt hf hmem]
    rfl
  · intro caller hout
    have hnot : caller.publicKey ∉ s.session.members := by
      rw [hs, mem_members_iff]
      rcases hout with hnever | hremoved
      · exact lastMembership_ne_added hnever
      · simp [hremoved]
    refine ⟨notAMember, ?_⟩
    rw [decryptAs_serialize hfits hlen, decryptFrame_not_member (by rw [hmap]; exact hnot)]
    rfl

/-! ## A suite to run -/

/-- The 16 bytes an AEAD appends: here the head of the key. -/
def toyTag (key : Bytes) : Bytes := (key ++ List.replicate 16 0).take 16

/-- A stand-in for the primitives with the sizes and the failures of the real ones: 33-byte tagged
    public keys, a sealed blob of 60 bytes more than its content that only the addressee opens, an
    AES-GCM payload 16 bytes longer than the plaintext that only the right 32-byte key opens. -/
def toySuite : Suite Bytes Nat where
  hkdf := fun ikm info len =>
    (info.toList.map (fun c : Char => UInt8.ofNat c.toNat) ++ ikm ++ List.replicate len 0).take len
  aesNew := fun key => if key.length = 32 then .ok key else .error "Invalid Length"
  aesEncrypt := fun c _ m => .ok (m ++ toyTag c)
  aesDecrypt := fun c _ ct =>
    if ct.drop (ct.length - 16) = toyTag c then .ok (ct.take (ct.length - 16))
    else .error "aead::Error"
  publicKey := fun kp => 5 :: toLeBytes 32 kp
  sealTo := fun pk m n =>
    if pk.length = 33 ∧ pk.head? = some 5 then
      .ok (pk.drop 1 ++ List.replicate 12 (UInt8.ofNat n) ++ m ++ List.replicate 16 0)
    else .error .malformed
  openSealed := fun kp blob =>
    if blob.length < 60 then .error .malformed
    else if blob.take 32 = toLeBytes 32 kp then .ok ((blob.drop 44).take (blob.length - 60))
    else .error .decryptionFailed
  osRng := fun n => toLeBytes 32 (n + 1)

theorem toySuite_lawful : toySuite.Lawful where
  hkdf_length := by
    intro ikm info len
    simp only [toySuite, List.length_take, List.length_append, List.length_map,
      List.length_replicate]
    omega
  open_seal := by
    intro kp key n blob h
    have hpk : (toySuite.publicKey kp).length = 33 ∧ (toySuite.publicKey kp).head? = some 5 := by
      simp [toySuite]
    obtain rfl : toLeBytes 32 kp ++ (List.replicate 12 (UInt8.ofNat n) ++
        (key ++ List.replicate 16 0)) = blob := by
      simpa [toySuite, hpk] using h
    have hkey : (key ++ List.replicate 16 (0 : UInt8)).take
        (32 + (12 + (key.length + 16)) - 60) = key := by
      rw [show 32 + (12 + (key.length + 16)) - 60 = key.length by omega, List.take_left]
    simp only [toySuite, List.length_append, length_toLeBytes, List.length_replicate]
    rw [if_neg (by omega), if_pos (List.take_left' (length_toLeBytes 32 kp)),
      ← List.append_assoc (toLeBytes 32 kp), List.drop_left' (by simp), hkey]
  seal_length := by
    intro pk key n blob hkey h
    by_cases hpk : pk.length = 33 ∧ pk.head? = some 5
    · obtain rfl : pk.tail ++ (List.replicate 12 (UInt8.ofNat n) ++
          (key ++ List.replicate 16 0)) = blob := by
        simpa [toySuite, hpk] using h
      simp [hpk.1, hkey]
    · simp [toySuite, hpk] at h
  aes_decrypt := by
    intro c nonce m ct h
    obtain rfl : m ++ toyTag c = ct := by simpa [toySuite] using h
    have htag : (toyTag c).length = 16 := by simp [toyTag]
    simp [toySuite, htag]

/-- Two members, one of them added twice, a third removed again; the message `hi`. -/
theorem frame_of_run_hi :
    let alice := toySuite.publicKey 1
    let bob := toySuite.publicKey 2
    let eve := toySuite.publicKey 3
    let ops : List (SessionOp Bytes) := [.addMember alice, .addMember eve, .addMember bob,
      .addMember eve, .addMember alice, .removeMember eve]
    let s := run (Live.step toySuite) (Live.start toySuite (toySuite.publicKey 0) 0) ops
    let a : Arch := ⟨64, true⟩
    ∃ ct, (s.session.encryptAs a toySuite [104, 105] s.rng).2.2 = .ok ct ∧
      (∃ f, parseFrame a ct = .ok (f, ct.length) ∧ f.wrappers.map Prod.fst = [alice, bob, alice]) ∧
      decryptAs a toySuite (.ofKeyPair toySuite 1) ct = .ok [104, 105] ∧
      (∃ e, decryptAs a toySuite (.ofKeyPair toySuite 3) ct = .err e) ∧
      (∃ e, decryptAs a toySuite (.ofKeyPair toySuite 4) ct = .err e) ∧
      (∃ e, decryptAs a toySuite (.nonMember eve) ct = .err e) := by
  intro alice bob eve ops s a
  have hok : (s.session.encryptAs a toySuite [104, 105] s.rng).2.2.isOk = true := by decide +kernel
  obtain ⟨ct, hct⟩ := Outcome.exists_of_isOk hok
  have hkeys : ∀ op ∈ ops, ∀ m, op.member = some m → m.length = 33 := by decide
  obtain ⟨hparse, hin, hout⟩ := frame_of_run toySuite_lawful (toySuite.publicKey 0) 0 hkeys rfl hct
    (fun c payload _ h => by
      obtain rfl : [104, 105] ++ toyTag c = payload := by simpa [toySuite] using h
      simp [toyTag])
  exact ⟨ct, hct, hparse, hin 1 (by decide), hout (.ofKeyPair toySuite 3) (.inr (by decide)),
    hout (.ofKeyPair toySuite 4) (.inl (by decide)), hout (.nonMember eve) (.inr (by decide))⟩

end E2EMessaging.Group
