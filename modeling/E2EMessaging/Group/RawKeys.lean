/-
  ROSTERS OF ARBITRARY BYTES (`group_add_member` of `core/bindings/wasm/src/lib.rs` takes any).

  A roster entry is whatever bytes were added.  `seal` refuses what libsignal cannot decode, but libsignal
  decodes a type tag and 32 more bytes AND IGNORES THE REST; the encoder then writes the entry as long as it
  is, while the decoder takes 33 bytes.  So one entry with a byte too many is sealed to, written, and shifts
  everything the decoder reads after it.

  `frame_intact_iff` says exactly when a message is refused or read back as it was written: the keys the
  decoder returns all have 33 bytes and its payload is shorter than `2^32` bytes (`parseFrame_shape`), and
  there is nothing else that can go wrong.
-/
import E2EMessaging.Group.NoPanic

namespace E2EMessaging.Group

open E2EMessaging.Lib

variable {K : Type}

/-! ## What the primitives accept -/

/-- `IdentityKey::decode` accepts: the tag of a Curve25519 key, and at least 33 bytes. -/
def Decodes (pk : Bytes) : Prop := 33 ≤ pk.length ∧ pk.head? = some 5

/-- The longest plaintext AES-GCM takes, in bytes. -/
def aesMax : Nat := 2 ^ 36

/-- The sizes of what the primitives take and return. -/
structure Suite.Measured (S : Suite Bytes K) : Prop extends Suite.Lawful S where
  aes_new : ∀ key, key.length = 32 → ∃ c, S.aesNew key = .ok c
  aes_accepts : ∀ c nonce m, (∃ ct, S.aesEncrypt c nonce m = .ok ct) ↔ m.length ≤ aesMax
  aes_length : ∀ c nonce m ct, S.aesEncrypt c nonce m = .ok ct → ct.length = m.length + 16
  /-- A key that decodes is sealed to, whatever follows its first 33 bytes. -/
  seal_decodes : ∀ pk key n, key.length = 32 → ((∃ blob, S.sealTo pk key n = .ok blob) ↔ Decodes pk)
  /-- Ephemeral key, nonce, the 32 bytes sealed, tag. -/
  seal_size : ∀ pk key n blob, key.length = 32 → S.sealTo pk key n = .ok blob → blob.length = 92

/-! ## When there is a frame -/

/-- The encoder has no reason to refuse. -/
def Encrypts (s : GroupSession Bytes) (p : Bytes) : Prop :=
  s.members.length ≤ maxMembers ∧ p.length ≤ aesMax ∧ ∀ m ∈ s.members, Decodes m

theorem length_msgKey {S : Suite Bytes K} (hS : S.Measured) (ck : Bytes) :
    (msgKey S ck).length = 32 := hS.hkdf_length ck "msg" 32

theorem encryptFrame_ok_iff {S : Suite Bytes K} (hS : S.Measured) (s : GroupSession Bytes) (p : Bytes)
    (rng : Nat) : (∃ f, (s.encryptFrame S p rng).2.2 = .ok f) ↔ Encrypts s p := by
  have hkey := length_msgKey hS s.chainKey
  constructor
  · rintro ⟨f, hf⟩
    obtain ⟨hroster, ⟨c, -, henc⟩, -, hmap, hws⟩ := encryptFrame_ok hf
    refine ⟨hroster, (hS.aes_accepts _ _ _).mp ⟨_, henc⟩, ?_⟩
    intro m hm
    rw [← hmap] at hm
    obtain ⟨w, hw, rfl⟩ := List.mem_map.mp hm
    obtain ⟨n, hseal⟩ := hws w hw
    exact (hS.seal_decodes _ _ n hkey).mp ⟨_, hseal⟩
  · rintro ⟨hroster, hp, hdecodes⟩
    obtain ⟨c, hnew⟩ := hS.aes_new _ hkey
    obtain ⟨payload, henc⟩ := (hS.aes_accepts c (msgNonce S s.chainKey) p).mpr hp
    rw [GroupSession.encryptFrame, if_neg (Nat.not_lt.mpr hroster)]
    simp only [hnew, henc]
    rcases hsealed : sealAll S (msgKey S s.chainKey) s.members rng with ⟨rng', e | ws⟩
    · obtain ⟨m, hm, n, e', he'⟩ := sealAll_error hsealed
      obtain ⟨blob, hblob⟩ := (hS.seal_decodes m (msgKey S s.chainKey) n hkey).mpr (hdecodes m hm)
      rw [hblob] at he'
      cases he'
    · exact ⟨_, rfl⟩

/-- The length of the layout, if all keys have 33 bytes. -/
theorem length_serialize {S : Suite Bytes K} (hS : S.Measured) {s : GroupSession Bytes} {p : Bytes}
    {rng : Nat} {f : Frame Bytes} (hf : (s.encryptFrame S p rng).2.2 = .ok f)
    (hkeys : ∀ m ∈ s.members, m.length = 33) :
    (serialize f).length = 17 + (p.length + 16) + 127 * s.members.length := by
  obtain ⟨-, ⟨c, -, henc⟩, hnonce, hmap, hws⟩ := encryptFrame_ok hf
  have hwrapper : ∀ w ∈ f.wrappers, (serializeWrapper w).length = 127 := by
    intro w hw
    obtain ⟨n, hseal⟩ := hws w hw
    have hpk : w.1.length = 33 := hkeys w.1 (by rw [← hmap]; exact List.mem_map_of_mem hw)
    rw [length_serializeWrapper, hpk, hS.seal_size _ _ _ _ (length_msgKey hS _) hseal]
  have hbody : (f.wrappers.map serializeWrapper).flatten.length = 127 * s.members.length := by
    rw [← hmap, List.length_map]
    generalize f.wrappers = ws at hwrapper
    induction ws with
    | nil => rfl
    | cons w ws ih =>
      rw [List.map_cons, List.flatten_cons, List.length_append, hwrapper w List.mem_cons_self,
        ih fun x hx => hwrapper x (List.mem_cons_of_mem w hx), List.length_cons]
      omega
  have hn : f.nonce.length = 12 := by
    rw [hnonce]
    exact hS.hkdf_length _ _ _
  rw [serialize]
  simp only [List.length_append, List.length_cons, length_toLeBytes, hn, hbody,
    hS.aes_length _ _ _ _ henc]
  omega

/-! ## What the decoder can return -/

/-- The keys it reads have 33 bytes each. -/
theorem wrapperLoop_keys {a : Arch} (ha : Supported a) {ct : Bytes} (hct : ct.length ≤ a.isizeMax)
    {count pos : Nat} {acc ws : List (Bytes × Bytes)} {stop : Nat} (hpos : pos ≤ ct.length)
    (h : wrapperLoop a ct (fun ws pubkey blob => ws ++ [(pubkey, blob)]) count pos acc =
      .ok (ws, stop))
    (hacc : ∀ w ∈ acc, w.1.length = 33) : ∀ w ∈ ws, w.1.length = 33 := by
  induction count generalizing pos acc with
  | zero =>
    obtain ⟨rfl, -⟩ := Prod.mk.inj (Outcome.ok.inj h)
    exact hacc
  | succ count ih =>
    rcases wrapperLoop_step ha hct _ count acc hpos with ⟨e, he⟩ | ⟨pubkey, blob, next, hlen, hnext, hgo⟩
    · rw [he] at h
      cases h
    · rw [hgo] at h
      refine ih hnext h ?_
      intro w hw
      rcases List.mem_append.mp hw with hw | hw
      · exact hacc w hw
      · rw [List.mem_singleton.mp hw]
        exact hlen

/-- **What the decoder splits bytes into has 33-byte keys and a payload below `2^32` bytes.** -/
theorem parseFrame_shape {a : Arch} (ha : Supported a) {ct : Bytes} (hct : ct.length ≤ a.isizeMax)
    {f : Frame Bytes} {stop : Nat} (h : parseFrame a ct = .ok (f, stop)) :
    f.payload.length < 2 ^ 32 ∧ ∀ w ∈ f.wrappers, w.1.length = 33 := by
  have hfield := payloadLenField_lt ct
  rcases Nat.lt_or_ge (17 + payloadLenField ct) (2 ^ a.bits) with hlen | hover
  · rw [parseFrame] at h
    rcases readFrame_step hlen (fun ws pubkey blob => ws ++ [(pubkey, blob)]) [] with
      ⟨e, he⟩ | ⟨nonce, payload, count, start, hpayload, hstart, hread⟩
    · rw [he] at h
      cases h
    · rw [hread] at h
      cases hloop : wrapperLoop a ct (fun ws pubkey blob => ws ++ [(pubkey, blob)]) count start [] with
      | err e =>
        rw [hloop] at h
        cases h
      | panic =>
        rw [hloop] at h
        cases h
      | ok r =>
        rw [hloop, Outcome.ok_bind, Outcome.ok_bind] at h
        obtain ⟨rfl, -⟩ := Prod.mk.inj (Outcome.ok.inj h)
        refine ⟨by rw [hpayload]; exact hfield, ?_⟩
        exact wrapperLoop_keys ha hct hstart hloop (fun w hw => absurd hw List.not_mem_nil)
  · -- the decoder panics, or refuses bytes too short for the field
    exfalso
    rcases ha with h32 | h64
    · rw [h32] at hover
      rw [parseFrame] at h
      rcases Nat.lt_or_ge ct.length 17 with hshort | hlong
      · rw [readFrame, if_pos hshort] at h
        cases h
      · rw [readFrame_panics hct ⟨h32, hlong, hover⟩] at h
        cases h
    · rw [h64] at hover
      omega

/-! ## Integrity -/

/-- The encoder refuses, or the decoder splits its bytes into exactly what was put together — the nonce, the
    payload, and the roster's (key, sealed) pairs — and every genuine key of the roster opens it. -/
def FrameIntact (a : Arch) (S : Suite Bytes K) (s : GroupSession Bytes) (p : Bytes) (rng : Nat) : Prop :=
  (∃ e, (s.encryptAs a S p rng).2.2 = .err e) ∨
  ∃ ct f stop, (s.encryptAs a S p rng).2.2 = .ok ct ∧ (s.encryptFrame S p rng).2.2 = .ok f ∧
    f.wrappers.map Prod.fst = s.members ∧ parseFrame a ct = .ok (f, stop) ∧
    ∀ kp, S.publicKey kp ∈ s.members → decryptAs a S (.ofKeyPair S kp) ct = .ok p

/-- The layout can be read back: keys of 33 bytes, a payload whose length fits the field, and bytes that fit
    an allocation. -/
def Readable (a : Arch) (s : GroupSession Bytes) (p : Bytes) : Prop :=
  (∀ m ∈ s.members, m.length = 33) ∧ p.length + 16 < 2 ^ 32 ∧
    17 + (p.length + 16) + 127 * s.members.length ≤ a.isizeMax

/-- **A message is refused or read back exactly if the encoder has a reason to refuse, or the layout is
    readable.** -/
theorem frame_intact_iff (a : Arch) (ha : Supported a) (S : Suite Bytes K) (hS : S.Measured)
    (s : GroupSession Bytes) (p : Bytes) (rng : Nat) :
    FrameIntact a S s p rng ↔ ¬ Encrypts s p ∨ Readable a s p := by
  rcases hframe : s.encryptFrame S p rng with ⟨s', rng', e | f⟩
  · -- refused
    have hno : ¬ Encrypts s p := by
      rw [← encryptFrame_ok_iff hS s p rng]
      rintro ⟨f, hf⟩
      rw [hframe] at hf
      cases hf
    refine ⟨fun _ => Or.inl hno, fun _ => Or.inl ⟨e, ?_⟩⟩
    rw [GroupSession.encryptAs, hframe]
  · have hf : (s.encryptFrame S p rng).2.2 = .ok f := by rw [hframe]
    have hyes : Encrypts s p := (encryptFrame_ok_iff hS s p rng).mp ⟨f, hf⟩
    have hout : (s.encryptAs a S p rng).2.2 =
        if (serialize f).length ≤ a.isizeMax then .ok (serialize f) else .panic := by
      rw [GroupSession.encryptAs, hframe]
    obtain ⟨-, ⟨c, -, henc⟩, -, hmap, -⟩ := encryptFrame_ok hf
    have hpayload := hS.aes_length _ _ _ _ henc
    constructor
    · intro hintact
      right
      rcases hintact with ⟨e, he⟩ | ⟨ct, f', stop, hct, hf', -, hparse, -⟩
      · rw [hout] at he
        split at he <;> cases he
      · obtain rfl : f = f' := Except.ok.inj (hf.symm.trans hf')
        rw [hout] at hct
        split at hct
        · rename_i hfit
          obtain rfl := Outcome.ok.inj hct
          obtain ⟨hshort, hkeys⟩ := parseFrame_shape ha hfit hparse
          have hroster : ∀ m ∈ s.members, m.length = 33 := by
            intro m hm
            rw [← hmap] at hm
            obtain ⟨w, hw, rfl⟩ := List.mem_map.mp hm
            exact hkeys w hw
          refine ⟨hroster, by omega, ?_⟩
          rw [← length_serialize hS hf hroster]
          exact hfit
        · cases hct
    · rintro (hno | ⟨hroster, hsmall, hfit⟩)
      · exact absurd hyes hno
      · rw [← length_serialize hS hf hroster] at hfit
        have hfits := frameFits_encryptFrame hS.toLawful hf hroster (by omega)
        have hlen := Arch.lt_of_le_isizeMax hfit
        refine Or.inr ⟨serialize f, f, _, ?_, hf, hmap, parseFrame_serialize hfits hlen, ?_⟩
        · rw [hout, if_pos hfit]
        · intro kp hmem
          rw [decryptAs_serialize hfits hlen,
            decryptFrame_encryptFrame hS.open_seal hS.aes_decrypt hf hmem]
          rfl

/-! ## A suite to run -/

/-- The stand-in primitives with libsignal's decoder: what follows the first 33 bytes is ignored. -/
def rawSuite : Suite Bytes Nat :=
  { toySuite with
    aesEncrypt := fun c nonce m =>
      if m.length ≤ aesMax then toySuite.aesEncrypt c nonce m else .error "aead::Error"
    sealTo := fun pk m n => toySuite.sealTo (pk.take 33) m n }

theorem toySuite_sealTo_iff (pk key : Bytes) (n : Nat) :
    (∃ blob, toySuite.sealTo pk key n = .ok blob) ↔ pk.length = 33 ∧ pk.head? = some 5 := by
  by_cases h : pk.length = 33 ∧ pk.head? = some 5
  · exact ⟨fun _ => h, fun _ => ⟨_, if_pos h⟩⟩
  · refine ⟨?_, fun h' => absurd h' h⟩
    rintro ⟨blob, hblob⟩
    have herr : toySuite.sealTo pk key n = .error .malformed := if_neg h
    rw [herr] at hblob
    cases hblob

theorem toySuite_sealTo_length {pk key blob : Bytes} {n : Nat} (hkey : key.length = 32)
    (h : toySuite.sealTo pk key n = .ok blob) : blob.length = 92 := by
  have hpk := (toySuite_sealTo_iff pk key n).mp ⟨blob, h⟩
  have hok : toySuite.sealTo pk key n =
      .ok (pk.drop 1 ++ List.replicate 12 (UInt8.ofNat n) ++ key ++ List.replicate 16 0) := if_pos hpk
  rw [hok] at h
  obtain rfl := Except.ok.inj h
  simp [hpk.1, hkey]

theorem rawSuite_measured : rawSuite.Measured where
  hkdf_length := toySuite_lawful.hkdf_length
  open_seal := by
    intro kp key n blob h
    have htake : (toySuite.publicKey kp).take 33 = toySuite.publicKey kp :=
      List.take_of_length_le (by simp [toySuite])
    refine toySuite_lawful.open_seal kp key n blob ?_
    rw [← htake]
    exact h
  seal_length := fun pk key n blob hkey h => toySuite_lawful.seal_length (pk.take 33) key n blob hkey h
  aes_decrypt := by
    intro c nonce m ct h
    simp only [rawSuite] at h
    split at h
    · exact toySuite_lawful.aes_decrypt c nonce m ct h
    · cases h
  aes_new := fun key hkey => ⟨key, if_pos hkey⟩
  aes_accepts := by
    intro c nonce m
    simp only [rawSuite]
    split
    · rename_i hle
      exact ⟨fun _ => hle, fun _ => ⟨_, rfl⟩⟩
    · rename_i hgt
      refine ⟨?_, fun h => absurd h hgt⟩
      rintro ⟨ct, hct⟩
      cases hct
  aes_length := by
    intro c nonce m ct h
    simp only [rawSuite] at h
    split at h
    · obtain rfl : m ++ toyTag c = ct := by simpa [toySuite] using h
      simp [toyTag]
    · cases h
  seal_decodes := by
    intro pk key n _
    show (∃ blob, toySuite.sealTo (pk.take 33) key n = .ok blob) ↔ Decodes pk
    rw [toySuite_sealTo_iff, Decodes, List.length_take]
    constructor
    · rintro ⟨hlen, hhead⟩
      refine ⟨by omega, ?_⟩
      rwa [List.head?_take, if_neg (by decide)] at hhead
    · rintro ⟨hlen, hhead⟩
      refine ⟨by omega, ?_⟩
      rwa [List.head?_take, if_neg (by decide)]
  seal_size := fun pk key n blob hkey h => toySuite_sealTo_length hkey h

/-- Two genuine keys. -/
theorem frame_intact_two :
    FrameIntact ⟨64, true⟩ rawSuite
      ⟨[rawSuite.publicKey 1, rawSuite.publicKey 2], List.replicate 32 7⟩ [104, 105] 0 := by
  rw [frame_intact_iff ⟨64, true⟩ (Or.inr rfl) rawSuite rawSuite_measured]
  exact Or.inr ⟨by decide, by decide, by decide⟩

/-- A key with a byte too many, and a genuine one after it. -/
def shiftedSession : GroupSession Bytes :=
  ⟨[rawSuite.publicKey 2 ++ [0], rawSuite.publicKey 1], List.replicate 32 7⟩

/-- **The longer key is sealed to, and the genuine member after it cannot read the message.** -/
theorem frame_shifted_by_long_key :
    (shiftedSession.encryptAs ⟨64, true⟩ rawSuite [104, 105] 0).2.2.isOk = true ∧
      ¬ FrameIntact ⟨64, true⟩ rawSuite shiftedSession [104, 105] 0 := by
  have hok : (shiftedSession.encryptAs ⟨64, true⟩ rawSuite [104, 105] 0).2.2.isOk = true := by
    decide +kernel
  refine ⟨hok, ?_⟩
  obtain ⟨ct, hct⟩ := Outcome.exists_of_isOk hok
  rintro (⟨e, he⟩ | ⟨ct', f, stop, hct', -, -, -, hdec⟩)
  · rw [hct] at he
    cases he
  · -- Alice's own decryption, run
    have hbad : ((shiftedSession.encryptAs ⟨64, true⟩ rawSuite [104, 105] 0).2.2.bind fun ct =>
        decryptAs ⟨64, true⟩ rawSuite (.ofKeyPair rawSuite 1) ct).isOk = false := by decide +kernel
    rw [hct'] at hbad
    have halice := hdec 1 (by decide)
    rw [show ((Outcome.ok ct' : Outcome IoError Bytes).bind fun ct =>
      decryptAs ⟨64, true⟩ rawSuite (.ofKeyPair rawSuite 1) ct) =
        decryptAs ⟨64, true⟩ rawSuite (.ofKeyPair rawSuite 1) ct' from rfl, halice] at hbad
    cases hbad

end E2EMessaging.Group
