/-
  `core/protocol/src/group.rs` — THE WIRE FORMAT.

      nonce(12) | payload_len(u32 LE) | AES-GCM ciphertext | wrapper_count(u8)
        | (member_pubkey(33) | sealed_len(u16 LE) | sealed_msg_key)*

  `encryptAs` lays a `Frame` out as bytes (`serialize`); the casts `as u32`, `as u8` and `as u16`
  truncate, so an over-long payload, roster or wrapper would be written with a wrong length.
  `decryptAs` walks the bytes with a position it advances by lengths it reads, on the target's
  `usize` (`Arch`), and unseals the first wrapper addressed to the caller.

  The walk over the wrappers is ONE loop, `wrapperLoop`, parametric in what is remembered of each
  wrapper: `decryptAs` remembers the first blob addressed to the caller, `parseFrame` remembers
  them all.  The crux is `wrapperLoop_serialize`: on the layout of a list of wrappers with 33-byte
  keys and blobs below `2^16` bytes the loop stays aligned — it visits exactly those wrappers, in
  order, and stops at the end of the bytes.
-/
import E2EMessaging.Group.Session

namespace E2EMessaging.Group

open E2EMessaging.Lib

variable {K : Type}

/-! ## The encoder -/

/-- One wrapper: the member's key, the blob's length as `u16`, the blob. -/
def serializeWrapper (w : Bytes × Bytes) : Bytes := w.1 ++ toLeBytes 2 w.2.length ++ w.2

/-- The serialisation at the end of `encrypt_as`. -/
def serialize (f : Frame Bytes) : Bytes :=
  f.nonce ++ toLeBytes 4 f.payload.length ++ f.payload ++
    UInt8.ofNat f.wrappers.length :: (f.wrappers.map serializeWrapper).flatten

/-- `encrypt_as`: the session afterwards, the draws made, the bytes or the error.  A `Vec` cannot
    grow beyond `isize::MAX` bytes: the attempt panics. -/
def GroupSession.encryptAs (a : Arch) (S : Suite Bytes K) (s : GroupSession Bytes)
    (plaintext : Bytes) (rng : Nat) : GroupSession Bytes × Nat × Outcome IoError Bytes :=
  match s.encryptFrame S plaintext rng with
  | (s', rng', .error e) => (s', rng', .err e)
  | (s', rng', .ok f) =>
    (s', rng', if (serialize f).length ≤ a.isizeMax then .ok (serialize f) else .panic)

/-! ## The decoder -/

/-- The error of bytes that are not a frame. -/
def invalidData (message : String) : IoError := ⟨.invalidData, message⟩

/-- The wrapper loop of `decrypt_as`, `count` rounds from `pos`; `see` is what the body does with
    a wrapper's key and blob.  Returns what was remembered and the position after the last round. -/
def wrapperLoop {α : Type} (a : Arch) (ct : Bytes) (see : α → Bytes → Bytes → α) :
    Nat → Nat → α → Outcome IoError (α × Nat)
  | 0, pos, acc => .ok (acc, pos)
  | count + 1, pos, acc => do
    let keyEnd ← a.add pos 33
    let headEnd ← a.add keyEnd 2
    if headEnd > ct.length then .err (invalidData "wrapper truncated")
    else do
      let pubkeyBytes ← slice ct pos keyEnd
      let lenBytes ← slice ct keyEnd headEnd
      let sealedEnd ← a.add headEnd (fromLeBytes lenBytes)
      if sealedEnd > ct.length then .err (invalidData "sealed wrapper truncated")
      else do
        let sealedBytes ← slice ct headEnd sealedEnd
        wrapperLoop a ct see count sealedEnd (see acc pubkeyBytes sealedBytes)

/-- Everything `decrypt_as` reads off the wire: the nonce, the payload, what the loop remembered,
    and the position where it stopped.  Bytes after that position are ignored. -/
def readFrame {α : Type} (a : Arch) (ct : Bytes) (see : α → Bytes → Bytes → α) (init : α) :
    Outcome IoError (Bytes × Bytes × α × Nat) :=
  if ct.length < 12 + 4 + 1 then .err (invalidData "ciphertext too short")
  else do
    let nonceBytes ← slice ct 0 12
    let lenBytes ← slice ct 12 16
    let payloadEnd ← a.add 16 (fromLeBytes lenBytes)
    let countEnd ← a.add payloadEnd 1
    if ct.length < countEnd then .err (invalidData "payload length mismatch")
    else do
      let payload ← slice ct 16 payloadEnd
      let wrapperCount ← byteAt ct payloadEnd
      let (seen, pos) ← wrapperLoop a ct see wrapperCount.toNat countEnd init
      .ok (nonceBytes, payload, seen, pos)

/-- `found_sealed`: the blob of the first wrapper whose key is the caller's. -/
def seeFirst (callerPub : Bytes) (found : Option Bytes) (pubkey blob : Bytes) : Option Bytes :=
  if found.isNone ∧ pubkey = callerPub then some blob else found

/-- `decrypt_as`.  The session is not read, so it is not an argument. -/
def decryptAs (a : Arch) (S : Suite Bytes K) (caller : Caller Bytes) (ct : Bytes) :
    Outcome IoError Bytes := do
  let (nonce, payload, found, _) ← readFrame a ct (seeFirst caller.publicKey) none
  .ofExcept (openPayload S caller found nonce payload)

/-- The frame `decrypt_as` walks through, with the position where it stops. -/
def parseFrame (a : Arch) (ct : Bytes) : Outcome IoError (Frame Bytes × Nat) := do
  let (nonce, payload, wrappers, pos) ←
    readFrame a ct (fun ws pubkey blob => ws ++ [(pubkey, blob)]) []
  .ok (⟨nonce, payload, wrappers⟩, pos)

/-! ## The decoder stays aligned on what the encoder wrote -/

/-- What a wrapper must satisfy for its layout to be read back: a 33-byte key and a blob whose
    length fits the `u16`. -/
def WrapperFits (w : Bytes × Bytes) : Prop := w.1.length = 33 ∧ w.2.length < 2 ^ 16

@[simp] theorem length_serializeWrapper (w : Bytes × Bytes) :
    (serializeWrapper w).length = w.1.length + 2 + w.2.length := by
  simp [serializeWrapper, Nat.add_assoc]

/-- **One round of the loop**, at the start of a wrapper. -/
theorem wrapperLoop_round {α : Type} {a : Arch} {see : α → Bytes → Bytes → α} {acc : α}
    {w : Bytes × Bytes} {pre post ct : Bytes} {count pos : Nat} (hw : WrapperFits w)
    (hct : ct = pre ++ serializeWrapper w ++ post) (hpos : pos = pre.length)
    (hlen : ct.length < 2 ^ a.bits) :
    wrapperLoop a ct see (count + 1) pos acc =
      wrapperLoop a ct see count (pos + (serializeWrapper w).length) (see acc w.1 w.2) := by
  obtain ⟨pk, blob⟩ := w
  obtain ⟨hpk, hblob⟩ : pk.length = 33 ∧ blob.length < 2 ^ 16 := hw
  have hsplit : ct.length = pos + 33 + 2 + blob.length + post.length := by
    rw [hct, hpos]
    simp only [List.length_append, length_serializeWrapper, hpk]
    omega
  -- the three additions stay below the end of the bytes, so none of them overflows
  have hadd1 : (a.add pos 33 : Outcome IoError Nat) = .ok (pos + 33) := Arch.add_of_lt (by omega)
  have hadd2 : (a.add (pos + 33) 2 : Outcome IoError Nat) = .ok (pos + 33 + 2) :=
    Arch.add_of_lt (by omega)
  have hadd3 : (a.add (pos + 33 + 2) blob.length : Outcome IoError Nat) =
      .ok (pos + 33 + 2 + blob.length) := Arch.add_of_lt (by omega)
  -- the three slices are the three parts of the wrapper
  have hkey : (slice ct pos (pos + 33) : Outcome IoError Bytes) = .ok pk := by
    rw [hct, serializeWrapper, ← List.append_assoc, ← List.append_assoc, List.append_assoc _ blob,
      List.append_assoc _ (toLeBytes 2 _)]
    exact slice_append pre pk _ hpos (by omega)
  have hhead : (slice ct (pos + 33) (pos + 33 + 2) : Outcome IoError Bytes) =
      .ok (toLeBytes 2 blob.length) := by
    rw [hct, serializeWrapper, ← List.append_assoc, ← List.append_assoc, List.append_assoc _ blob]
    exact slice_append (pre ++ pk) _ _ (by simp; omega) (by simp; omega)
  have hbody : (slice ct (pos + 33 + 2) (pos + 33 + 2 + blob.length) : Outcome IoError Bytes) =
      .ok blob := by
    rw [hct, serializeWrapper, ← List.append_assoc, ← List.append_assoc]
    exact slice_append (pre ++ pk ++ toLeBytes 2 blob.length) blob post (by simp; omega)
      (by simp; omega)
  have hread : fromLeBytes (toLeBytes 2 blob.length) = blob.length :=
    fromLeBytes_toLeBytes_of_lt (by norm_num; omega)
  rw [wrapperLoop, hadd1, Outcome.ok_bind, hadd2, Outcome.ok_bind, if_neg (by omega), hkey,
    Outcome.ok_bind, hhead, Outcome.ok_bind, hread, hadd3, Outcome.ok_bind, if_neg (by omega),
    hbody, Outcome.ok_bind, length_serializeWrapper]
  congr 1
  simp only [hpk]
  omega

/-- **The loop on a laid-out list of wrappers**: it sees exactly them, in order, and stops where
    they end. -/
theorem wrapperLoop_serialize {α : Type} {a : Arch} {see : α → Bytes → Bytes → α}
    {ws : List (Bytes × Bytes)} {acc : α} {pre post ct : Bytes} {pos : Nat}
    (hws : ∀ w ∈ ws, WrapperFits w)
    (hct : ct = pre ++ (ws.map serializeWrapper).flatten ++ post) (hpos : pos = pre.length)
    (hlen : ct.length < 2 ^ a.bits) :
    wrapperLoop a ct see ws.length pos acc =
      .ok (ws.foldl (fun acc w => see acc w.1 w.2) acc,
        pos + (ws.map serializeWrapper).flatten.length) := by
  induction ws generalizing acc pre pos with
  | nil => simp [wrapperLoop]
  | cons w ws ih =>
    have hct' : ct = pre ++ serializeWrapper w ++ ((ws.map serializeWrapper).flatten ++ post) := by
      rw [hct]
      simp
    rw [List.length_cons, wrapperLoop_round (hws w List.mem_cons_self) hct' hpos hlen]
    have hct'' : ct = (pre ++ serializeWrapper w) ++ (ws.map serializeWrapper).flatten ++ post := by
      rw [hct']
      simp
    rw [ih (fun x hx => hws x (List.mem_cons_of_mem _ hx)) hct'' (by simp [hpos])]
    simp
    omega

/-- What a frame must satisfy for its layout to be read back. -/
structure FrameFits (f : Frame Bytes) : Prop where
  nonce : f.nonce.length = 12
  payload : f.payload.length < 2 ^ 32
  count : f.wrappers.length ≤ maxMembers
  wrappers : ∀ w ∈ f.wrappers, WrapperFits w

/-- **The decoder on the encoder's output**: the nonce, the payload, one round per wrapper in
    order, and no byte left over. -/
theorem readFrame_serialize {α : Type} {a : Arch} {see : α → Bytes → Bytes → α} {init : α}
    {f : Frame Bytes} (hf : FrameFits f) (hlen : (serialize f).length < 2 ^ a.bits) :
    readFrame a (serialize f) see init =
      .ok (f.nonce, f.payload, f.wrappers.foldl (fun acc w => see acc w.1 w.2) init,
        (serialize f).length) := by
  obtain ⟨hnonce, hpayload, hcount, hws⟩ := hf
  set body := (f.wrappers.map serializeWrapper).flatten with hbody
  have hser : serialize f = f.nonce ++ toLeBytes 4 f.payload.length ++ f.payload ++
      UInt8.ofNat f.wrappers.length :: body := rfl
  have hsize : (serialize f).length = 16 + f.payload.length + 1 + body.length := by
    rw [hser]
    simp only [List.length_append, List.length_cons, length_toLeBytes, hnonce]
    omega
  have hnonceS : (slice (serialize f) 0 12 : Outcome IoError Bytes) = .ok f.nonce := by
    rw [hser, List.append_assoc, List.append_assoc]
    exact slice_append [] f.nonce _ rfl (by simp [hnonce])
  have hlenS : (slice (serialize f) 12 16 : Outcome IoError Bytes) =
      .ok (toLeBytes 4 f.payload.length) := by
    rw [hser, List.append_assoc (f.nonce ++ _)]
    exact slice_append f.nonce _ _ hnonce.symm (by simp [hnonce])
  have hpayloadS : (slice (serialize f) 16 (16 + f.payload.length) : Outcome IoError Bytes) =
      .ok f.payload := by
    rw [hser]
    exact slice_append (f.nonce ++ toLeBytes 4 f.payload.length) f.payload _ (by simp [hnonce])
      (by simp [hnonce])
  have hcountB : (byteAt (serialize f) (16 + f.payload.length) : Outcome IoError UInt8) =
      .ok (UInt8.ofNat f.wrappers.length) := by
    rw [hser]
    exact byteAt_append _ _ _ (by simp [hnonce]; omega)
  have hread : fromLeBytes (toLeBytes 4 f.payload.length) = f.payload.length :=
    fromLeBytes_toLeBytes_of_lt (by norm_num; omega)
  have hcountN : (UInt8.ofNat f.wrappers.length).toNat = f.wrappers.length := by
    rw [UInt8.toNat_ofNat']
    exact Nat.mod_eq_of_lt (by rw [maxMembers] at hcount; omega)
  have hadd1 : (a.add 16 f.payload.length : Outcome IoError Nat) = .ok (16 + f.payload.length) :=
    Arch.add_of_lt (by omega)
  have hadd2 : (a.add (16 + f.payload.length) 1 : Outcome IoError Nat) =
      .ok (16 + f.payload.length + 1) := Arch.add_of_lt (by omega)
  have hct : serialize f = (f.nonce ++ toLeBytes 4 f.payload.length ++ f.payload ++
      [UInt8.ofNat f.wrappers.length]) ++ body ++ [] := by
    rw [hser]
    simp
  have hloop : wrapperLoop a (serialize f) see f.wrappers.length (16 + f.payload.length + 1) init =
      .ok (f.wrappers.foldl (fun acc w => see acc w.1 w.2) init,
        16 + f.payload.length + 1 + body.length) :=
    wrapperLoop_serialize hws hct (by simp [hnonce]; omega) hlen
  rw [readFrame, if_neg (by omega), hnonceS, Outcome.ok_bind, hlenS, Outcome.ok_bind, hread, hadd1,
    Outcome.ok_bind, hadd2, Outcome.ok_bind, if_neg (by omega), hpayloadS, Outcome.ok_bind, hcountB,
    Outcome.ok_bind, hcountN, hloop, Outcome.ok_bind, hsize]

/-! ## Reading back what was written -/

theorem foldl_seeAll (ws acc : List (Bytes × Bytes)) :
    ws.foldl (fun acc w => acc ++ [(w.1, w.2)]) acc = acc ++ ws := by
  induction ws generalizing acc with
  | nil => simp
  | cons w ws ih => simp [ih]

theorem foldl_seeFirst_some (pk blob : Bytes) (ws : List (Bytes × Bytes)) :
    ws.foldl (fun acc w => seeFirst pk acc w.1 w.2) (some blob) = some blob := by
  induction ws with
  | nil => rfl
  | cons w ws ih => simpa [seeFirst] using ih

/-- Remembering the first match while walking is finding it afterwards. -/
theorem foldl_seeFirst (pk : Bytes) (ws : List (Bytes × Bytes)) :
    ws.foldl (fun acc w => seeFirst pk acc w.1 w.2) none = findSealed ws pk := by
  induction ws with
  | nil => rfl
  | cons w ws ih =>
    by_cases h : w.1 = pk
    · have hsee : seeFirst pk none w.1 w.2 = some w.2 := by simp [seeFirst, h]
      rw [List.foldl_cons, hsee, foldl_seeFirst_some]
      simp [findSealed, h]
    · have hsee : seeFirst pk none w.1 w.2 = none := by simp [seeFirst, h]
      rw [List.foldl_cons, hsee, ih]
      simp [findSealed, h]

theorem parseFrame_serialize {a : Arch} {f : Frame Bytes} (hf : FrameFits f)
    (hlen : (serialize f).length < 2 ^ a.bits) :
    parseFrame a (serialize f) = .ok (f, (serialize f).length) := by
  rw [parseFrame, readFrame_serialize hf hlen, Outcome.ok_bind, foldl_seeAll, List.nil_append]

/-- **Bytes refine frames**: on the layout of a frame that fits, `decrypt_as` does what
    `decryptFrame` does on the frame. -/
theorem decryptAs_serialize {a : Arch} {S : Suite Bytes K} {caller : Caller Bytes}
    {f : Frame Bytes} (hf : FrameFits f) (hlen : (serialize f).length < 2 ^ a.bits) :
    decryptAs a S caller (serialize f) = .ofExcept (decryptFrame S caller f) := by
  rw [decryptAs, readFrame_serialize hf hlen, Outcome.ok_bind]
  simp only [foldl_seeFirst, decryptFrame]

/-- What `encryptAs` returned, it laid out from a frame, and it fits an allocation. -/
theorem encryptAs_ok {a : Arch} {S : Suite Bytes K} {s : GroupSession Bytes} {p ct : Bytes}
    {rng : Nat} (h : (s.encryptAs a S p rng).2.2 = .ok ct) :
    ∃ f, (s.encryptFrame S p rng).2.2 = .ok f ∧ ct = serialize f ∧
      (serialize f).length ≤ a.isizeMax := by
  rw [GroupSession.encryptAs] at h
  rcases hframe : s.encryptFrame S p rng with ⟨s', rng', res⟩
  rw [hframe] at h
  cases res with
  | error e => simp at h
  | ok f =>
    dsimp only at h
    split at h
    · rename_i hfit
      obtain rfl : serialize f = ct := by simpa using h
      exact ⟨f, rfl, rfl, hfit⟩
    · simp at h

end E2EMessaging.Group
