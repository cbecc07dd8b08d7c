/-
  CAN GROUP DECRYPTION PANIC? (`decrypt_as` of `core/protocol/src/group.rs`, `open_sealed` of
  `core/crypto/src/identity.rs`)

  The bytes come from the network.  The decoder adds lengths it reads to its position, in `usize`, and
  compares the sum with the length of the bytes.  A sum that overflows panics where overflow is checked,
  and where it wraps it passes the comparison and the slice panics instead.

  * After the payload every sum is small: a `u16` or 35 is added to a position inside the bytes, which
    are at most `isize::MAX` long.  So the wrapper loop never panics (`wrapperLoop_ne_panic`).
  * The payload length is a `u32`.  On a 64-bit target the sum is small, too; on a 32-bit one it
    overflows for the 17 largest lengths, and then the decoder panics EITHER WAY.
-/
import E2EMessaging.Lib.Reader
import E2EMessaging.Group.Membership

namespace E2EMessaging.Group

open E2EMessaging.Lib

variable {K : Type}

/-! ## Unsealing -/

/-- `EPH_PUB_LEN`. -/
def ephPubLen : Nat := 32

/-- `NONCE_LEN`. -/
def nonceLen : Nat := 12

/-- `MIN_SEALED_LEN`: the ephemeral key, the nonce and the tag. -/
def minSealedLen : Nat := ephPubLen + nonceLen + 16

/-- What `open_sealed` calls with the private key at hand: the agreement with an ephemeral key, HKDF, and
    ChaCha20-Poly1305 (key, nonce, associated data, ciphertext). -/
structure SealPrims where
  agree : Bytes → Except SealError Bytes
  expand : Bytes → Bytes → Except SealError Bytes
  decrypt : Bytes → Bytes → Bytes → Bytes → Except SealError Bytes

/-- `IdentityKeyPair::open_sealed`, its slices and `Nonce::from_slice` (12 bytes or a panic) included. -/
def openSealed (P : SealPrims) (blob : Bytes) : Outcome SealError Bytes :=
  if blob.length < minSealedLen then .err .malformed
  else do
    let ephPub ← slice blob 0 ephPubLen
    let nonce ← slice blob ephPubLen (ephPubLen + nonceLen)
    let ciphertext ← slice blob (ephPubLen + nonceLen) blob.length
    let shared ← .ofExcept (P.agree ephPub)
    let key ← .ofExcept (P.expand shared ephPub)
    if nonce.length ≠ nonceLen then .panic
    else .ofExcept (P.decrypt key nonce ephPub ciphertext)

/-- The two kinds of callers, with what their `open_sealed` runs. -/
inductive RawCaller where
  | identity (publicKey : Bytes) (P : SealPrims)
  | nonMember (publicKey : Bytes)

/-- `caller.public().to_bytes()`. -/
def RawCaller.publicKey : RawCaller → Bytes
  | .identity pub _ => pub
  | .nonMember pub => pub

/-- `caller.open_sealed(sealed)`. -/
def RawCaller.openSealed (caller : RawCaller) (blob : Bytes) : Outcome IoError Bytes :=
  match caller with
  | .identity _ P =>
    match Group.openSealed P blob with
    | .ok key => .ok key
    | .err e => .err ⟨.invalidData, e.toString⟩
    | .panic => .panic
  | .nonMember _ =>
    .err ⟨.permissionDenied, "non-member holds no private key to open a sealed wrapper"⟩

/-- `decrypt_as` with everything in it that could panic. -/
def decryptAsRaw (a : Arch) (S : Suite Bytes K) (caller : RawCaller) (ct : Bytes) :
    Outcome IoError Bytes := do
  let (nonce, payload, found, _) ← readFrame a ct (seeFirst caller.publicKey) none
  match found with
  | none => .err notAMember
  | some blob => do
    let key ← caller.openSealed blob
    match S.aesNew key with
    | .error e => .err (ioOther e)
    | .ok cipher =>
      match S.aesDecrypt cipher nonce payload with
      | .error e => .err ⟨.invalidData, e⟩
      | .ok plaintext => .ok plaintext

theorem length_slice {bs : Bytes} {i j : Nat} (hij : i ≤ j) (hj : j ≤ bs.length) :
    ((bs.drop i).take (j - i)).length = j - i := by
  rw [List.length_take, List.length_drop]
  omega

/-- **Unsealing never panics**: the length check covers all three slices. -/
theorem openSealed_ne_panic (P : SealPrims) (blob : Bytes) : openSealed P blob ≠ .panic := by
  rw [openSealed]
  split
  · exact Outcome.err_ne_panic _
  · rename_i hlen
    have hmin : 60 ≤ blob.length := Nat.le_of_not_lt hlen
    have h1 : ephPubLen = 32 := rfl
    have h2 : nonceLen = 12 := rfl
    rw [slice_in_range (by omega) (by omega), Outcome.ok_bind, slice_in_range (by omega) (by omega),
      Outcome.ok_bind, slice_in_range (by omega) (by omega), Outcome.ok_bind]
    refine Outcome.bind_ne_panic (Outcome.ofExcept_ne_panic _) fun shared _ => ?_
    refine Outcome.bind_ne_panic (Outcome.ofExcept_ne_panic _) fun key _ => ?_
    rw [if_neg (by rw [length_slice (by omega) (by omega)]; omega)]
    exact Outcome.ofExcept_ne_panic _

theorem RawCaller.openSealed_ne_panic (caller : RawCaller) (blob : Bytes) :
    caller.openSealed blob ≠ .panic := by
  cases caller with
  | nonMember pub => exact Outcome.err_ne_panic _
  | identity pub P =>
    rw [RawCaller.openSealed]
    cases hopen : Group.openSealed P blob with
    | ok key => exact Outcome.ok_ne_panic _
    | err e => exact Outcome.err_ne_panic _
    | panic => exact absurd hopen (Group.openSealed_ne_panic P blob)

/-- The caller as the session sees it: unsealing gives a key or an error. -/
def RawCaller.toCaller (caller : RawCaller) : Caller Bytes where
  publicKey := caller.publicKey
  openSealed := fun blob =>
    match caller.openSealed blob with
    | .ok key => .ok key
    | .err e => .error e
    -- this does not happen
    | .panic => .error notAMember

/-- **Nothing is lost by a caller whose unsealing cannot panic.** -/
theorem decryptAsRaw_eq (a : Arch) (S : Suite Bytes K) (caller : RawCaller) (ct : Bytes) :
    decryptAsRaw a S caller ct = decryptAs a S caller.toCaller ct := by
  rw [decryptAsRaw, decryptAs]
  congr 1
  funext frame
  obtain ⟨nonce, payload, found, pos⟩ := frame
  cases found with
  | none => rfl
  | some blob =>
    have hne := caller.openSealed_ne_panic blob
    simp only [openPayload, RawCaller.toCaller]
    cases hopen : caller.openSealed blob with
    | panic => exact absurd hopen hne
    | err e => rfl
    | ok key =>
      rw [Outcome.ok_bind]
      dsimp only
      cases S.aesNew key with
      | error e => rfl
      | ok cipher =>
        dsimp only
        cases S.aesDecrypt cipher nonce payload with
        | error e => rfl
        | ok plaintext => rfl

/-! ## The wrapper loop -/

/-- The targets the crate is built for. -/
def Supported (a : Arch) : Prop := a.bits = 32 ∨ a.bits = 64

/-- Room above `isize::MAX`. -/
theorem isizeMax_add_lt {a : Arch} (ha : Supported a) : a.isizeMax + 2 ^ 17 < 2 ^ a.bits := by
  rcases ha with h | h <;> rw [Arch.isizeMax, h] <;> decide

/-- **One round of the loop inside the bytes**: no sum overflows, so it reports a truncated wrapper, or reads
    a 33-byte key and a blob and goes on, still inside the bytes. -/
theorem wrapperLoop_step {α : Type} {a : Arch} (ha : Supported a) {ct : Bytes}
    (hct : ct.length ≤ a.isizeMax) (see : α → Bytes → Bytes → α) (count : Nat) {pos : Nat} (acc : α)
    (hpos : pos ≤ ct.length) :
    (∃ e, wrapperLoop a ct see (count + 1) pos acc = .err e) ∨
    ∃ pubkey blob next, pubkey.length = 33 ∧ next ≤ ct.length ∧
      wrapperLoop a ct see (count + 1) pos acc =
        wrapperLoop a ct see count next (see acc pubkey blob) := by
  have hroom := isizeMax_add_lt ha
  rw [wrapperLoop, Arch.add_of_lt (by omega), Outcome.ok_bind, Arch.add_of_lt (by omega),
    Outcome.ok_bind]
  split
  · exact Or.inl ⟨_, rfl⟩
  · rename_i hhead
    rw [slice_in_range (by omega) (by omega), Outcome.ok_bind, slice_in_range (by omega) (by omega),
      Outcome.ok_bind]
    have hkey := length_slice (show pos ≤ pos + 33 by omega) (show pos + 33 ≤ ct.length by omega)
    have hlen : fromLeBytes ((ct.drop (pos + 33)).take (pos + 33 + 2 - (pos + 33))) < 256 ^ 2 := by
      have hbytes := length_slice (show pos + 33 ≤ pos + 33 + 2 by omega) (Nat.le_of_not_lt hhead)
      have htwo : pos + 33 + 2 - (pos + 33) = 2 := by omega
      exact lt_of_lt_of_eq (fromLeBytes_lt _) (by rw [hbytes, htwo])
    rw [Arch.add_of_lt (by omega), Outcome.ok_bind]
    split
    · exact Or.inl ⟨_, rfl⟩
    · rename_i hblob
      rw [slice_in_range (by omega) (by omega), Outcome.ok_bind]
      exact Or.inr ⟨_, _, _, by omega, Nat.le_of_not_lt hblob, rfl⟩

/-- **The wrapper loop never panics.**  By induction on the wrappers announced. -/
theorem wrapperLoop_ne_panic {α : Type} {a : Arch} (ha : Supported a) {ct : Bytes}
    (hct : ct.length ≤ a.isizeMax) (see : α → Bytes → Bytes → α) (count pos : Nat) (acc : α)
    (hpos : pos ≤ ct.length) : wrapperLoop a ct see count pos acc ≠ .panic := by
  induction count generalizing pos acc with
  | zero => exact Outcome.ok_ne_panic _
  | succ count ih =>
    rcases wrapperLoop_step ha hct see count acc hpos with ⟨e, he⟩ | ⟨pubkey, blob, next, -, hnext, hgo⟩
    · rw [he]
      exact Outcome.err_ne_panic _
    · rw [hgo]
      exact ih next _ hnext

/-! ## The whole decoder -/

/-- The payload length field. -/
def payloadLenField (ct : Bytes) : Nat := fromLeBytes ((ct.drop 12).take 4)

theorem payloadLenField_lt (ct : Bytes) : payloadLenField ct < 2 ^ 32 := by
  have hlt := fromLeBytes_lt ((ct.drop 12).take 4)
  have hlen : ((ct.drop 12).take 4).length ≤ 4 := List.length_take_le _ _
  exact lt_of_lt_of_le hlt (Nat.pow_le_pow_right (by decide) hlen)

/-- The bytes reach the payload length, and it overflows the position on a 32-bit target. -/
def Overflows (a : Arch) (ct : Bytes) : Prop :=
  a.bits = 32 ∧ 17 ≤ ct.length ∧ 2 ^ 32 ≤ 17 + payloadLenField ct

/-- **The decoder up to the wrappers, where no sum overflows**: it reports an error, or reads a payload as
    long as the field says and starts the loop inside the bytes. -/
theorem readFrame_step {α : Type} {a : Arch} {ct : Bytes}
    (hlen : 17 + payloadLenField ct < 2 ^ a.bits) (see : α → Bytes → Bytes → α) (init : α) :
    (∃ e, readFrame a ct see init = .err e) ∨
    ∃ (nonce payload : Bytes) (count start : Nat), payload.length = payloadLenField ct ∧
      start ≤ ct.length ∧ readFrame a ct see init =
        (wrapperLoop a ct see count start init >>= fun r => .ok (nonce, payload, r.1, r.2)) := by
  rw [readFrame]
  split
  · exact Or.inl ⟨_, rfl⟩
  · rename_i hshort
    have h17 : 17 ≤ ct.length := Nat.le_of_not_lt hshort
    rw [slice_in_range (by omega) (by omega), Outcome.ok_bind, slice_in_range (by omega) (by omega),
      Outcome.ok_bind, show fromLeBytes ((ct.drop 12).take (16 - 12)) = payloadLenField ct from rfl,
      Arch.add_of_lt (by omega), Outcome.ok_bind, Arch.add_of_lt (by omega), Outcome.ok_bind]
    split
    · exact Or.inl ⟨_, rfl⟩
    · rename_i hend
      obtain ⟨count, hcount, -⟩ : ∃ b, (byteAt ct (16 + payloadLenField ct) : Outcome IoError UInt8) =
        .ok b ∧ _ := byteAt_of_lt (by omega)
      have hpayload := length_slice (show 16 ≤ 16 + payloadLenField ct by omega)
        (show 16 + payloadLenField ct ≤ ct.length by omega)
      rw [slice_in_range (by omega) (by omega), Outcome.ok_bind, hcount, Outcome.ok_bind]
      exact Or.inr ⟨_, _, _, _, by omega, Nat.le_of_not_lt hend, rfl⟩

/-- Where no sum overflows, the decoder does not panic. -/
theorem readFrame_ne_panic {α : Type} {a : Arch} (ha : Supported a) {ct : Bytes}
    (hct : ct.length ≤ a.isizeMax) (hlen : 17 + payloadLenField ct < 2 ^ a.bits)
    (see : α → Bytes → Bytes → α) (init : α) : readFrame a ct see init ≠ .panic := by
  rcases readFrame_step hlen see init with ⟨e, he⟩ | ⟨nonce, payload, count, start, -, hstart, hread⟩
  · rw [he]
    exact Outcome.err_ne_panic _
  · rw [hread]
    refine Outcome.bind_ne_panic (wrapperLoop_ne_panic ha hct see _ _ _ hstart) fun v _ => ?_
    exact Outcome.ok_ne_panic _

/-- **Where the sum overflows, the decoder panics**, with overflow checks or without: checked, at the
    addition; wrapped, the end of the payload lies before its start or beyond the bytes. -/
theorem readFrame_panics {α : Type} {a : Arch} {ct : Bytes} (hct : ct.length ≤ a.isizeMax)
    (hover : Overflows a ct) (see : α → Bytes → Bytes → α) (init : α) :
    readFrame a ct see init = .panic := by
  obtain ⟨hbits, h17, hsum⟩ := hover
  have hfield := payloadLenField_lt ct
  rw [Arch.isizeMax, hbits] at hct
  norm_num at hct
  rw [readFrame, if_neg (by omega), slice_in_range (by omega) (by omega), Outcome.ok_bind,
    slice_in_range (by omega) (by omega), Outcome.ok_bind,
    show fromLeBytes ((ct.drop 12).take (16 - 12)) = payloadLenField ct from rfl]
  generalize payloadLenField ct = len at hsum hfield
  have hout : ∀ e : Nat, e < 16 ∨ ct.length < e → (slice ct 16 e : Outcome IoError Bytes) = .panic := by
    intro e he
    rw [slice, if_neg (by omega)]
  rcases Nat.lt_or_ge (16 + len) (2 ^ 32) with hlt | hge
  · -- only the last addition overflows: the payload would end just below `2^32`
    have hadd : (a.add 16 len : Outcome IoError Nat) = .ok (16 + len) :=
      Arch.add_of_lt (by rw [hbits]; exact hlt)
    rw [hadd, Outcome.ok_bind, Arch.add, hbits, if_neg (by omega)]
    cases a.checked with
    | true => rfl
    | false =>
      rw [if_neg (by decide), Outcome.ok_bind, if_neg (by omega), hout _ (by omega)]
      rfl
  · rw [Arch.add, hbits, if_neg (by omega)]
    cases a.checked with
    | true => rfl
    | false =>
      have hwrap : (16 + len) % 2 ^ 32 = 16 + len - 2 ^ 32 := by omega
      rw [if_neg (by decide), Outcome.ok_bind, hwrap, Arch.add_of_lt (by rw [hbits]; omega),
        Outcome.ok_bind, if_neg (by omega), hout _ (by omega)]
      rfl

/-- **Group decryption returns exactly where the payload length does not overflow the position**: always on
    a 64-bit target, and on a 32-bit one unless the bytes get as far as a length field of `2^32 - 17` or
    more. -/
theorem decrypt_as_no_panic_iff (a : Arch) (ha : Supported a) (S : Suite Bytes K) (caller : RawCaller)
    (ct : Bytes) (hct : ct.length ≤ a.isizeMax) :
    decryptAsRaw a S caller ct ≠ .panic ↔ ¬ Overflows a ct := by
  constructor
  · intro hok hover
    apply hok
    rw [decryptAsRaw, readFrame_panics hct hover]
    rfl
  · intro hfine
    have hlen : 17 + payloadLenField ct < 2 ^ a.bits ∨ ct.length < 17 := by
      have hfield := payloadLenField_lt ct
      rcases ha with h32 | h64
      · rw [h32]
        by_contra hno
        exact hfine ⟨h32, by omega, by omega⟩
      · left
        rw [h64]
        omega
    have hread : ∀ see : Option Bytes → Bytes → Bytes → Option Bytes,
        readFrame a ct see none ≠ .panic := by
      intro see
      rcases hlen with hlen | hshort
      · exact readFrame_ne_panic ha hct hlen see none
      · rw [readFrame, if_pos hshort]
        exact Outcome.err_ne_panic _
    rw [decryptAsRaw]
    refine Outcome.bind_ne_panic (hread _) ?_
    rintro ⟨nonce, payload, found, pos⟩ -
    cases found with
    | none => exact Outcome.err_ne_panic _
    | some blob =>
      refine Outcome.bind_ne_panic (caller.openSealed_ne_panic blob) fun key _ => ?_
      cases S.aesNew key with
      | error e => exact Outcome.err_ne_panic _
      | ok cipher =>
        dsimp only
        cases S.aesDecrypt cipher nonce payload with
        | error e => exact Outcome.err_ne_panic _
        | ok plaintext => exact Outcome.ok_ne_panic _

/-- Seventeen bytes that announce a payload of `2^32 - 1` bytes. -/
def longestPayload : Bytes := List.replicate 12 0 ++ [255, 255, 255, 255] ++ [0]

/-- On a 64-bit target they are refused. -/
theorem decrypt_as_no_panic_64 :
    decryptAsRaw ⟨64, false⟩ toySuite (.nonMember [5]) longestPayload ≠ .panic := by
  rw [decrypt_as_no_panic_iff ⟨64, false⟩ (Or.inr rfl) toySuite (.nonMember [5]) longestPayload
    (by decide)]
  rintro ⟨h, -⟩
  exact absurd h (by decide)

/-- **On a 32-bit target they make the decoder panic**, with overflow checks and without. -/
theorem decrypt_as_panics_on_32 :
    decryptAsRaw ⟨32, true⟩ toySuite (.nonMember [5]) longestPayload = .panic ∧
      decryptAsRaw ⟨32, false⟩ toySuite (.nonMember [5]) longestPayload = .panic := by
  decide +kernel

end E2EMessaging.Group
