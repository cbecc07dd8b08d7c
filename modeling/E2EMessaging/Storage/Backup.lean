/-
  ENCRYPTED BACKUPS (`core/storage/src/backup.rs`).

  A backup is a header (magic, version, salt, nonce) and the AES-256-GCM encryption of a list of
  records under a key derived from the passphrase and the salt; the header is bound to it through the
  associated data.  Inside, the list is a count and the records, each behind its length:

      magic "ECB1" ‖ version ‖ salt (16) ‖ nonce (12) ‖ AEAD( count ‖ [record] ‖ [record] ‖ … )

  Argon2id, SHA-256 and AES-GCM are parameters (`Suite`).  Positions are computed in `usize` (`Arch`)
  and a vector holds at most `isize::MAX` bytes (`vec`).  MEMORY EXHAUSTION IS NOT MODELLED: the
  reader reserves room for as many records as the decrypted count names (`withCapacity`), up to 2^32
  of 24 bytes each, and an allocator that refuses less than `isize::MAX` aborts the real program.

    * `deserializeRecords_eq_ok`: the inner format is read EXACTLY, and what is not a list of records
      is answered with `Tampered` (`deserializeRecords_tampered`), never with a panic;
    * `backup_round_trip`: what was exported is imported again.
-/
import E2EMessaging.Lib.Reader

namespace E2EMessaging.Storage

open E2EMessaging.Lib

/-- `BackupError`. -/
inductive BackupError where
  | tampered
  | decryptionFailed
  | empty
  deriving Repr, DecidableEq

/-- The primitives.  `argon2id` takes passphrase and salt (19 MiB, two passes, one lane, 32 bytes);
    `encrypt` and `decrypt` are AES-256-GCM on key, nonce, message and associated data, the tag at
    the end of the ciphertext. -/
structure Suite where
  argon2id : Bytes → Bytes → Option Bytes
  sha256 : Bytes → Bytes
  encrypt : Bytes → Bytes → Bytes → Bytes → Option Bytes
  decrypt : Bytes → Bytes → Bytes → Bytes → Option Bytes

/-- A byte array of fixed length, `[u8; n]`. -/
abbrev ByteArrayN (n : Nat) := {bs : Bytes // bs.length = n}

/-- `MAGIC`: "ECB1". -/
def magic : Bytes := [0x45, 0x43, 0x42, 0x31]

/-- `VERSION`. -/
def version : UInt8 := 1

/-- A vector with these bytes: allocating more than `isize::MAX` of them panics. -/
def vec (a : Arch) (bs : Bytes) : Outcome BackupError Bytes :=
  if bs.length ≤ a.isizeMax then .ok bs else .panic

/-- An internal failure is reported as `Empty`. -/
def orEmpty {α : Type} : Option α → Outcome BackupError α
  | some v => .ok v
  | none => .err .empty

/-! ## Keys and associated data -/

/-- `derive_key`. -/
def deriveKey (S : Suite) (passphrase salt : Bytes) : Outcome BackupError Bytes := do
  let hash ← orEmpty (S.argon2id passphrase salt)
  if hash.length < 32 then .err .empty
  else .ok (hash.take 32)

/-- `build_aad`. -/
def buildAad (S : Suite) (salt nonce : Bytes) : Bytes :=
  S.sha256 (magic ++ [version] ++ salt ++ nonce)

/-! ## The inner format -/

/-- `serialize_records`. -/
def serializeRecords (records : List Bytes) : Bytes :=
  toBeBytes 4 records.length ++ records.flatMap fun r => toBeBytes 4 r.length ++ r

/-- One turn of the loop: the length at `off`, the record behind it, and the next offset. -/
def readRecord (a : Arch) (buf : Bytes) (off : Nat) : Outcome BackupError (Bytes × Nat) := do
  let stop ← a.add off 4
  if stop > buf.length then .err .tampered
  else
    let lenBytes ← slice buf off stop
    let len := fromBeBytes lenBytes
    let off := stop
    let stop ← a.add off len
    if stop > buf.length then .err .tampered
    else
      let record ← slice buf off stop
      .ok (record, stop)

/-- The loop. -/
def readRecords (a : Arch) (buf : Bytes) : Nat → Nat → Outcome BackupError (List Bytes × Nat)
  | 0, off => .ok ([], off)
  | n + 1, off => do
    let (record, off) ← readRecord a buf off
    let (records, off) ← readRecords a buf n off
    .ok (record :: records, off)

/-- `Vec::with_capacity(n)` for vectors of bytes, three words each. -/
def withCapacity (a : Arch) (n : Nat) : Outcome BackupError Unit :=
  if n * (3 * (a.bits / 8)) ≤ a.isizeMax then .ok () else .panic

/-- `deserialize_records`. -/
def deserializeRecords (a : Arch) (buf : Bytes) : Outcome BackupError (List Bytes) :=
  if buf.length < 4 then .err .tampered
  else do
    let nBytes ← slice buf 0 4
    let n := fromBeBytes nBytes
    if n = 0 then .err .tampered
    else do
      withCapacity a n
      let (out, off) ← readRecords a buf n 4
      if off ≠ buf.length then .err .tampered
      else .ok out

/-! ## Export and import -/

/-- `export`, with what the random generator gave for salt and nonce. -/
def exportBackup (S : Suite) (a : Arch) (salt : Option (ByteArrayN 16)) (nonce : Option (ByteArrayN 12))
    (passphrase : Bytes) (records : List Bytes) : Outcome BackupError Bytes :=
  if records.isEmpty then .err .empty
  else do
    let salt ← orEmpty salt
    let nonce ← orEmpty nonce
    let key ← deriveKey S passphrase salt.val
    let plaintext ← vec a (serializeRecords records)
    let aad := buildAad S salt.val nonce.val
    let ciphertextWithTag ← orEmpty (S.encrypt key nonce.val plaintext aad)
    vec a (magic ++ [version] ++ salt.val ++ nonce.val ++ ciphertextWithTag)

/-- `try_into()` of a slice to an array. -/
def tryInto (n : Nat) (bs : Bytes) : Outcome BackupError (ByteArrayN n) :=
  if h : bs.length = n then .ok ⟨bs, h⟩ else .err .tampered

/-- The AEAD's answer; whatever it rejects is `DecryptionFailed`. -/
def orDecryptionFailed : Option Bytes → Outcome BackupError Bytes
  | some v => .ok v
  | none => .err .decryptionFailed

/-- `import`. -/
def importBackup (S : Suite) (a : Arch) (passphrase blob : Bytes) :
    Outcome BackupError (List Bytes) :=
  if blob.length < magic.length + 1 + 16 + 12 + 16 + 4 then .err .tampered
  else do
    let head ← slice blob 0 magic.length
    if head ≠ magic then .err .tampered
    else do
      let v ← byteAt blob magic.length
      if v ≠ version then .err .tampered
      else do
        let off := magic.length + 1
        let salt ← tryInto 16 (← slice blob off (off + 16))
        let off := off + 16
        let nonce ← tryInto 12 (← slice blob off (off + 12))
        let off := off + 12
        let ciphertextAndTag ← slice blob off blob.length
        if ciphertextAndTag.length < 16 then .err .tampered
        else do
          let aad := buildAad S salt.val nonce.val
          let key ← deriveKey S passphrase salt.val
          let plaintext ← orDecryptionFailed (S.decrypt key nonce.val ciphertextAndTag aad)
          deserializeRecords a plaintext

/-! ## The inner format is read exactly -/

section

variable {a : Arch} {buf : Bytes} {off stop : Nat}

/-- One turn of the loop finds the record that stands at its offset. -/
theorem readRecord_eq_ok (hroom : buf.length + 2 ^ 32 ≤ 2 ^ a.bits) (hoff : off ≤ buf.length)
    {record : Bytes} :
    readRecord a buf off = .ok (record, stop) ↔
      record.length < 2 ^ 32 ∧ Spans buf off (withLength (toBeBytes 4) record) stop := by
  rw [readRecord, Arch.add_of_lt (by omega), Outcome.ok_bind]
  constructor
  · intro h
    split at h
    · cases h
    · simp only [Outcome.bind_eq_ok (x := slice buf off (off + 4)), slice_eq_ok] at h
      obtain ⟨lenBytes, hlen, h⟩ := h
      have hfour : lenBytes.length = 4 := by
        have hstop := hlen.stop_eq
        omega
      obtain ⟨hlt, hback⟩ := fourBytes_iff.mpr ⟨hfour, rfl⟩
      have hle := hlen.le_length
      rw [Arch.add_of_lt (by omega), Outcome.ok_bind] at h
      split at h
      · cases h
      · simp only [Outcome.bind_eq_ok, slice_eq_ok] at h
        obtain ⟨record', hrecord, h⟩ := h
        cases h
        have hcount : record.length = fromBeBytes lenBytes := by
          have hstop := hrecord.stop_eq
          omega
        refine ⟨hcount.symm ▸ hlt, ?_⟩
        rw [withLength, hcount, ← hback]
        exact hlen.append hrecord
  · rintro ⟨hlt, h⟩
    obtain ⟨start, hlen, hrecord⟩ := spans_append.mp h
    obtain rfl : start = off + 4 := by
      rw [hlen.stop_eq, length_toBeBytes]
    obtain rfl := hrecord.stop_eq
    have hle := hrecord.le_length
    rw [if_neg (by omega), slice_eq_ok.mpr hlen, Outcome.ok_bind]
    dsimp only
    rw [fromBeBytes_toBeBytes_of_lt hlt, Arch.add_of_lt (by omega), Outcome.ok_bind,
      if_neg (by omega), slice_eq_ok.mpr hrecord, Outcome.ok_bind]

theorem readRecord_failsOnlyWith (hroom : buf.length + 2 ^ 32 ≤ 2 ^ a.bits) (hoff : off ≤ buf.length) :
    (readRecord a buf off).FailsOnlyWith .tampered := by
  rw [readRecord, Arch.add_of_lt (by omega), Outcome.ok_bind]
  split
  · exact Outcome.failsOnlyWith_err _
  · rename_i hfour
    rw [slice_in_range (by omega) (by omega), Outcome.ok_bind]
    dsimp only
    have hlt := fromBeBytes_lt ((buf.drop off).take (off + 4 - off))
    have hlen : ((buf.drop off).take (off + 4 - off)).length = 4 := by
      rw [List.length_take, List.length_drop]
      omega
    rw [hlen] at hlt
    rw [Arch.add_of_lt (by omega), Outcome.ok_bind]
    split
    · exact Outcome.failsOnlyWith_err _
    · rename_i hfits
      rw [slice_in_range (by omega) (by omega), Outcome.ok_bind]
      exact Outcome.failsOnlyWith_ok _ _

/-- The loop finds as many records as it was told to, one behind the other. -/
theorem readRecords_eq_ok (hroom : buf.length + 2 ^ 32 ≤ 2 ^ a.bits) {n : Nat}
    (hoff : off ≤ buf.length) {records : List Bytes} :
    readRecords a buf n off = .ok (records, stop) ↔
      records.length = n ∧ (∀ r ∈ records, r.length < 2 ^ 32) ∧
        Spans buf off (records.flatMap (withLength (toBeBytes 4))) stop := by
  induction n generalizing off records with
  | zero =>
    constructor
    · intro h
      cases h
      exact ⟨rfl, fun r hr => (by cases hr), spans_nil hoff⟩
    · rintro ⟨hlen, -, h⟩
      obtain rfl := List.length_eq_zero_iff.mp hlen
      obtain rfl : stop = off := h.stop_eq
      rfl
  | succ n ih =>
    simp only [readRecords, Outcome.bind_eq_ok, Prod.exists, readRecord_eq_ok hroom hoff]
    constructor
    · rintro ⟨record, mid, ⟨hlt, hrecord⟩, rest, stop', hrest, h⟩
      cases h
      obtain ⟨hlen, hall, hspan⟩ := (ih hrecord.le_length).mp hrest
      refine ⟨by rw [List.length_cons, hlen], ?_, ?_⟩
      · intro r hr
        rcases List.mem_cons.mp hr with rfl | hr
        · exact hlt
        · exact hall r hr
      · rw [List.flatMap_cons]
        exact hrecord.append hspan
    · rintro ⟨hlen, hall, hspan⟩
      cases records with
      | nil => cases hlen
      | cons record rest =>
        rw [List.flatMap_cons] at hspan
        obtain ⟨mid, hrecord, hspan⟩ := spans_append.mp hspan
        refine ⟨record, mid, ⟨hall record List.mem_cons_self, hrecord⟩, rest, stop, ?_, rfl⟩
        apply (ih hrecord.le_length).mpr
        exact ⟨Nat.succ.inj hlen, fun r hr => hall r (List.mem_cons_of_mem _ hr), hspan⟩

theorem readRecords_failsOnlyWith (hroom : buf.length + 2 ^ 32 ≤ 2 ^ a.bits) {n : Nat}
    (hoff : off ≤ buf.length) : (readRecords a buf n off).FailsOnlyWith .tampered := by
  induction n generalizing off with
  | zero => exact Outcome.failsOnlyWith_ok _ _
  | succ n ih =>
    rw [readRecords]
    refine (readRecord_failsOnlyWith hroom hoff).bind ?_
    rintro ⟨record, mid⟩ hrecord
    have hmid := ((readRecord_eq_ok hroom hoff).mp hrecord).2.le_length
    refine (ih hmid).bind ?_
    rintro ⟨rest, stop⟩ -
    exact Outcome.failsOnlyWith_ok _ _

end

/-- A list the inner format can hold: not empty, counted by a `u32`, each record counted by one. -/
structure Storable (records : List Bytes) : Prop where
  nonempty : records ≠ []
  count : records.length < 2 ^ 32
  lengths : ∀ r ∈ records, r.length < 2 ^ 32

/-- On a 64-bit target, positions in a slice and a `u32` behind them are computed without overflow. -/
theorem room_of_bits {a : Arch} (h64 : a.bits = 64) {bs : Bytes} (hbs : bs.length ≤ a.isizeMax) :
    bs.length + 2 ^ 32 ≤ 2 ^ a.bits := by
  rw [Arch.isizeMax, h64] at hbs
  rw [h64]
  omega

theorem withCapacity_ok {a : Arch} (h64 : a.bits = 64) {n : Nat} (hn : n < 2 ^ 32) :
    withCapacity a n = .ok () := by
  have hfits : n * (3 * (a.bits / 8)) ≤ a.isizeMax := by
    rw [Arch.isizeMax, h64]
    omega
  rw [withCapacity, if_pos hfits]

section

variable {a : Arch} {s : Bytes}

/-- What `deserialize_records` does behind its first check. -/
theorem deserializeRecords_eq (h64 : a.bits = 64) (hfour : ¬ s.length < 4) :
    deserializeRecords a s =
      if fromBeBytes (s.take 4) = 0 then .err .tampered
      else (do
        let (out, off) ← readRecords a s (fromBeBytes (s.take 4)) 4
        if off ≠ s.length then .err .tampered else .ok out) := by
  have hlt := fromBeBytes_lt (s.take 4)
  rw [List.length_take_of_le (Nat.not_lt.mp hfour)] at hlt
  rw [deserializeRecords, if_neg hfour, slice_in_range (Nat.zero_le 4) (Nat.not_lt.mp hfour),
    Outcome.ok_bind]
  simp only [List.drop_zero, Nat.sub_zero]
  rw [withCapacity_ok h64 hlt, Outcome.ok_bind]

/-- **The inner format is read exactly**: a list comes out of what writing it gives, and out of
    nothing else. -/
theorem deserializeRecords_eq_ok (h64 : a.bits = 64) (hs : s.length ≤ a.isizeMax)
    {records : List Bytes} :
    deserializeRecords a s = .ok records ↔ Storable records ∧ serializeRecords records = s := by
  have hroom := room_of_bits h64 hs
  constructor
  · intro h
    by_cases hfour : s.length < 4
    · rw [deserializeRecords, if_pos hfour] at h
      cases h
    · have hlen : (s.take 4).length = 4 := List.length_take_of_le (Nat.not_lt.mp hfour)
      rw [deserializeRecords_eq h64 hfour] at h
      split at h
      · cases h
      · rename_i hn
        simp only [Outcome.bind_eq_ok, Prod.exists] at h
        obtain ⟨out, off, hread, h⟩ := h
        split at h
        · cases h
        · rename_i hend
          cases h
          obtain rfl : off = s.length := Decidable.not_not.mp hend
          obtain ⟨hcount, hall, hspan⟩ := (readRecords_eq_ok hroom (Nat.not_lt.mp hfour)).mp hread
          obtain ⟨hlt, hback⟩ := fourBytes_iff.mpr ⟨hlen, rfl⟩
          refine ⟨⟨?_, hcount.symm ▸ hlt, hall⟩, ?_⟩
          · rintro rfl
            exact hn hcount.symm
          · have hrest : s.drop 4 = records.flatMap (withLength (toBeBytes 4)) := by
              have hdrop := hspan.2.2
              rwa [List.drop_length, List.append_nil] at hdrop
            show toBeBytes 4 records.length ++ records.flatMap (withLength (toBeBytes 4)) = s
            rw [hcount, ← hback, ← hrest, List.take_append_drop]
  · rintro ⟨hrecords, rfl⟩
    have htake : (serializeRecords records).take 4 = toBeBytes 4 records.length :=
      List.take_left' (length_toBeBytes 4 _)
    have hnum : fromBeBytes ((serializeRecords records).take 4) = records.length := by
      rw [htake, fromBeBytes_toBeBytes_of_lt hrecords.count]
    have hwhole := spans_whole.mpr (rfl : serializeRecords records = serializeRecords records)
    obtain ⟨start, hcount, hspan⟩ := spans_append.mp hwhole
    obtain rfl : start = 4 := by
      rw [hcount.stop_eq, length_toBeBytes]
    have hfour : ¬ (serializeRecords records).length < 4 := Nat.not_lt.mpr hcount.le_length
    have hne : fromBeBytes ((serializeRecords records).take 4) ≠ 0 := by
      rw [hnum]
      exact fun h => hrecords.nonempty (List.length_eq_zero_iff.mp h)
    rw [deserializeRecords_eq h64 hfour, if_neg hne, hnum]
    simp only [Outcome.bind_eq_ok, Prod.exists, readRecords_eq_ok hroom hcount.le_length]
    refine ⟨records, (serializeRecords records).length, ⟨rfl, hrecords.lengths, hspan⟩, ?_⟩
    rw [if_neg (fun hne => hne rfl)]

/-- Whatever is no list of records is answered with `Tampered`. -/
theorem deserializeRecords_failsOnlyWith (h64 : a.bits = 64) (hs : s.length ≤ a.isizeMax) :
    (deserializeRecords a s).FailsOnlyWith .tampered := by
  have hroom := room_of_bits h64 hs
  by_cases hfour : s.length < 4
  · rw [deserializeRecords, if_pos hfour]
    exact Outcome.failsOnlyWith_err _
  · rw [deserializeRecords_eq h64 hfour]
    split
    · exact Outcome.failsOnlyWith_err _
    · refine (readRecords_failsOnlyWith hroom (Nat.not_lt.mp hfour)).bind ?_
      rintro ⟨out, off⟩ -
      dsimp only
      split
      · exact Outcome.failsOnlyWith_err _
      · exact Outcome.failsOnlyWith_ok _ _

end

/-! ## The header -/

/-- `blob` is a header with this salt and nonce, and a ciphertext behind it that holds at least a tag
    and a count. -/
def IsBlob (blob : Bytes) (salt : ByteArrayN 16) (nonce : ByteArrayN 12) (ciphertext : Bytes) : Prop :=
  blob = magic ++ [version] ++ salt.val ++ nonce.val ++ ciphertext ∧ 20 ≤ ciphertext.length

/-- What `import` does behind the header. -/
def openBlob (S : Suite) (a : Arch) (passphrase : Bytes) (salt : ByteArrayN 16)
    (nonce : ByteArrayN 12) (ciphertext : Bytes) : Outcome BackupError (List Bytes) := do
  let key ← deriveKey S passphrase salt.val
  let plaintext ← orDecryptionFailed
    (S.decrypt key nonce.val ciphertext (buildAad S salt.val nonce.val))
  deserializeRecords a plaintext

section

variable {S : Suite} {a : Arch} {passphrase blob ciphertext : Bytes} {salt : ByteArrayN 16}
  {nonce : ByteArrayN 12}

theorem tryInto_of_length {n : Nat} {bs : Bytes} (h : bs.length = n) :
    tryInto n bs = .ok ⟨bs, h⟩ := dif_pos h

/-- Where the parts of a blob stand. -/
theorem IsBlob.spans (h : IsBlob blob salt nonce ciphertext) :
    Spans blob 0 magic 4 ∧ Spans blob 4 [version] 5 ∧ Spans blob 5 salt.val 21 ∧
      Spans blob 21 nonce.val 33 ∧ Spans blob 33 ciphertext blob.length ∧ 53 ≤ blob.length := by
  obtain ⟨hblob, hlen⟩ := h
  obtain ⟨o4, h, hct⟩ := spans_append.mp (spans_whole.mpr hblob.symm)
  obtain ⟨o3, h, hnonce⟩ := spans_append.mp h
  obtain ⟨o2, h, hsalt⟩ := spans_append.mp h
  obtain ⟨o1, hmagic, hversion⟩ := spans_append.mp h
  obtain rfl : o1 = 4 := hmagic.stop_eq
  obtain rfl : o2 = 5 := hversion.stop_eq
  obtain rfl : o3 = 21 := by
    rw [hsalt.stop_eq, salt.property]
  obtain rfl : o4 = 33 := by
    rw [hnonce.stop_eq, nonce.property]
  have hstop := hct.stop_eq
  exact ⟨hmagic, hversion, hsalt, hnonce, hct, by omega⟩

/-- A string that is long enough and starts with the magic and the version is a blob. -/
theorem exists_isBlob (hlen : 53 ≤ blob.length) (hmagic : Spans blob 0 magic 4)
    (hversion : Spans blob 4 [version] 5) : ∃ salt nonce ciphertext, IsBlob blob salt nonce ciphertext := by
  have hsalt : Spans blob 5 ((blob.drop 5).take 16) 21 := spans_of_le (by omega) (by omega)
  have hnonce : Spans blob 21 ((blob.drop 21).take 12) 33 := spans_of_le (by omega) (by omega)
  have hct : Spans blob 33 ((blob.drop 33).take (blob.length - 33)) blob.length :=
    spans_of_le (by omega) (Nat.le_refl _)
  have hsaltLen : ((blob.drop 5).take 16).length = 16 := by
    have hstop := hsalt.stop_eq
    omega
  have hnonceLen : ((blob.drop 21).take 12).length = 12 := by
    have hstop := hnonce.stop_eq
    omega
  have hctLen := hct.stop_eq
  have hblob := spans_whole.mp ((((hmagic.append hversion).append hsalt).append hnonce).append hct)
  exact ⟨⟨_, hsaltLen⟩, ⟨_, hnonceLen⟩, _, hblob.symm, by omega⟩

/-- The parts of the header stand where `import` looks for them. -/
theorem importBackup_of_isBlob (h : IsBlob blob salt nonce ciphertext) :
    importBackup S a passphrase blob = openBlob S a passphrase salt nonce ciphertext := by
  have hlen := h.2
  obtain ⟨hmagic, hversion, hsalt, hnonce, hct, htotal⟩ := h.spans
  have hlong : ¬ blob.length < magic.length + 1 + 16 + 12 + 16 + 4 := Nat.not_lt.mpr htotal
  have hslice0 : (slice blob 0 magic.length : Outcome BackupError Bytes) = .ok magic :=
    slice_eq_ok.mpr hmagic
  have hbyte : (byteAt blob magic.length : Outcome BackupError UInt8) = .ok version :=
    byteAt_eq_ok.mpr hversion
  have hslice5 : (slice blob (magic.length + 1) (magic.length + 1 + 16) : Outcome BackupError Bytes) =
      .ok salt.val := slice_eq_ok.mpr hsalt
  have hslice21 : (slice blob (magic.length + 1 + 16) (magic.length + 1 + 16 + 12) :
      Outcome BackupError Bytes) = .ok nonce.val := slice_eq_ok.mpr hnonce
  have hslice33 : (slice blob (magic.length + 1 + 16 + 12) blob.length : Outcome BackupError Bytes) =
      .ok ciphertext := slice_eq_ok.mpr hct
  rw [importBackup, if_neg hlong, hslice0, Outcome.ok_bind, if_neg (fun hne => hne rfl), hbyte,
    Outcome.ok_bind, if_neg (fun hne => hne rfl)]
  dsimp only
  rw [hslice5, Outcome.ok_bind, tryInto_of_length salt.property, Outcome.ok_bind, hslice21,
    Outcome.ok_bind, tryInto_of_length nonce.property, Outcome.ok_bind, hslice33, Outcome.ok_bind,
    if_neg (by omega), openBlob]

/-- Whatever has no header is answered with `Tampered`, before any key is derived. -/
theorem importBackup_of_not_isBlob (h : ∀ salt nonce ciphertext, ¬ IsBlob blob salt nonce ciphertext) :
    importBackup S a passphrase blob = .err .tampered := by
  rw [importBackup]
  by_cases htotal : blob.length < magic.length + 1 + 16 + 12 + 16 + 4
  · rw [if_pos htotal]
  · have hlen : 53 ≤ blob.length := Nat.not_lt.mp htotal
    rw [if_neg htotal]
    obtain ⟨head, hhead, hmagic⟩ :=
      slice_of_le (ε := BackupError) (Nat.zero_le 4) (show 4 ≤ blob.length by omega)
    rw [show magic.length = 4 from rfl, hhead, Outcome.ok_bind]
    by_cases hm : head = magic
    · rw [if_neg (fun hne => hne hm)]
      obtain ⟨v, hv, hversion⟩ := byteAt_of_lt (ε := BackupError) (show 4 < blob.length by omega)
      rw [hv, Outcome.ok_bind]
      by_cases hver : v = version
      · -- all checks pass: there is a header after all
        obtain ⟨salt, nonce, ct, hblob⟩ := exists_isBlob hlen (hm ▸ hmagic) (hver ▸ hversion)
        exact absurd hblob (h salt nonce ct)
      · rw [if_pos hver]
    · rw [if_pos hm]

end

/-! ## Round trip -/

/-- AES-GCM decrypts what it encrypted under the same key, nonce and associated data; its ciphertext
    is as long as the message and the tag. -/
structure Suite.Lawful (S : Suite) : Prop where
  decrypts : ∀ {key nonce message aad ciphertext}, S.encrypt key nonce message aad = some ciphertext →
    S.decrypt key nonce ciphertext aad = some message
  encrypted : ∀ {key nonce message aad ciphertext}, S.encrypt key nonce message aad = some ciphertext →
    ciphertext.length = message.length + 16

theorem vec_eq_ok {a : Arch} {bs bs' : Bytes} :
    vec a bs = .ok bs' ↔ bs.length ≤ a.isizeMax ∧ bs' = bs := by
  rw [vec]
  split
  · rename_i h
    simp [h, eq_comm]
  · rename_i h
    simp [h]

theorem orEmpty_eq_ok {α : Type} {o : Option α} {v : α} : orEmpty o = .ok v ↔ o = some v := by
  cases o with
  | none => simp [orEmpty]
  | some v' => simp [orEmpty]

/-- What an export is made of. -/
theorem exportBackup_eq_ok {S : Suite} {a : Arch} {salt? : Option (ByteArrayN 16)}
    {nonce? : Option (ByteArrayN 12)} {passphrase blob : Bytes} {records : List Bytes} :
    exportBackup S a salt? nonce? passphrase records = .ok blob ↔
      records ≠ [] ∧ ∃ salt nonce key ciphertext, salt? = some salt ∧ nonce? = some nonce ∧
        deriveKey S passphrase salt.val = .ok key ∧
        (serializeRecords records).length ≤ a.isizeMax ∧
        S.encrypt key nonce.val (serializeRecords records) (buildAad S salt.val nonce.val) =
          some ciphertext ∧
        blob = magic ++ [version] ++ salt.val ++ nonce.val ++ ciphertext ∧
        blob.length ≤ a.isizeMax := by
  rw [exportBackup]
  cases records with
  | nil => simp
  | cons r rs =>
    simp only [List.isEmpty_cons, Bool.false_eq_true, if_false, Outcome.bind_eq_ok, orEmpty_eq_ok,
      vec_eq_ok]
    constructor
    · rintro ⟨salt, hsalt, nonce, hnonce, key, hkey, plaintext, ⟨hfits, rfl⟩, ciphertext, henc, hle, rfl⟩
      exact ⟨List.cons_ne_nil r rs, salt, nonce, key, ciphertext, hsalt, hnonce, hkey, hfits, henc, rfl,
        hle⟩
    · rintro ⟨-, salt, nonce, key, ciphertext, hsalt, hnonce, hkey, hfits, henc, rfl, hle⟩
      exact ⟨salt, hsalt, nonce, hnonce, key, hkey, _, ⟨hfits, rfl⟩, ciphertext, henc, hle, rfl⟩

/-- A serialised list holds at least its count. -/
theorem four_le_length_serializeRecords (records : List Bytes) :
    4 ≤ (serializeRecords records).length := by
  rw [serializeRecords, List.length_append, length_toBeBytes]
  omega

/-- **What was exported is imported again**, under the same passphrase. -/
theorem importBackup_exportBackup {S : Suite} (hS : S.Lawful) {a : Arch} (h64 : a.bits = 64)
    {salt? : Option (ByteArrayN 16)} {nonce? : Option (ByteArrayN 12)} {passphrase blob : Bytes}
    {records : List Bytes} (hcount : records.length < 2 ^ 32) (hlens : ∀ r ∈ records, r.length < 2 ^ 32)
    (h : exportBackup S a salt? nonce? passphrase records = .ok blob) :
    importBackup S a passphrase blob = .ok records := by
  obtain ⟨hne, salt, nonce, key, ciphertext, -, -, hkey, hfits, henc, hblob, -⟩ :=
    exportBackup_eq_ok.mp h
  have hlen : 20 ≤ ciphertext.length := by
    have hfour := four_le_length_serializeRecords records
    rw [hS.encrypted henc]
    omega
  rw [importBackup_of_isBlob ⟨hblob, hlen⟩, openBlob, hkey, Outcome.ok_bind, hS.decrypts henc]
  show deserializeRecords a (serializeRecords records) = .ok records
  exact (deserializeRecords_eq_ok h64 hfits).mpr ⟨⟨hne, hcount, hlens⟩, rfl⟩

/-- **Backups round-trip and their format is exact** (64-bit `usize`).  Nothing is not exported;
    whatever is exported is imported again, and it is exported whenever the primitives succeed and
    the blob fits a vector; the inner format is accepted exactly where writing a non-empty list gives
    it, and everything else is `Tampered`. -/
theorem backup_round_trip (S : Suite) (hS : S.Lawful) (a : Arch) (h64 : a.bits = 64) :
    (∀ salt? nonce? passphrase, exportBackup S a salt? nonce? passphrase [] = .err .empty) ∧
    (∀ salt? nonce? passphrase records blob, records.length < 2 ^ 32 →
      (∀ r ∈ records, r.length < 2 ^ 32) →
      exportBackup S a salt? nonce? passphrase records = .ok blob →
      importBackup S a passphrase blob = .ok records) ∧
    (∀ (salt : ByteArrayN 16) (nonce : ByteArrayN 12) passphrase records key ciphertext, records ≠ [] →
      deriveKey S passphrase salt.val = .ok key →
      S.encrypt key nonce.val (serializeRecords records) (buildAad S salt.val nonce.val) =
        some ciphertext →
      (serializeRecords records).length + 49 ≤ a.isizeMax →
      ∃ blob, exportBackup S a (some salt) (some nonce) passphrase records = .ok blob) ∧
    (∀ s records, s.length ≤ a.isizeMax →
      (deserializeRecords a s = .ok records ↔ Storable records ∧ serializeRecords records = s)) ∧
    (∀ s, s.length ≤ a.isizeMax → (∀ records, Storable records → serializeRecords records ≠ s) →
      deserializeRecords a s = .err .tampered) := by
  refine ⟨fun _ _ _ => rfl, ?_, ?_, fun s records hs => deserializeRecords_eq_ok h64 hs, ?_⟩
  · intro salt? nonce? passphrase records blob hcount hlens h
    exact importBackup_exportBackup hS h64 hcount hlens h
  · intro salt nonce passphrase records key ciphertext hne hkey henc hfits
    refine ⟨_, exportBackup_eq_ok.mpr ⟨hne, salt, nonce, key, ciphertext, rfl, rfl, hkey, by omega,
      henc, rfl, ?_⟩⟩
    simp only [List.length_append, hS.encrypted henc, salt.property, nonce.property]
    show 4 + 1 + 16 + 12 + _ ≤ _
    omega
  · intro s hs hnone
    rcases deserializeRecords_failsOnlyWith h64 hs with ⟨records, h⟩ | h
    · obtain ⟨hrecords, hser⟩ := (deserializeRecords_eq_ok h64 hs).mp h
      exact absurd hser (hnone records hrecords)
    · exact h

/-! ## A suite to run -/

/-- The tag of the stand-in cipher: it depends on key, nonce and associated data. -/
def standInTag (key nonce aad : Bytes) : Bytes :=
  toBeBytes 16 (fromBeBytes (key ++ nonce ++ aad))

/-- A stand-in with the shape of the real primitives: 32-byte keys and hashes, the message in the
    clear and a 16-byte tag behind it that decryption checks. -/
def standIn : Suite where
  argon2id := fun passphrase salt => some (toBeBytes 32 (fromBeBytes (passphrase ++ salt)))
  sha256 := fun bs => toBeBytes 32 (fromBeBytes bs)
  encrypt := fun key nonce message aad => some (message ++ standInTag key nonce aad)
  decrypt := fun key nonce ciphertext aad =>
    if ciphertext.drop (ciphertext.length - 16) = standInTag key nonce aad then
      some (ciphertext.take (ciphertext.length - 16))
    else none

theorem standIn_lawful : standIn.Lawful where
  decrypts := by
    intro key nonce message aad ciphertext h
    cases h
    have hlen : (message ++ standInTag key nonce aad).length - 16 = message.length := by
      rw [List.length_append, standInTag, length_toBeBytes, Nat.add_sub_cancel]
    simp only [standIn, hlen, List.drop_left, List.take_left, if_true]
  encrypted := by
    intro key nonce message aad ciphertext h
    cases h
    rw [List.length_append, standInTag, length_toBeBytes]

/-- Two records, one of them empty, are exported and imported again. -/
theorem standIn_backup_restored :
    ∃ blob,
      exportBackup standIn ⟨64, true⟩ (some ⟨List.replicate 16 7, rfl⟩) (some ⟨List.replicate 12 9, rfl⟩)
        [112, 119] [[1, 2, 3], []] = .ok blob ∧
      importBackup standIn ⟨64, true⟩ [112, 119] blob = .ok [[1, 2, 3], []] := by
  obtain ⟨-, hround, hexport, -⟩ := backup_round_trip standIn standIn_lawful ⟨64, true⟩ rfl
  obtain ⟨blob, hblob⟩ := hexport ⟨List.replicate 16 7, rfl⟩ ⟨List.replicate 12 9, rfl⟩ [112, 119]
    [[1, 2, 3], []] _ _ (by decide) rfl rfl (by decide)
  exact ⟨blob, hblob, hround _ _ _ _ _ (by decide) (by decide) hblob⟩

end E2EMessaging.Storage
