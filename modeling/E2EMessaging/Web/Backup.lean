/-
  ENCRYPTED BACKUPS IN THE BROWSER (`clients/web/src/backup.ts`), a second implementation of
  `core/storage/src/backup.rs`.

  Numbers are JavaScript numbers, so positions do not overflow, and every failure is an exception: a
  `BackupError` with its kind, or whatever a primitive throws.  The passphrase is a JavaScript STRING,
  a list of UTF-16 code units that `TextEncoder` turns into UTF-8.

  The two implementations are related by a SIMULATION: `asThrown` reads an outcome of the Rust code as
  what the TypeScript code does, it commutes with sequencing (`asThrown_bind`), and each function here
  is the image of its counterpart, from one turn of the record loop (`readRecord_agrees`) to a whole
  restore (`importBackup_agrees`).
-/
import E2EMessaging.Storage.Backup

namespace E2EMessaging.Web

open E2EMessaging.Lib E2EMessaging.Storage

/-! ## Strings -/

/-- A JavaScript string: its UTF-16 code units. -/
abbrev JsString := List UInt16

/-- U+FFFD. -/
def replacementChar : Char := Char.ofNat 0xFFFD

/-- The characters of a string; a surrogate without its partner is U+FFFD. -/
def utf16Chars : JsString → List Char
  | [] => []
  | [u] => if 0xD800 ≤ u ∧ u ≤ 0xDFFF then [replacementChar] else [Char.ofNat u.toNat]
  | u :: v :: us =>
    if 0xD800 ≤ u ∧ u ≤ 0xDBFF then
      if 0xDC00 ≤ v ∧ v ≤ 0xDFFF then
        Char.ofNat (0x10000 + (u.toNat - 0xD800) * 0x400 + (v.toNat - 0xDC00)) :: utf16Chars us
      else replacementChar :: utf16Chars (v :: us)
    else if 0xDC00 ≤ u ∧ u ≤ 0xDFFF then replacementChar :: utf16Chars (v :: us)
    else Char.ofNat u.toNat :: utf16Chars (v :: us)

/-- `TextEncoder.encode`. -/
def textEncode (s : JsString) : Bytes := (utf16Chars s).flatMap String.utf8EncodeChar

/-! ## Errors -/

/-- `BackupErrorKind`. -/
inductive BackupErrorKind where
  | tampered
  | decryptionFailed
  | empty
  deriving Repr, DecidableEq

/-- What is thrown: a `BackupError`, or the exception of a primitive. -/
inductive BackupFailure where
  | backup (kind : BackupErrorKind)
  | other
  deriving Repr, DecidableEq

/-- A primitive that throws when it fails. -/
def orThrow {α : Type} : Option α → Except BackupFailure α
  | some v => .ok v
  | none => .error .other

/-! ## Records -/

/-- `writeU32BE`: `setUint32` keeps the number modulo `2^32`. -/
def writeU32BE (value : Nat) : Bytes := toBeBytes 4 value

/-- `readU32BE`. -/
def readU32BE (buf : Bytes) (offset : Nat) : Nat := fromBeBytes ((buf.drop offset).take 4)

/-- `serializeRecords`. -/
def serializeRecords (records : List Bytes) : Bytes :=
  writeU32BE records.length ++ records.flatMap fun r => writeU32BE r.length ++ r

/-- One turn of the loop. -/
def readRecord (buf : Bytes) (off : Nat) : Except BackupFailure (Bytes × Nat) :=
  if off + 4 > buf.length then .error (.backup .tampered)
  else
    let len := readU32BE buf off
    let off := off + 4
    if off + len > buf.length then .error (.backup .tampered)
    else .ok ((buf.drop off).take len, off + len)

/-- The loop. -/
def readRecords (buf : Bytes) : Nat → Nat → Except BackupFailure (List Bytes × Nat)
  | 0, off => .ok ([], off)
  | n + 1, off => do
    let (record, off) ← readRecord buf off
    let (records, off) ← readRecords buf n off
    .ok (record :: records, off)

/-- `deserializeRecords`. -/
def deserializeRecords (buf : Bytes) : Except BackupFailure (List Bytes) :=
  if buf.length < 4 then .error (.backup .tampered)
  else
    let n := readU32BE buf 0
    if n = 0 then .error (.backup .tampered)
    else do
      let (out, off) ← readRecords buf n 4
      if off ≠ buf.length then .error (.backup .tampered) else .ok out

/-! ## Export and import -/

/-- `MAGIC`. -/
def magic : Bytes := [0x45, 0x43, 0x42, 0x31]

/-- `VERSION`. -/
def version : UInt8 := 1

/-- `MIN_BLOB_SIZE`. -/
def minBlobSize : Nat := magic.length + 1 + 16 + 12 + 16 + 4

/-- `buildAAD`. -/
def buildAAD (S : Suite) (salt nonce : Bytes) : Bytes :=
  S.sha256 (magic ++ [version] ++ salt ++ nonce)

/-- `deriveKey`. -/
def deriveKey (S : Suite) (passphrase : JsString) (salt : Bytes) : Except BackupFailure Bytes :=
  orThrow (S.argon2id (textEncode passphrase) salt)

/-- `exportBackup`, with the salt and the nonce it draws. -/
def exportBackup (S : Suite) (salt : ByteArrayN 16) (nonce : ByteArrayN 12) (passphrase : JsString)
    (records : List Bytes) : Except BackupFailure Bytes :=
  if records.length = 0 then .error (.backup .empty)
  else do
    let key ← deriveKey S passphrase salt.val
    let plaintext := serializeRecords records
    let aad := buildAAD S salt.val nonce.val
    let ciphertextWithTag ← orThrow (S.encrypt key nonce.val plaintext aad)
    .ok (magic ++ [version] ++ salt.val ++ nonce.val ++ ciphertextWithTag)

/-- `importBackup`. -/
def importBackup (S : Suite) (passphrase : JsString) (blob : Bytes) :
    Except BackupFailure (List Bytes) :=
  if blob.length < minBlobSize then .error (.backup .tampered)
  else if (List.range magic.length).any fun i => decide (blob[i]? ≠ magic[i]?) then
    .error (.backup .tampered)
  else if blob[magic.length]? ≠ some version then .error (.backup .tampered)
  else do
    let off := magic.length + 1
    let salt := (blob.drop off).take 16
    let off := off + 16
    let nonce := (blob.drop off).take 12
    let off := off + 12
    let ciphertextWithTag := blob.drop off
    let aad := buildAAD S salt nonce
    let key ← deriveKey S passphrase salt
    match S.decrypt key nonce ciphertextWithTag aad with
    | none => .error (.backup .decryptionFailed)
    | some plaintext => deserializeRecords plaintext

/-! ## Outcomes of the Rust code, as the TypeScript code has them -/

/-- The kind that mirrors a `BackupError`. -/
def kindOf : BackupError → BackupErrorKind
  | .tampered => .tampered
  | .decryptionFailed => .decryptionFailed
  | .empty => .empty

/-- An error is thrown with its kind. -/
def asThrown {α : Type} : Outcome BackupError α → Except BackupFailure α
  | .ok v => .ok v
  | .err e => .error (.backup (kindOf e))
  | .panic => .error .other

theorem asThrown_bind {α β : Type} (x : Outcome BackupError α) (f : α → Outcome BackupError β) :
    asThrown (x >>= f) = asThrown x >>= fun v => asThrown (f v) := by
  cases x with
  | ok v => rfl
  | err e => rfl
  | panic => rfl

section

variable {a : Arch} {buf : Bytes} {off : Nat}

/-- One turn of the loop does the same on both sides. -/
theorem readRecord_agrees (hroom : buf.length + 2 ^ 32 ≤ 2 ^ a.bits) (hoff : off ≤ buf.length) :
    readRecord buf off = asThrown (Storage.readRecord a buf off) := by
  rw [readRecord, Storage.readRecord, Arch.add_of_lt (by omega), Outcome.ok_bind]
  by_cases hfour : off + 4 > buf.length
  · rw [if_pos hfour, if_pos hfour]
    rfl
  · have hlen : ((buf.drop off).take 4).length = 4 := by
      rw [List.length_take, List.length_drop]
      omega
    have hlt := fromBeBytes_lt ((buf.drop off).take 4)
    rw [hlen] at hlt
    rw [if_neg hfour, if_neg hfour, slice_in_range (by omega) (by omega), Outcome.ok_bind,
      Nat.add_sub_cancel_left]
    dsimp only
    rw [Arch.add_of_lt (by omega), Outcome.ok_bind, readU32BE]
    by_cases hfits : off + 4 + fromBeBytes ((buf.drop off).take 4) > buf.length
    · rw [if_pos hfits, if_pos hfits]
      rfl
    · rw [if_neg hfits, if_neg hfits, slice_in_range (by omega) (by omega), Outcome.ok_bind,
        Nat.add_sub_cancel_left]
      rfl

/-- And so does the loop. -/
theorem readRecords_agrees (hroom : buf.length + 2 ^ 32 ≤ 2 ^ a.bits) {n : Nat}
    (hoff : off ≤ buf.length) :
    readRecords buf n off = asThrown (Storage.readRecords a buf n off) := by
  induction n generalizing off with
  | zero => rfl
  | succ n ih =>
    rw [readRecords, Storage.readRecords, asThrown_bind, readRecord_agrees hroom hoff]
    -- the next turn starts behind a record, which is still inside the buffer
    rcases readRecord_failsOnlyWith hroom hoff with ⟨⟨record, mid⟩, hrecord⟩ | herr
    · have hmid := ((readRecord_eq_ok hroom hoff).mp hrecord).2.le_length
      rw [hrecord]
      show (do let p ← readRecords buf n mid; _) = asThrown _
      rw [asThrown_bind, ih hmid]
      rfl
    · rw [herr]
      rfl

/-- **The inner format is read alike.** -/
theorem deserializeRecords_agrees (h64 : a.bits = 64) (hbuf : buf.length ≤ a.isizeMax) :
    deserializeRecords buf = asThrown (Storage.deserializeRecords a buf) := by
  have hroom := room_of_bits h64 hbuf
  rw [deserializeRecords]
  by_cases hfour : buf.length < 4
  · rw [if_pos hfour, Storage.deserializeRecords, if_pos hfour]
    rfl
  · rw [if_neg hfour, deserializeRecords_eq h64 hfour, readU32BE, List.drop_zero]
    dsimp only
    by_cases hn : fromBeBytes (buf.take 4) = 0
    · rw [if_pos hn, if_pos hn]
      rfl
    · rw [if_neg hn, if_neg hn, asThrown_bind, readRecords_agrees hroom (Nat.not_lt.mp hfour)]
      congr 1
      funext p
      obtain ⟨out, off⟩ := p
      dsimp only
      split
      · rfl
      · rfl

end

/-! ## The header -/

section

variable {S : Suite} {a : Arch} {passphrase : JsString} {blob ciphertext : Bytes}
  {salt : ByteArrayN 16} {nonce : ByteArrayN 12}

/-- The loop over the magic compares the first four bytes. -/
theorem magic_loop_iff (blob : Bytes) :
    ((List.range magic.length).any fun i => decide (blob[i]? ≠ magic[i]?)) = false ↔
      blob.take 4 = magic := by
  rw [List.any_eq_false]
  constructor
  · intro h
    apply List.ext_getElem?
    intro i
    by_cases hi : i < 4
    · have heq := h i (List.mem_range.mpr hi)
      rw [decide_eq_true_eq, Decidable.not_not] at heq
      rw [List.getElem?_take_of_lt hi, heq]
    · rw [List.getElem?_take_eq_none (by omega), List.getElem?_eq_none]
      show 4 ≤ i
      omega
  · intro h i hi
    have hlt : i < 4 := List.mem_range.mp hi
    rw [decide_eq_true_eq, Decidable.not_not, ← h, List.getElem?_take_of_lt hlt]

/-- The parts of the header stand where `importBackup` looks for them. -/
theorem importBackup_of_isBlob (h : IsBlob blob salt nonce ciphertext) :
    importBackup S passphrase blob = (do
      let key ← deriveKey S passphrase salt.val
      match S.decrypt key nonce.val ciphertext (buildAAD S salt.val nonce.val) with
      | none => .error (.backup .decryptionFailed)
      | some plaintext => deserializeRecords plaintext) := by
  obtain ⟨hmagic, hversion, hsalt, hnonce, hct, htotal⟩ := h.spans
  have hlong : ¬ blob.length < minBlobSize := Nat.not_lt.mpr htotal
  have hhead : blob.take 4 = magic := hmagic.eq_take.symm
  have hfive : blob[magic.length]? = some version := getElem?_eq_some_iff_spans.mpr hversion
  have hsalt' : (blob.drop (magic.length + 1)).take 16 = salt.val := hsalt.eq_take.symm
  have hnonce' : (blob.drop (magic.length + 1 + 16)).take 12 = nonce.val := hnonce.eq_take.symm
  have hct' : blob.drop (magic.length + 1 + 16 + 12) = ciphertext := by
    have hdrop := hct.2.2
    rwa [List.drop_length, List.append_nil] at hdrop
  rw [importBackup, if_neg hlong, (magic_loop_iff blob).mpr hhead, if_neg (by decide),
    if_neg (fun hne => hne hfive)]
  dsimp only
  rw [hsalt', hnonce', hct']

theorem importBackup_of_not_isBlob (h : ∀ salt nonce ciphertext, ¬ IsBlob blob salt nonce ciphertext) :
    importBackup S passphrase blob = .error (.backup .tampered) := by
  rw [importBackup]
  by_cases htotal : blob.length < minBlobSize
  · rw [if_pos htotal]
  · have hlen : 53 ≤ blob.length := Nat.not_lt.mp htotal
    rw [if_neg htotal]
    by_cases hm : blob.take 4 = magic
    · rw [(magic_loop_iff blob).mpr hm, if_neg (by decide)]
      by_cases hver : blob[magic.length]? = some version
      · -- all checks pass: there is a header after all
        have hmagic : Spans blob 0 magic 4 := by
          rw [← hm]
          exact spans_of_le (Nat.zero_le 4) (show 4 ≤ blob.length by omega)
        have hversion : Spans blob 4 [version] 5 := getElem?_eq_some_iff_spans.mp hver
        obtain ⟨salt, nonce, ct, hblob⟩ := exists_isBlob hlen hmagic hversion
        exact absurd hblob (h salt nonce ct)
      · rw [if_pos hver]
    · have hloop : ((List.range magic.length).any fun i => decide (blob[i]? ≠ magic[i]?)) = true := by
        rw [← Bool.not_eq_false]
        exact fun hfalse => hm ((magic_loop_iff blob).mp hfalse)
      rw [if_pos hloop]

end

/-- What the browser writes it reads back, whatever its length. -/
theorem deserializeRecords_serializeRecords {records : List Bytes} (h : Storable records) :
    deserializeRecords (serializeRecords records) = .ok records := by
  -- some `usize` is wide enough for this buffer
  let a : Arch := ⟨(serializeRecords records).length + 33, true⟩
  have hroom : (serializeRecords records).length + 2 ^ 32 ≤ 2 ^ a.bits := by
    have hlt : (serializeRecords records).length < 2 ^ (serializeRecords records).length :=
      Nat.lt_two_pow_self
    show _ ≤ 2 ^ ((serializeRecords records).length + 33)
    rw [Nat.pow_add]
    omega
  obtain ⟨start, hcount, hspan⟩ :=
    spans_append.mp (spans_whole.mpr (rfl : serializeRecords records = serializeRecords records))
  obtain rfl : start = 4 := by
    rw [hcount.stop_eq, writeU32BE, length_toBeBytes]
  have hnum : readU32BE (serializeRecords records) 0 = records.length := by
    have htake : (serializeRecords records).take 4 = toBeBytes 4 records.length :=
      List.take_left' (length_toBeBytes 4 _)
    rw [readU32BE, List.drop_zero, htake, fromBeBytes_toBeBytes_of_lt h.count]
  have hread : Storage.readRecords a (serializeRecords records) records.length 4 =
      .ok (records, (serializeRecords records).length) :=
    (readRecords_eq_ok hroom hcount.le_length).mpr ⟨rfl, h.lengths, hspan⟩
  have hne : records.length ≠ 0 := fun hzero => h.nonempty (List.length_eq_zero_iff.mp hzero)
  rw [deserializeRecords, if_neg (Nat.not_lt.mpr hcount.le_length), hnum]
  dsimp only
  rw [if_neg hne, readRecords_agrees hroom hcount.le_length, hread]
  show (if _ ≠ _ then _ else _) = _
  rw [if_neg (fun hne => hne rfl)]

/-- What an export of the browser is made of. -/
theorem exportBackup_inv {S : Suite} {salt : ByteArrayN 16} {nonce : ByteArrayN 12}
    {passphrase : JsString} {records : List Bytes} {blob : Bytes}
    (h : exportBackup S salt nonce passphrase records = .ok blob) :
    records ≠ [] ∧ ∃ key ciphertext, deriveKey S passphrase salt.val = .ok key ∧
      S.encrypt key nonce.val (serializeRecords records) (buildAAD S salt.val nonce.val) =
        some ciphertext ∧
      blob = magic ++ [version] ++ salt.val ++ nonce.val ++ ciphertext := by
  rw [exportBackup] at h
  split at h
  · cases h
  · rename_i hne
    simp only [except_bind_eq_ok] at h
    obtain ⟨key, hkey, ciphertext, henc, h⟩ := h
    cases h
    refine ⟨fun hnil => hne (by rw [hnil]; rfl), key, ciphertext, hkey, ?_, rfl⟩
    cases hct : S.encrypt key nonce.val (serializeRecords records) (buildAAD S salt.val nonce.val) with
    | none =>
      rw [hct] at henc
      cases henc
    | some ct =>
      rw [hct] at henc
      rw [Except.ok.inj henc]

/-- **What the browser exported it imports again**, under the same passphrase. -/
theorem importBackup_exportBackup_web {S : Suite} (hlaw : S.Lawful) {salt : ByteArrayN 16}
    {nonce : ByteArrayN 12} {passphrase : JsString} {records : List Bytes} {blob : Bytes}
    (hcount : records.length < 2 ^ 32) (hlens : ∀ r ∈ records, r.length < 2 ^ 32)
    (h : exportBackup S salt nonce passphrase records = .ok blob) :
    importBackup S passphrase blob = .ok records := by
  obtain ⟨hne, key, ciphertext, hkey, henc, hblob⟩ := exportBackup_inv h
  have hlen : 20 ≤ ciphertext.length := by
    have hfour := four_le_length_serializeRecords records
    have hct : ciphertext.length = (Storage.serializeRecords records).length + 16 :=
      hlaw.encrypted henc
    omega
  rw [importBackup_of_isBlob ⟨hblob, hlen⟩, hkey]
  show (match S.decrypt key nonce.val ciphertext (buildAAD S salt.val nonce.val) with
    | none => _ | some plaintext => _) = _
  rw [hlaw.decrypts henc]
  exact deserializeRecords_serializeRecords ⟨hne, hcount, hlens⟩

/-! ## The two implementations are interchangeable -/

theorem utf16Chars_ne_nil {s : JsString} (h : s ≠ []) : utf16Chars s ≠ [] := by
  match s with
  | [u] =>
    rw [utf16Chars]
    split
    · exact List.cons_ne_nil _ _
    · exact List.cons_ne_nil _ _
  | u :: v :: us =>
    rw [utf16Chars]
    split
    · split
      · exact List.cons_ne_nil _ _
      · exact List.cons_ne_nil _ _
    · split
      · exact List.cons_ne_nil _ _
      · exact List.cons_ne_nil _ _

theorem textEncode_ne_nil {s : JsString} (h : s ≠ []) : textEncode s ≠ [] := by
  obtain ⟨c, cs, hcs⟩ := List.exists_cons_of_ne_nil (utf16Chars_ne_nil h)
  rw [textEncode, hcs, List.flatMap_cons]
  exact List.append_ne_nil_of_left_ne_nil String.utf8EncodeChar_ne_nil _

/-- What both sides rely on besides AES-GCM's round trip: Argon2id gives 32 bytes for every non-empty
    passphrase and 16-byte salt, and AES-GCM never decrypts to more than it was given. -/
structure TotalSuite (S : Suite) : Prop where
  argon2id : ∀ {passphrase salt}, passphrase ≠ [] → salt.length = 16 →
    ∃ key, S.argon2id passphrase salt = some key ∧ key.length = 32
  decrypted : ∀ {key nonce ciphertext aad message},
    S.decrypt key nonce ciphertext aad = some message → message.length ≤ ciphertext.length

section

variable {S : Suite} {a : Arch} {passphrase : JsString} {blob : Bytes}

/-- Both sides derive the same key. -/
theorem deriveKey_agrees (hS : TotalSuite S) (hp : passphrase ≠ []) (salt : ByteArrayN 16) :
    ∃ key, Storage.deriveKey S (textEncode passphrase) salt.val = .ok key ∧
      deriveKey S passphrase salt.val = .ok key := by
  obtain ⟨key, hkey, hlen⟩ := hS.argon2id (textEncode_ne_nil hp) salt.property
  refine ⟨key, ?_, ?_⟩
  · rw [Storage.deriveKey, hkey]
    show (if key.length < 32 then _ else _) = _
    rw [if_neg (by omega), List.take_of_length_le (by omega)]
  · rw [deriveKey, hkey]
    rfl

/-- **Importing does the same on both sides**, for every blob. -/
theorem importBackup_agrees (hS : TotalSuite S) (h64 : a.bits = 64) (hp : passphrase ≠ [])
    (hblob : blob.length ≤ a.isizeMax) :
    importBackup S passphrase blob = asThrown (Storage.importBackup S a (textEncode passphrase) blob) ∧
      ((∃ records, Storage.importBackup S a (textEncode passphrase) blob = .ok records) ∨
        Storage.importBackup S a (textEncode passphrase) blob = .err .tampered ∨
        Storage.importBackup S a (textEncode passphrase) blob = .err .decryptionFailed) := by
  by_cases h : ∃ salt nonce ciphertext, IsBlob blob salt nonce ciphertext
  · obtain ⟨salt, nonce, ciphertext, h⟩ := h
    obtain ⟨key, hrust, hts⟩ := deriveKey_agrees hS hp salt
    rw [importBackup_of_isBlob h, Storage.importBackup_of_isBlob h, openBlob, hrust, hts,
      Outcome.ok_bind]
    show (match S.decrypt key nonce.val ciphertext (buildAad S salt.val nonce.val) with
      | none => _ | some plaintext => _) = _ ∧ _
    cases hdec : S.decrypt key nonce.val ciphertext (buildAad S salt.val nonce.val) with
    | none => exact ⟨rfl, .inr (.inr rfl)⟩
    | some plaintext =>
      have hle : plaintext.length ≤ a.isizeMax := by
        have hdecrypted := hS.decrypted hdec
        have hct : ciphertext.length ≤ blob.length := by
          rw [h.1, List.length_append]
          exact Nat.le_add_left _ _
        omega
      refine ⟨deserializeRecords_agrees h64 hle, ?_⟩
      rcases deserializeRecords_failsOnlyWith h64 hle with hok | herr
      · exact .inl hok
      · exact .inr (.inl herr)
  · have hnone : ∀ salt nonce ciphertext, ¬ IsBlob blob salt nonce ciphertext :=
      fun salt nonce ciphertext hb => h ⟨salt, nonce, ciphertext, hb⟩
    rw [importBackup_of_not_isBlob hnone, Storage.importBackup_of_not_isBlob hnone]
    exact ⟨rfl, .inr (.inl rfl)⟩

/-- What the browser exports is what the core would have exported, drawing the same salt and nonce. -/
theorem exportBackup_eq_ok {salt : ByteArrayN 16} {nonce : ByteArrayN 12} {records : List Bytes}
    (hlaw : S.Lawful) (hS : TotalSuite S) (hp : passphrase ≠ []) (hblob : blob.length ≤ a.isizeMax)
    (h : exportBackup S salt nonce passphrase records = .ok blob) :
    Storage.exportBackup S a (some salt) (some nonce) (textEncode passphrase) records = .ok blob := by
  obtain ⟨hne, key, ciphertext, hkey, henc, hb⟩ := exportBackup_inv h
  obtain ⟨key', hrust, hts⟩ := deriveKey_agrees hS hp salt
  rw [hts] at hkey
  cases hkey
  have hserialized : (Storage.serializeRecords records).length ≤ a.isizeMax := by
    have hlen : ciphertext.length = (Storage.serializeRecords records).length + 16 :=
      hlaw.encrypted henc
    rw [hb, List.length_append] at hblob
    omega
  exact Storage.exportBackup_eq_ok.mpr ⟨hne, salt, nonce, key, ciphertext, rfl, rfl, hrust,
    hserialized, henc, hb, hblob⟩

end

/-- **The two implementations are interchangeable** (64-bit `usize`): they serialise alike, and on
    every blob and non-empty passphrase they import the same records or fail with the same kind,
    `Tampered` or `DecryptionFailed`.  So a blob exported by either is imported by the other. -/
theorem backups_interchangeable (S : Suite) (hlaw : S.Lawful) (hS : TotalSuite S) (a : Arch)
    (h64 : a.bits = 64) :
    (∀ records, Storage.serializeRecords records = serializeRecords records) ∧
    (∀ (passphrase : JsString) (blob : Bytes), passphrase ≠ [] → blob.length ≤ a.isizeMax →
      (∃ records, Storage.importBackup S a (textEncode passphrase) blob = .ok records ∧
        importBackup S passphrase blob = .ok records) ∨
      (Storage.importBackup S a (textEncode passphrase) blob = .err .tampered ∧
        importBackup S passphrase blob = .error (.backup .tampered)) ∨
      (Storage.importBackup S a (textEncode passphrase) blob = .err .decryptionFailed ∧
        importBackup S passphrase blob = .error (.backup .decryptionFailed))) ∧
    (∀ salt? nonce? (passphrase : JsString) (records : List Bytes) (blob : Bytes), passphrase ≠ [] →
      records.length < 2 ^ 32 → (∀ r ∈ records, r.length < 2 ^ 32) →
      Storage.exportBackup S a salt? nonce? (textEncode passphrase) records = .ok blob →
      importBackup S passphrase blob = .ok records) ∧
    (∀ salt nonce (passphrase : JsString) (records : List Bytes) (blob : Bytes), passphrase ≠ [] →
      records.length < 2 ^ 32 → (∀ r ∈ records, r.length < 2 ^ 32) → blob.length ≤ a.isizeMax →
      exportBackup S salt nonce passphrase records = .ok blob →
      Storage.importBackup S a (textEncode passphrase) blob = .ok records) := by
  refine ⟨fun records => rfl, ?_, ?_, ?_⟩
  · intro passphrase blob hp hblob
    obtain ⟨hagree, hcases⟩ := importBackup_agrees hS h64 hp hblob
    rcases hcases with ⟨records, hok⟩ | htampered | hfailed
    · exact .inl ⟨records, hok, by rw [hagree, hok]; rfl⟩
    · exact .inr (.inl ⟨htampered, by rw [hagree, htampered]; rfl⟩)
    · exact .inr (.inr ⟨hfailed, by rw [hagree, hfailed]; rfl⟩)
  · intro salt? nonce? passphrase records blob hp hcount hlens h
    obtain ⟨-, -, -, -, -, -, -, -, -, -, -, hblob⟩ := Storage.exportBackup_eq_ok.mp h
    rw [(importBackup_agrees hS h64 hp hblob).1, importBackup_exportBackup hlaw h64 hcount hlens h]
    rfl
  · intro salt nonce passphrase records blob hp hcount hlens hblob h
    exact importBackup_exportBackup hlaw h64 hcount hlens (exportBackup_eq_ok hlaw hS hp hblob h)

theorem standIn_total : TotalSuite standIn where
  argon2id := by
    intro passphrase salt _ _
    exact ⟨_, rfl, length_toBeBytes 32 _⟩
  decrypted := by
    intro key nonce ciphertext aad message h
    simp only [standIn] at h
    split at h
    · cases h
      rw [List.length_take]
      omega
    · cases h

/-- A backup made in the browser under the passphrase "pw" is imported by the core. -/
theorem standIn_browser_backup_restored :
    ∃ blob,
      exportBackup standIn ⟨List.replicate 16 7, rfl⟩ ⟨List.replicate 12 9, rfl⟩ [112, 119]
        [[1, 2, 3], []] = .ok blob ∧
      Storage.importBackup standIn ⟨64, true⟩ (textEncode [112, 119]) blob = .ok [[1, 2, 3], []] :=
  ⟨_, rfl, (backups_interchangeable standIn standIn_lawful standIn_total ⟨64, true⟩ rfl).2.2.2
    _ _ _ _ _ (by decide) (by decide) (by decide) (by decide +kernel) rfl⟩

end E2EMessaging.Web
