/-
  RESTORING A BACKUP ON THE DESKTOP (`clients/desktop-tauri/src-tauri/src/backup.rs`).

  `restore_backup` asks `core_storage::import`, and names its errors for a user: `IncompleteBackup`, `WrongPassphrase`,
  `Tampered`.  The names are the translation's, not the backup's.  Which answer a passphrase and a blob get depends
  on how far `import` comes: on whether there is a header and a key, on whether the AEAD opens what stands behind
  it, and on whether that is a list of records (`restore_exact`).  `Tampered` is an answer that is never given.

  A backup that was cut off is `IncompleteBackup` as long as there are less than 53 bytes of it; from there on it is
  `WrongPassphrase`, under the right one as well (`cut_backup_restored`).
-/
import E2EMessaging.Storage.Tamper

namespace E2EMessaging.Desktop

open E2EMessaging.Lib E2EMessaging.Storage

/-! ## The source -/

/-- `RestoreError`. -/
inductive RestoreError where
  | incompleteBackup
  | wrongPassphrase
  | tampered
  deriving Repr, DecidableEq

/-- `MIN_SIZE`. -/
def minSize : Nat := 4 + 1 + 16 + 12 + 16 + 4

/-- `restore_backup`. -/
def restoreBackup (S : Suite) (a : Arch) (passphrase blob : Bytes) : Outcome RestoreError (List Bytes) :=
  if blob.length < minSize then .err .incompleteBackup
  else
    match importBackup S a passphrase blob with
    | .ok records => .ok records
    | .err .tampered => .err .incompleteBackup
    | .err .empty => .err .incompleteBackup
    | .err .decryptionFailed => .err .wrongPassphrase
    | .panic => .panic

/-! ## How far an import comes -/

/-- There is a header and a key, and `found` is what the AEAD makes of the ciphertext. -/
def Finds (S : Suite) (passphrase blob : Bytes) (found : Option Bytes) : Prop :=
  ∃ salt nonce ciphertext key, IsBlob blob salt nonce ciphertext ∧ deriveKey S passphrase salt.val = .ok key ∧
    S.decrypt key nonce.val ciphertext (buildAad S salt.val nonce.val) = found

section

variable {S : Suite} {a : Arch} {passphrase blob : Bytes}

/-- A blob has one header. -/
theorem isBlob_unique {salt salt' : ByteArrayN 16} {nonce nonce' : ByteArrayN 12} {ciphertext ciphertext' : Bytes}
    (h : IsBlob blob salt nonce ciphertext) (h' : IsBlob blob salt' nonce' ciphertext') :
    salt = salt' ∧ nonce = nonce' ∧ ciphertext = ciphertext' := by
  obtain ⟨-, hhead, hend⟩ := h.parts
  obtain ⟨-, hhead', hend'⟩ := h'.parts
  have hlength : salt.val.length = salt'.val.length := salt.property.trans salt'.property.symm
  obtain ⟨hsalt, hnonce⟩ := List.append_inj (hhead.symm.trans hhead') hlength
  exact ⟨Subtype.ext hsalt, Subtype.ext hnonce, hend.symm.trans hend'⟩

theorem Finds.unique {found found' : Option Bytes} (h : Finds S passphrase blob found)
    (h' : Finds S passphrase blob found') : found = found' := by
  obtain ⟨salt, nonce, ciphertext, key, hblob, hkey, rfl⟩ := h
  obtain ⟨salt', nonce', ciphertext', key', hblob', hkey', rfl⟩ := h'
  obtain ⟨rfl, rfl, rfl⟩ := isBlob_unique hblob hblob'
  obtain rfl := Outcome.ok.inj (hkey.symm.trans hkey')
  rfl

theorem Finds.long {found : Option Bytes} (h : Finds S passphrase blob found) : ¬ blob.length < minSize := by
  obtain ⟨salt, nonce, ciphertext, key, hblob, -, -⟩ := h
  obtain ⟨-, -, -, -, -, hlen⟩ := hblob.spans
  exact Nat.not_lt.mpr hlen

/-- What does not give a key is `Empty`. -/
theorem deriveKey_failsOnlyWith (S : Suite) (passphrase salt : Bytes) :
    (deriveKey S passphrase salt).FailsOnlyWith .empty := by
  rw [deriveKey]
  cases S.argon2id passphrase salt with
  | none => exact Outcome.failsOnlyWith_err _
  | some hash =>
    show (if hash.length < 32 then .err .empty else .ok (hash.take 32) : Outcome BackupError Bytes).FailsOnlyWith _
    split
    · exact Outcome.failsOnlyWith_err _
    · exact Outcome.failsOnlyWith_ok _ _

theorem importBackup_of_finds_none (h : Finds S passphrase blob none) :
    importBackup S a passphrase blob = .err .decryptionFailed := by
  obtain ⟨salt, nonce, ciphertext, key, hblob, hkey, hreject⟩ := h
  exact importBackup_of_rejected hblob hkey hreject

theorem importBackup_of_finds_some {plaintext : Bytes} (h : Finds S passphrase blob (some plaintext)) :
    importBackup S a passphrase blob = deserializeRecords a plaintext := by
  obtain ⟨salt, nonce, ciphertext, key, hblob, hkey, hopens⟩ := h
  rw [importBackup_of_isBlob hblob, openBlob, hkey, Outcome.ok_bind, hopens]
  rfl

/-- Without a header, or without a key, the AEAD is not asked. -/
theorem importBackup_of_finds_nothing (h : ∀ found, ¬ Finds S passphrase blob found) :
    importBackup S a passphrase blob = .err .tampered ∨ importBackup S a passphrase blob = .err .empty := by
  by_cases hblob : ∃ salt nonce ciphertext, IsBlob blob salt nonce ciphertext
  · obtain ⟨salt, nonce, ciphertext, hblob⟩ := hblob
    right
    rcases deriveKey_failsOnlyWith S passphrase salt.val with ⟨key, hkey⟩ | hkey
    · exact absurd ⟨salt, nonce, ciphertext, key, hblob, hkey, rfl⟩ (h _)
    · rw [importBackup_of_isBlob hblob, openBlob, hkey]
      rfl
  · left
    exact importBackup_of_not_isBlob fun salt nonce ciphertext hparts => hblob ⟨salt, nonce, ciphertext, hparts⟩

/-! ## The answers -/

theorem restoreBackup_of_finds_none (h : Finds S passphrase blob none) :
    restoreBackup S a passphrase blob = .err .wrongPassphrase := by
  rw [restoreBackup, if_neg h.long, importBackup_of_finds_none h]

theorem restoreBackup_of_finds_nothing (h : ∀ found, ¬ Finds S passphrase blob found) :
    restoreBackup S a passphrase blob = .err .incompleteBackup := by
  rw [restoreBackup]
  split
  · rfl
  · rcases importBackup_of_finds_nothing h with himport | himport
    · rw [himport]
    · rw [himport]

theorem restoreBackup_of_records (h64 : a.bits = 64) {records : List Bytes} (hrecords : Storable records)
    (hfits : (serializeRecords records).length ≤ a.isizeMax)
    (h : Finds S passphrase blob (some (serializeRecords records))) :
    restoreBackup S a passphrase blob = .ok records := by
  rw [restoreBackup, if_neg h.long, importBackup_of_finds_some h,
    (deserializeRecords_eq_ok h64 hfits).mpr ⟨hrecords, rfl⟩]

/-- What opens, and is no list of records. -/
theorem restoreBackup_of_no_records (h64 : a.bits = 64) {plaintext : Bytes} (hfits : plaintext.length ≤ a.isizeMax)
    (h : Finds S passphrase blob (some plaintext))
    (hnone : ∀ records, Storable records → serializeRecords records ≠ plaintext) :
    restoreBackup S a passphrase blob = .err .incompleteBackup := by
  rw [restoreBackup, if_neg h.long, importBackup_of_finds_some h]
  rcases deserializeRecords_failsOnlyWith h64 hfits with ⟨records, hread⟩ | hread
  · obtain ⟨hrecords, hser⟩ := (deserializeRecords_eq_ok h64 hfits).mp hread
    exact absurd hser (hnone records hrecords)
  · rw [hread]

end

/-- **Which answer is given.**  For every passphrase and blob (64-bit `usize`): records come back if and only if the
    AEAD finds what writing them gives, and there are any; the passphrase is called wrong if and only if the AEAD
    rejects; and everything else is an incomplete backup. -/
theorem restore_exact (S : Suite) (a : Arch) (h64 : a.bits = 64)
    (hfits : ∀ key nonce ciphertext aad plaintext, S.decrypt key nonce ciphertext aad = some plaintext →
      plaintext.length ≤ a.isizeMax) (passphrase blob : Bytes) :
    (∀ records, restoreBackup S a passphrase blob = .ok records ↔
      Storable records ∧ Finds S passphrase blob (some (serializeRecords records))) ∧
    (restoreBackup S a passphrase blob = .err .wrongPassphrase ↔ Finds S passphrase blob none) ∧
    (restoreBackup S a passphrase blob = .err .incompleteBackup ↔ ¬ Finds S passphrase blob none ∧
      ∀ records, Storable records → ¬ Finds S passphrase blob (some (serializeRecords records))) := by
  by_cases hfinds : ∃ found, Finds S passphrase blob found
  · obtain ⟨found, hfound⟩ := hfinds
    cases found with
    | none =>
      have hwrong : restoreBackup S a passphrase blob = .err .wrongPassphrase := restoreBackup_of_finds_none hfound
      rw [hwrong]
      refine ⟨fun records => iff_of_false nofun ?_, iff_of_true rfl hfound, iff_of_false nofun ?_⟩
      · rintro ⟨-, h⟩
        cases hfound.unique h
      · exact fun h => h.1 hfound
    | some plaintext =>
      have hshort : plaintext.length ≤ a.isizeMax := by
        obtain ⟨salt, nonce, ciphertext, key, -, -, hopens⟩ := hfound
        exact hfits _ _ _ _ _ hopens
      have hlocked : ¬ Finds S passphrase blob none := by
        intro h
        cases hfound.unique h
      by_cases hsome : ∃ records, Storable records ∧ serializeRecords records = plaintext
      · obtain ⟨records, hrecords, rfl⟩ := hsome
        have hback : restoreBackup S a passphrase blob = .ok records :=
          restoreBackup_of_records h64 hrecords hshort hfound
        refine ⟨fun records' => ⟨?_, ?_⟩, iff_of_false ?_ hlocked, iff_of_false ?_ ?_⟩
        · intro h
          obtain rfl := Outcome.ok.inj (hback.symm.trans h)
          exact ⟨hrecords, hfound⟩
        · rintro ⟨hrecords', hfound'⟩
          have hshort' : (serializeRecords records').length ≤ a.isizeMax := by
            rw [← Option.some.inj (hfound.unique hfound')]
            exact hshort
          exact restoreBackup_of_records h64 hrecords' hshort' hfound'
        · rw [hback]
          exact nofun
        · rw [hback]
          exact nofun
        · exact fun h => h.2 records hrecords hfound
      · have hnone : ∀ records, Storable records → serializeRecords records ≠ plaintext :=
          fun records hrecords hser => hsome ⟨records, hrecords, hser⟩
        have hnot : ∀ records, Storable records → ¬ Finds S passphrase blob (some (serializeRecords records)) :=
          fun records hrecords h => hnone records hrecords (Option.some.inj (h.unique hfound))
        have hincomplete : restoreBackup S a passphrase blob = .err .incompleteBackup :=
          restoreBackup_of_no_records h64 hshort hfound hnone
        rw [hincomplete]
        exact ⟨fun records => iff_of_false nofun fun h => hnot records h.1 h.2, iff_of_false nofun hlocked,
          iff_of_true rfl ⟨hlocked, hnot⟩⟩
  · have hnothing : ∀ found, ¬ Finds S passphrase blob found := fun found h => hfinds ⟨found, h⟩
    have hincomplete : restoreBackup S a passphrase blob = .err .incompleteBackup :=
      restoreBackup_of_finds_nothing hnothing
    rw [hincomplete]
    exact ⟨fun records => iff_of_false nofun fun h => hnothing _ h.2, iff_of_false nofun (hnothing _),
      iff_of_true rfl ⟨hnothing _, fun records _ => hnothing _⟩⟩

/-- The one backup there is decrypts. -/
theorem decrypt_sampleBlob : oneBackup.decrypt (List.replicate 32 1) (List.replicate 12 9)
    (serializeRecords [[1, 2, 3]] ++ List.replicate 16 0)
    (buildAad standIn (List.replicate 16 7) (List.replicate 12 9)) = some (serializeRecords [[1, 2, 3]]) := by
  decide +kernel

/-- The backup of one record, under its passphrase. -/
theorem restore_exact_sample :
    restoreBackup oneBackup ⟨64, true⟩ [112] sampleBlob = .ok [[1, 2, 3]] := by
  refine ((restore_exact oneBackup ⟨64, true⟩ rfl ?_ [112] sampleBlob).1 [[1, 2, 3]]).mpr ⟨?_, ?_⟩
  · intro key nonce ciphertext aad plaintext h
    unfold oneBackup at h
    dsimp only at h
    split at h
    · obtain rfl := Option.some.inj h
      decide
    · cases h
  · exact ⟨by decide, by decide, by decide⟩
  · exact ⟨⟨List.replicate 16 7, rfl⟩, ⟨List.replicate 12 9, rfl⟩,
      serializeRecords [[1, 2, 3]] ++ List.replicate 16 0, List.replicate 32 1, ⟨rfl, by decide⟩, rfl,
      decrypt_sampleBlob⟩

/-! ## A backup that was cut off -/

/-- Everything that starts like the backup, but for the backup itself under its passphrase, is rejected. -/
theorem importBackup_of_other {S : Suite} {a : Arch} {passphrase blob ciphertext key : Bytes} {salt : ByteArrayN 16}
    {nonce : ByteArrayN 12} (hideal : IdealPrimitives S passphrase salt nonce ciphertext)
    (h : IsBlob blob salt nonce ciphertext) (hkey : deriveKey S passphrase salt.val = .ok key)
    {passphrase' blob' : Bytes} (hlen : minSize ≤ blob'.length) (hstart : blob'.take 5 = magic ++ [version])
    (hother : ¬ (passphrase' = passphrase ∧ blob' = blob)) :
    importBackup S a passphrase' blob' = .err .decryptionFailed := by
  obtain ⟨salt', nonce', ciphertext', h'⟩ := isBlob_of_take_five hlen hstart
  obtain ⟨key', hkey'⟩ := hideal.derives passphrase' salt'
  refine importBackup_of_rejected h' hkey' (hideal.rejects key hkey _ _ _ _ ?_)
  rintro ⟨rfl, hnonce, rfl, -⟩
  obtain ⟨hpassphrase, hsalt⟩ := hideal.noCollision passphrase' salt' (hkey'.trans hkey.symm)
  refine hother ⟨hpassphrase, h'.1.trans ?_⟩
  rw [hnonce, hsalt, ← h.1]

/-- **What is left of a backup.**  With ideal primitives, whatever the passphrase and however much of a backup there
    is: less than 53 bytes are an incomplete backup; the whole of it gives the records back, under the passphrase it
    was made with; and all else is a wrong passphrase. -/
theorem cut_backup_restored (S : Suite) (hS : S.Lawful) (a : Arch) (h64 : a.bits = 64) (passphrase : Bytes)
    (salt : ByteArrayN 16) (nonce : ByteArrayN 12) (records : List Bytes) (hcount : records.length < 2 ^ 32)
    (hlens : ∀ r ∈ records, r.length < 2 ^ 32) (blob : Bytes)
    (hexport : exportBackup S a (some salt) (some nonce) passphrase records = .ok blob)
    (hideal : IdealPrimitives S passphrase salt nonce (blob.drop 33)) (passphrase' : Bytes) (n : Nat) :
    restoreBackup S a passphrase' (blob.take n) =
      if n < minSize then .err .incompleteBackup
      else if passphrase' = passphrase ∧ blob.length ≤ n then .ok records
      else .err .wrongPassphrase := by
  obtain ⟨-, salt₀, nonce₀, key, ciphertext, hsalt, hnonce, hkey, -, henc, hblob, -⟩ := exportBackup_eq_ok.mp hexport
  obtain rfl := Option.some.inj hsalt
  obtain rfl := Option.some.inj hnonce
  have hlen : 20 ≤ ciphertext.length := by
    have hfour := four_le_length_serializeRecords records
    rw [hideal.encrypted _ _ _ _ henc]
    omega
  have his : IsBlob blob salt nonce ciphertext := ⟨hblob, hlen⟩
  obtain ⟨hstart, -, hend⟩ := his.parts
  obtain ⟨-, -, -, -, -, htotal⟩ := his.spans
  rw [hend] at hideal
  by_cases hshort : n < minSize
  · have hcut : (blob.take n).length < minSize := by
      rw [List.length_take]
      omega
    rw [if_pos hshort, restoreBackup, if_pos hcut]
  · have hmin : minSize ≤ n := Nat.not_lt.mp hshort
    have hcut : minSize ≤ (blob.take n).length := by
      rw [List.length_take]
      exact Nat.le_min.mpr ⟨hmin, htotal⟩
    rw [if_neg hshort, restoreBackup, if_neg (Nat.not_lt.mpr hcut)]
    by_cases hwhole : passphrase' = passphrase ∧ blob.length ≤ n
    · obtain ⟨rfl, hall⟩ := hwhole
      rw [if_pos ⟨rfl, hall⟩, List.take_of_length_le hall, importBackup_exportBackup hS h64 hcount hlens hexport]
    · have hfive : (blob.take n).take 5 = magic ++ [version] := by
        have hmin5 : min 5 n = 5 := Nat.min_eq_left (Nat.le_trans (by decide) hmin)
        rw [List.take_take, hmin5, hstart]
      have hother : ¬ (passphrase' = passphrase ∧ blob.take n = blob) := by
        rintro ⟨hsame, hcutAll⟩
        refine hwhole ⟨hsame, ?_⟩
        rw [← hcutAll, List.length_take]
        exact Nat.min_le_left ..
      rw [if_neg hwhole, importBackup_of_other hideal his hkey hcut hfive hother]

/-- `oneBackup`, where nothing else is encrypted. -/
def onlyBackup : Suite :=
  { oneBackup with
    encrypt := fun key nonce message aad =>
      if key = List.replicate 32 1 ∧ nonce = List.replicate 12 9 ∧ message = serializeRecords [[1, 2, 3]] ∧
          aad = buildAad standIn (List.replicate 16 7) (List.replicate 12 9) then
        some (serializeRecords [[1, 2, 3]] ++ List.replicate 16 0)
      else none }

theorem onlyBackup_lawful : onlyBackup.Lawful where
  decrypts := by
    intro key nonce message aad ciphertext h
    unfold onlyBackup at h
    dsimp only at h
    split at h
    · rename_i hsame
      obtain ⟨rfl, rfl, rfl, rfl⟩ := hsame
      obtain rfl := Option.some.inj h
      exact decrypt_sampleBlob
    · cases h
  encrypted := by
    intro key nonce message aad ciphertext h
    unfold onlyBackup at h
    dsimp only at h
    split at h
    · rename_i hsame
      obtain ⟨-, -, rfl, -⟩ := hsame
      obtain rfl := Option.some.inj h
      rw [List.length_append, List.length_replicate]
    · cases h

theorem onlyBackup_ideal : IdealPrimitives onlyBackup [112] ⟨List.replicate 16 7, rfl⟩
    ⟨List.replicate 12 9, rfl⟩ (sampleBlob.drop 33) where
  derives := oneBackup_ideal.derives
  noCollision := oneBackup_ideal.noCollision
  rejects := oneBackup_ideal.rejects
  encrypted := fun _ _ _ _ h => onlyBackup_lawful.encrypted h

/-- The last byte is missing. -/
theorem cut_backup_restored_sample :
    restoreBackup onlyBackup ⟨64, true⟩ [112] (sampleBlob.take 59) = .err .wrongPassphrase :=
  cut_backup_restored onlyBackup onlyBackup_lawful ⟨64, true⟩ rfl [112] ⟨List.replicate 16 7, rfl⟩
    ⟨List.replicate 12 9, rfl⟩ [[1, 2, 3]] (by decide) (by decide) sampleBlob (by decide +kernel) onlyBackup_ideal
    [112] 59

end E2EMessaging.Desktop
