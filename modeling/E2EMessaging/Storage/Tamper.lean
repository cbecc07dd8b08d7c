/-
  WHAT A CHANGED BACKUP IS CALLED (`import` of `core/storage/src/backup.rs`).

  A backup that fails to open fails in one of two ways.  `Tampered`: the file is damaged, discard it.
  `DecryptionFailed`: re-enter the passphrase.  The module's documentation says that "flipping a byte in
  any header field is detected and surfaces as `BackupError::Tampered`".

  Magic and version are compared, so a change there is `Tampered`.  Salt and nonce are not: they go into
  the key, the nonce and the associated data of the AEAD, and what the AEAD rejects is
  `DecryptionFailed`, whatever the reason.  With ideal primitives (`IdealPrimitives`) every change is
  rejected, and it is called by its name exactly if it changes the magic or the version, or neither salt
  nor nonce (`backup_tamper_classified_iff`).
-/
import E2EMessaging.Storage.Backup

namespace E2EMessaging.Storage

open E2EMessaging.Lib

/-- Ideal primitives, as seen from one backup: Argon2id succeeds, and derives its key from no other
    passphrase and salt; AES-GCM rejects every other key, nonce, ciphertext and associated data than
    those the backup was made with; its ciphertexts are as long as message and tag. -/
structure IdealPrimitives (S : Suite) (passphrase : Bytes) (salt : ByteArrayN 16)
    (nonce : ByteArrayN 12) (ciphertext : Bytes) : Prop where
  derives : ∀ passphrase' (salt' : ByteArrayN 16), ∃ key, deriveKey S passphrase' salt'.val = .ok key
  noCollision : ∀ passphrase' (salt' : ByteArrayN 16),
    deriveKey S passphrase' salt'.val = deriveKey S passphrase salt.val →
    passphrase' = passphrase ∧ salt' = salt
  rejects : ∀ key, deriveKey S passphrase salt.val = .ok key → ∀ key' nonce' ciphertext' aad',
    ¬ (key' = key ∧ nonce' = nonce.val ∧ ciphertext' = ciphertext ∧
      aad' = buildAad S salt.val nonce.val) → S.decrypt key' nonce' ciphertext' aad' = none
  encrypted : ∀ key message aad ciphertext', S.encrypt key nonce.val message aad = some ciphertext' →
    ciphertext'.length = message.length + 16

section

variable {S : Suite} {a : Arch} {passphrase blob ciphertext : Bytes} {salt : ByteArrayN 16}
  {nonce : ByteArrayN 12}

/-- The parts of a blob, by position. -/
theorem IsBlob.parts (h : IsBlob blob salt nonce ciphertext) :
    blob.take 5 = magic ++ [version] ∧ (blob.drop 5).take 28 = salt.val ++ nonce.val ∧
      blob.drop 33 = ciphertext := by
  obtain ⟨rfl, -⟩ := h
  have hsalt := salt.property
  have hnonce := nonce.property
  have hassoc : magic ++ [version] ++ salt.val ++ nonce.val ++ ciphertext =
      (magic ++ [version]) ++ ((salt.val ++ nonce.val) ++ ciphertext) := by
    simp only [List.append_assoc]
  have h28 : (salt.val ++ nonce.val).length = 28 := by
    rw [List.length_append, hsalt, hnonce]
  have h33 : (magic ++ [version] ++ salt.val ++ nonce.val).length = 33 := by
    simp only [List.length_append, hsalt, hnonce]
    rfl
  refine ⟨?_, ?_, List.drop_left' h33⟩
  · rw [hassoc]
    exact List.take_left' rfl
  · rw [hassoc, List.drop_left' (show (magic ++ [version]).length = 5 from rfl), List.take_left' h28]

/-- A string with the right start and length is a blob, made of its own parts. -/
theorem isBlob_of_take_five (hlen : 53 ≤ blob.length) (hstart : blob.take 5 = magic ++ [version]) :
    ∃ salt nonce ciphertext, IsBlob blob salt nonce ciphertext := by
  have hsplit : blob = magic ++ [version] ++ blob.drop 5 := by
    rw [← hstart, List.take_append_drop]
  have hmagic : Spans blob 0 magic 4 ∧ Spans blob 4 [version] 5 := by
    obtain ⟨mid, hhead, -⟩ := spans_append.mp (spans_whole.mpr hsplit.symm)
    obtain ⟨mid', hm, hv⟩ := spans_append.mp hhead
    obtain rfl : mid' = 4 := hm.stop_eq
    obtain rfl : mid = 5 := hv.stop_eq
    exact ⟨hm, hv⟩
  exact exists_isBlob hlen hmagic.1 hmagic.2

/-- A blob whose parts the AEAD does not accept together is `DecryptionFailed`. -/
theorem importBackup_of_rejected {key : Bytes} (h : IsBlob blob salt nonce ciphertext)
    (hkey : deriveKey S passphrase salt.val = .ok key)
    (hreject : S.decrypt key nonce.val ciphertext (buildAad S salt.val nonce.val) = none) :
    importBackup S a passphrase blob = .err .decryptionFailed := by
  rw [importBackup_of_isBlob h, openBlob, hkey, Outcome.ok_bind, hreject]
  rfl

/-- **With magic and version intact, the import gets as far as the AEAD**, and no further. -/
theorem importBackup_of_start_intact (hideal : IdealPrimitives S passphrase salt nonce ciphertext)
    (h : IsBlob blob salt nonce ciphertext) {key : Bytes}
    (hkey : deriveKey S passphrase salt.val = .ok key) {changed : Bytes} (hlen : 53 ≤ changed.length)
    (hne : changed ≠ blob) (hstart : changed.take 5 = magic ++ [version]) :
    importBackup S a passphrase changed = .err .decryptionFailed := by
  obtain ⟨salt', nonce', ciphertext', h'⟩ := isBlob_of_take_five hlen hstart
  obtain ⟨key', hkey'⟩ := hideal.derives passphrase salt'
  refine importBackup_of_rejected h' hkey' (hideal.rejects key hkey _ _ _ _ ?_)
  rintro ⟨rfl, hnonce', rfl, -⟩
  have hsalt' := (hideal.noCollision passphrase salt' (hkey'.trans hkey.symm)).2
  refine hne (h'.1.trans ?_)
  rw [hnonce', hsalt', ← h.1]

/-- Without them it is no blob. -/
theorem importBackup_of_start_changed {changed : Bytes} (hstart : changed.take 5 ≠ magic ++ [version]) :
    importBackup S a passphrase changed = .err .tampered :=
  importBackup_of_not_isBlob fun _ _ _ h => hstart h.parts.1

end

/-- What the documentation says of an import of a changed backup: no records come out, and a change to
    the header is called `Tampered`. -/
structure Classified (S : Suite) (a : Arch) (passphrase blob changed : Bytes) : Prop where
  fails : ∃ e, importBackup S a passphrase changed = .err e
  header : changed.take 33 ≠ blob.take 33 → importBackup S a passphrase changed = .err .tampered

/-- **A wrong passphrase is `DecryptionFailed`; a changed backup is called by its name exactly if the
    change touches the magic or the version, or leaves salt and nonce alone.** -/
theorem backup_tamper_classified_iff (S : Suite) (a : Arch) (passphrase : Bytes)
    (salt : ByteArrayN 16) (nonce : ByteArrayN 12) (records : List Bytes) (blob : Bytes)
    (hexport : exportBackup S a (some salt) (some nonce) passphrase records = .ok blob)
    (hideal : IdealPrimitives S passphrase salt nonce (blob.drop 33)) :
    (∀ passphrase', passphrase' ≠ passphrase →
      importBackup S a passphrase' blob = .err .decryptionFailed) ∧
    ∀ changed, changed.length = blob.length → changed ≠ blob →
      (Classified S a passphrase blob changed ↔
        changed.take 5 ≠ blob.take 5 ∨ (changed.drop 5).take 28 = (blob.drop 5).take 28) := by
  obtain ⟨-, salt₀, nonce₀, key, ciphertext, hsalt, hnonce, hkey, -, henc, hblob, -⟩ :=
    exportBackup_eq_ok.mp hexport
  obtain rfl := Option.some.inj hsalt
  obtain rfl := Option.some.inj hnonce
  have hlen : 20 ≤ ciphertext.length := by
    have hfour := four_le_length_serializeRecords records
    rw [hideal.encrypted _ _ _ _ henc]
    omega
  have his : IsBlob blob salt nonce ciphertext := ⟨hblob, hlen⟩
  obtain ⟨hstart, -, hend⟩ := his.parts
  obtain ⟨-, -, -, -, -, htotal⟩ := his.spans
  rw [hend] at hideal
  constructor
  · intro passphrase' hne
    obtain ⟨key', hkey'⟩ := hideal.derives passphrase' salt
    refine importBackup_of_rejected his hkey' (hideal.rejects key hkey _ _ _ _ ?_)
    rintro ⟨rfl, -⟩
    exact hne (hideal.noCollision passphrase' salt (hkey'.trans hkey.symm)).1
  · intro changed hsame hne
    by_cases hfive : changed.take 5 = blob.take 5
    · have hfailed : importBackup S a passphrase changed = .err .decryptionFailed :=
        importBackup_of_start_intact hideal his hkey (by omega) hne (hfive.trans hstart)
      have hheader : changed.take 33 = blob.take 33 ↔
          (changed.drop 5).take 28 = (blob.drop 5).take 28 := by
        rw [show 33 = 5 + 28 from rfl, List.take_add, List.take_add, hfive]
        exact List.append_right_inj _
      constructor
      · intro hclass
        refine Or.inr (hheader.mp ?_)
        by_contra htouched
        have htampered := hclass.header htouched
        rw [hfailed] at htampered
        cases htampered
      · rintro (hmagic | hrest)
        · exact absurd hfive hmagic
        · exact ⟨⟨_, hfailed⟩, fun htouched => absurd (hheader.mpr hrest) htouched⟩
    · have htampered : importBackup S a passphrase changed = .err .tampered :=
        importBackup_of_start_changed fun h => hfive (h.trans hstart.symm)
      exact ⟨fun _ => Or.inl hfive, fun _ => ⟨⟨_, htampered⟩, fun _ => htampered⟩⟩

/-! ## One backup -/

/-- Primitives in a world with one backup: its passphrase and salt have a key of their own, and what was
    encrypted for it is all that decrypts. -/
def oneBackup : Suite where
  argon2id := fun passphrase salt =>
    some (List.replicate 32 (if passphrase = [112] ∧ salt = List.replicate 16 7 then 1 else 0))
  sha256 := standIn.sha256
  encrypt := fun _ _ message _ => some (message ++ List.replicate 16 0)
  decrypt := fun key nonce ciphertext aad =>
    if key = List.replicate 32 1 ∧ nonce = List.replicate 12 9 ∧
        ciphertext = serializeRecords [[1, 2, 3]] ++ List.replicate 16 0 ∧
        aad = buildAad standIn (List.replicate 16 7) (List.replicate 12 9) then
      some (serializeRecords [[1, 2, 3]])
    else none

/-- A backup of one record. -/
def sampleBlob : Bytes :=
  magic ++ [version] ++ List.replicate 16 7 ++ List.replicate 12 9 ++
    (serializeRecords [[1, 2, 3]] ++ List.replicate 16 0)

theorem export_sampleBlob : exportBackup oneBackup ⟨64, true⟩ (some ⟨List.replicate 16 7, rfl⟩)
    (some ⟨List.replicate 12 9, rfl⟩) [112] [[1, 2, 3]] = .ok sampleBlob := by
  decide +kernel

theorem deriveKey_oneBackup (passphrase : Bytes) (salt : ByteArrayN 16) :
    deriveKey oneBackup passphrase salt.val = .ok (List.replicate 32
      (if passphrase = [112] ∧ salt.val = List.replicate 16 7 then 1 else 0)) := rfl

theorem oneBackup_ideal : IdealPrimitives oneBackup [112] ⟨List.replicate 16 7, rfl⟩
    ⟨List.replicate 12 9, rfl⟩ (sampleBlob.drop 33) where
  derives := fun passphrase' salt' => ⟨_, deriveKey_oneBackup passphrase' salt'⟩
  noCollision := by
    intro passphrase' salt' h
    rw [deriveKey_oneBackup, deriveKey_oneBackup, if_pos (show ([112] : Bytes) = [112] ∧ _ from ⟨rfl, rfl⟩)]
      at h
    by_cases hsame : passphrase' = [112] ∧ salt'.val = List.replicate 16 7
    · exact ⟨hsame.1, Subtype.ext hsame.2⟩
    · rw [if_neg hsame] at h
      exact absurd h (by decide)
  rejects := by
    intro key hkey key' nonce' ciphertext' aad' hother
    rw [deriveKey_oneBackup, if_pos (show ([112] : Bytes) = [112] ∧ _ from ⟨rfl, rfl⟩)] at hkey
    obtain rfl := Outcome.ok.inj hkey
    exact if_neg hother
  encrypted := by
    intro key message aad ciphertext h
    obtain rfl := Option.some.inj h
    rw [List.length_append, List.length_replicate]

/-- A flipped bit in the version and one in the ciphertext are called by their names. -/
theorem tamper_classified_version_and_body :
    Classified oneBackup ⟨64, true⟩ [112] sampleBlob (sampleBlob.set 4 0) ∧
      Classified oneBackup ⟨64, true⟩ [112] sampleBlob (sampleBlob.set 40 9) := by
  obtain ⟨-, hclass⟩ := backup_tamper_classified_iff oneBackup ⟨64, true⟩ [112] _ _ _ sampleBlob
    export_sampleBlob oneBackup_ideal
  exact ⟨(hclass (sampleBlob.set 4 0) (by decide) (by decide)).mpr (Or.inl (by decide)),
    (hclass (sampleBlob.set 40 9) (by decide) (by decide)).mpr (Or.inr (by decide))⟩

/-- **A flipped bit in the salt is not**: with the right passphrase, the user is told to re-enter it. -/
theorem flipped_salt_is_decryption_failed :
    IdealPrimitives oneBackup [112] ⟨List.replicate 16 7, rfl⟩ ⟨List.replicate 12 9, rfl⟩
        (sampleBlob.drop 33) ∧
      importBackup oneBackup ⟨64, true⟩ [112] sampleBlob = .ok [[1, 2, 3]] ∧
      importBackup oneBackup ⟨64, true⟩ [112] (sampleBlob.set 5 6) = .err .decryptionFailed ∧
      ¬ Classified oneBackup ⟨64, true⟩ [112] sampleBlob (sampleBlob.set 5 6) := by
  have hfailed : importBackup oneBackup ⟨64, true⟩ [112] (sampleBlob.set 5 6) =
      .err .decryptionFailed := by decide +kernel
  refine ⟨oneBackup_ideal, by decide +kernel, hfailed, fun h => ?_⟩
  have htampered := h.header (by decide)
  rw [hfailed] at htampered
  cases htampered

end E2EMessaging.Storage
