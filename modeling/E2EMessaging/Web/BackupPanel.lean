/-
  MIGRATION BY BACKUP (`clients/web/src/BackupPanel.tsx` over `browser_storage.ts` and `backup.ts`).

  Export reads the object store `kv`, the ENCRYPTED values as they lie there, and encrypts the list
  once more under the backup passphrase; import undoes the outer encryption and writes the inner blobs
  into the other installation's `kv`.  The salt stays behind: it lives in the object store `meta`,
  which is neither exported nor imported.

  So the values arrive as they were written, and can be read only by somebody who derives the same
  storage key.  `backup_migrates_iff`: a migrated value is readable on the other side EXACTLY WHEN the
  two installations have the same storage password and the same salt, which two installations that
  drew their salts do not.
-/
import Mathlib.Data.List.Sort
import E2EMessaging.Web.BrowserStorage

namespace E2EMessaging.Web

open E2EMessaging.Lib E2EMessaging.Storage

/-- The JSON text `{"k": …, "v": […]}` of a key and its blob, as UTF-8, and its reader, which checks
    the types of both fields. -/
structure EntryCodec where
  write : JsString → Bytes → Bytes
  read : Bytes → Option (JsString × Bytes)
  read_write : ∀ k v, read (write k v) = some (k, v)

/-- What the panel reports instead of success. -/
inductive PanelError where
  /-- "Please enter a backup passphrase." -/
  | noPassphrase
  /-- "no data to export" -/
  | noData
  /-- "invalid record format" -/
  | invalidRecord
  | storage (e : StorageError)
  | backup (e : BackupFailure)
  deriving Repr, DecidableEq

/-- `collectKeyedRecords`: a cursor runs over `kv` in the order of its keys. -/
def collectKeyedRecords (E : EntryCodec) (db : Database) : Except PanelError (List Bytes) :=
  let records := (db.kv.entries.insertionSort fun a b => a.1 ≤ b.1).map fun e => E.write e.1 e.2
  if records.length = 0 then .error .noData else .ok records

/-- `restoreKeyedRecords`: all records are read before the store is cleared and written. -/
def restoreKeyedRecords (E : EntryCodec) (records : List Bytes) (db : Database) :
    Except PanelError Database :=
  match records.mapM E.read with
  | none => .error .invalidRecord
  | some entries => .ok { db with kv := entries.foldl (fun kv e => kv.insert e.1 e.2) ∅ }

section

variable {Key Value : Type}

/-- `handleExport`; the draws are those of `open` and of `exportBackup`. -/
def handleExport (W : WebCrypto Key) (S : Suite) (E : EntryCodec) (storagePassword : JsString)
    (passphrase : JsString) (fresh salt : ByteArrayN 16) (nonce : ByteArrayN 12) (db : Database) :
    Except PanelError (Database × Bytes) :=
  if passphrase = [] then .error .noPassphrase
  else
    match openStorage W storagePassword fresh db with
    | .error e => .error (.storage e)
    | .ok (db, _) =>
      match collectKeyedRecords E db with
      | .error e => .error e
      | .ok records =>
        match exportBackup S salt nonce passphrase records with
        | .error e => .error (.backup e)
        | .ok blob => .ok (db, blob)

/-- `handleImport` of a selected file. -/
def handleImport (W : WebCrypto Key) (S : Suite) (E : EntryCodec) (storagePassword : JsString)
    (passphrase : JsString) (fresh : ByteArrayN 16) (blob : Bytes) (db : Database) :
    Except PanelError Database :=
  if passphrase = [] then .error .noPassphrase
  else
    match importBackup S passphrase blob with
    | .error e => .error (.backup e)
    | .ok records =>
      match openStorage W storagePassword fresh db with
      | .error e => .error (.storage e)
      | .ok (db, _) => restoreKeyedRecords E records db

/-- An installation on which nothing was set before: `open`, then the calls of `setItem`. -/
def install (W : WebCrypto Key) (J : Json Value) (storagePassword : JsString) (fresh : ByteArrayN 16)
    (calls : List (SetCall Value)) (db : Database) : Except StorageError Database :=
  match openStorage W storagePassword fresh db with
  | .error e => .error e
  | .ok (db, key) => .ok (run (SetCall.apply W J key) db calls)

/-- Reopening the store and reading a key. -/
def readBack (W : WebCrypto Key) (J : Json Value) (storagePassword : JsString) (fresh : ByteArrayN 16)
    (k : JsString) (db : Database) : Except StorageError (Option Value) :=
  match openStorage W storagePassword fresh db with
  | .error e => .error e
  | .ok (db, key) => getItem W J key k db

/-! ## Records carry the store over -/

theorem lookup_foldl_insert_of_not_mem {entries : List (JsString × Bytes)} {k : JsString}
    (hk : k ∉ entries.map Prod.fst) (kv : AList (fun _ : JsString => Bytes)) :
    (entries.foldl (fun kv e => kv.insert e.1 e.2) kv).lookup k = kv.lookup k := by
  induction entries generalizing kv with
  | nil => rfl
  | cons e entries ih =>
    rw [List.map_cons, List.mem_cons, not_or] at hk
    rw [List.foldl_cons, ih hk.2, AList.lookup_insert_ne hk.1]

theorem lookup_foldl_insert_of_mem {entries : List (JsString × Bytes)}
    (hnodup : (entries.map Prod.fst).Nodup) {k : JsString} {v : Bytes} (hmem : (k, v) ∈ entries)
    (kv : AList (fun _ : JsString => Bytes)) :
    (entries.foldl (fun kv e => kv.insert e.1 e.2) kv).lookup k = some v := by
  induction entries generalizing kv with
  | nil => cases hmem
  | cons e entries ih =>
    rw [List.map_cons, List.nodup_cons] at hnodup
    rw [List.foldl_cons]
    rcases List.mem_cons.mp hmem with rfl | htail
    · rw [lookup_foldl_insert_of_not_mem hnodup.1]
      exact AList.lookup_insert _
    · exact ih hnodup.2 htail _

/-- The entries in the order of the cursor. -/
def cursorEntries (db : Database) : List (JsString × Bytes) :=
  (db.kv.entries.insertionSort fun a b => a.1 ≤ b.1).map fun e => (e.1, e.2)

theorem mem_cursorEntries {db : Database} {k : JsString} {v : Bytes} :
    (k, v) ∈ cursorEntries db ↔ db.kv.lookup k = some v := by
  rw [cursorEntries, List.mem_map]
  constructor
  · rintro ⟨e, he, heq⟩
    cases heq
    exact AList.mem_lookup_iff.mpr ((List.perm_insertionSort _ _).mem_iff.mp he)
  · intro h
    exact ⟨⟨k, v⟩, (List.perm_insertionSort _ _).mem_iff.mpr (AList.mem_lookup_iff.mp h), rfl⟩

theorem nodup_cursorEntries (db : Database) : ((cursorEntries db).map Prod.fst).Nodup := by
  have hperm : ((cursorEntries db).map Prod.fst).Perm db.kv.keys := by
    rw [cursorEntries, List.map_map]
    exact (List.perm_insertionSort _ _).map _
  exact hperm.nodup_iff.mpr db.kv.nodupKeys

/-- A store written from the entries of another holds the same. -/
theorem lookup_restored (db : Database) (k : JsString) :
    ((cursorEntries db).foldl (fun kv e => kv.insert e.1 e.2)
      (∅ : AList (fun _ : JsString => Bytes))).lookup k = db.kv.lookup k := by
  cases h : db.kv.lookup k with
  | some v =>
    exact lookup_foldl_insert_of_mem (nodup_cursorEntries db) (mem_cursorEntries.mpr h) ∅
  | none =>
    have hk : k ∉ (cursorEntries db).map Prod.fst := by
      intro hmem
      obtain ⟨⟨k', v⟩, hentry, rfl⟩ := List.mem_map.mp hmem
      rw [mem_cursorEntries.mp hentry] at h
      cases h
    rw [lookup_foldl_insert_of_not_mem hk, AList.lookup_empty]

theorem mapM_read_write (E : EntryCodec) (entries : List (JsString × Bytes)) :
    (entries.map fun e => E.write e.1 e.2).mapM E.read = some entries := by
  induction entries with
  | nil => rfl
  | cons e entries ih =>
    rw [List.map_cons, List.mapM_cons, E.read_write, ih]
    rfl

theorem collectKeyedRecords_eq_ok {E : EntryCodec} {db : Database} {records : List Bytes} :
    collectKeyedRecords E db = .ok records ↔
      records = (cursorEntries db).map (fun e => E.write e.1 e.2) ∧ cursorEntries db ≠ [] := by
  have hmap : ((db.kv.entries.insertionSort fun a b => a.1 ≤ b.1).map fun e => E.write e.1 e.2) =
      (cursorEntries db).map fun e => E.write e.1 e.2 := by
    rw [cursorEntries, List.map_map]
    rfl
  rw [collectKeyedRecords, hmap]
  cases cursorEntries db with
  | nil => simp
  | cons e entries => simp [eq_comm]

/-! ## What the panel does -/

variable {W : WebCrypto Key} {J : Json Value} {S : Suite} {E : EntryCodec} {password passphrase : JsString}
  {fresh salt : ByteArrayN 16} {nonce : ByteArrayN 12} {db db' : Database} {blob : Bytes}

/-- What a successful export has done. -/
theorem handleExport_inv (h : handleExport W S E password passphrase fresh salt nonce db = .ok (db', blob)) :
    cursorEntries db ≠ [] ∧
      exportBackup S salt nonce passphrase ((cursorEntries db).map fun e => E.write e.1 e.2) =
        .ok blob := by
  rw [handleExport] at h
  split at h
  · cases h
  · split at h
    · cases h
    · rename_i db1 key hopen
      obtain ⟨-, rfl, -⟩ := openStorage_eq_ok.mp hopen
      split at h
      · cases h
      · rename_i records hcollect
        obtain ⟨rfl, hne⟩ := collectKeyedRecords_eq_ok.mp hcollect
        split at h
        · cases h
        · rename_i blob' hexport
          cases h
          exact ⟨hne, hexport⟩

/-- Restoring the records of some entries writes these entries. -/
theorem restoreKeyedRecords_write (entries : List (JsString × Bytes)) (db : Database) :
    restoreKeyedRecords E (entries.map fun e => E.write e.1 e.2) db =
      .ok { db with kv := entries.foldl (fun kv e => kv.insert e.1 e.2) ∅ } := by
  rw [restoreKeyedRecords, mapM_read_write]

/-- Importing what was exported writes the exported entries, and keeps or creates the salt of the
    installation it is imported on. -/
theorem handleImport_eq {entries : List (JsString × Bytes)} (hp : passphrase ≠ []) (hpw : password ≠ [])
    (h : importBackup S passphrase blob = .ok (entries.map fun e => E.write e.1 e.2)) :
    handleImport W S E password passphrase fresh blob db =
      .ok { kv := entries.foldl (fun kv e => kv.insert e.1 e.2) ∅, salt := some (saltOf fresh db) } := by
  have hopen : openStorage W password fresh db =
      .ok ({ db with salt := some (saltOf fresh db) }, W.pbkdf2 (textEncode password) (saltOf fresh db)) :=
    openStorage_eq_ok.mpr ⟨hpw, rfl, rfl⟩
  rw [handleImport, if_neg hp, h, hopen]
  exact restoreKeyedRecords_write entries _

theorem install_eq_ok {calls : List (SetCall Value)} (h : install W J password fresh calls db = .ok db') :
    db' = run (SetCall.apply W J (W.pbkdf2 (textEncode password) (saltOf fresh db)))
      { db with salt := some (saltOf fresh db) } calls := by
  rw [install] at h
  split at h
  · cases h
  · rename_i db1 key hopen
    obtain ⟨-, rfl, rfl⟩ := openStorage_eq_ok.mp hopen
    cases h
    rfl

/-- Once there is a salt, reopening derives the key from it. -/
theorem readBack_eq {k : JsString} {bs : Bytes} (hpw : password ≠ []) (hsalt : db.salt = some bs) :
    readBack W J password fresh k db = getItem W J (W.pbkdf2 (textEncode password) bs) k db := by
  have hown : saltOf fresh db = bs := by
    rw [saltOf, hsalt]
    rfl
  have hopen : openStorage W password fresh db = .ok (db, W.pbkdf2 (textEncode password) bs) := by
    apply openStorage_eq_ok.mpr
    rw [hown, ← hsalt]
    exact ⟨hpw, rfl, rfl⟩
  rw [readBack, hopen]

/-- **A backup migrates a value exactly when both installations derive the same storage key**: after
    any calls of `setItem` on A, an export on A and an import of it on B, every key set on A is read on B
    with the value last set if and only if B opens its store with A's password and A's salt. -/
theorem backup_migrates_iff (W : WebCrypto Key) (hW : W.Lawful) (J : Json Value) (E : EntryCodec)
    (S : Suite) (hS : S.Lawful) (passphrase : JsString)
    -- installation A: nothing was set before the calls
    (passwordA : JsString) (freshA : ByteArrayN 16) (dbA dbA' dbA'' : Database) (hnew : dbA.kv = ∅)
    (calls : List (SetCall Value)) (hA : install W J passwordA freshA calls dbA = .ok dbA')
    -- its export
    (fresh salt : ByteArrayN 16) (nonce : ByteArrayN 12) (blob : Bytes)
    (hexport : handleExport W S E passwordA passphrase fresh salt nonce dbA' = .ok (dbA'', blob))
    (hfits : ∀ records, collectKeyedRecords E dbA' = .ok records →
      records.length < 2 ^ 32 ∧ ∀ r ∈ records, r.length < 2 ^ 32)
    -- installation B: whatever it holds
    (passwordB : JsString) (hB : passwordB ≠ []) (freshB reopened : ByteArrayN 16) (dbB : Database) :
    ∃ dbB', handleImport W S E passwordB passphrase freshB blob dbB = .ok dbB' ∧
      ((∀ k v, lastSet calls k = some v →
          readBack W J passwordB reopened k dbB' = .ok (some v)) ↔
        textEncode passwordA = textEncode passwordB ∧ saltOf freshA dbA = saltOf freshB dbB) := by
  have hp : passphrase ≠ [] := by
    rintro rfl
    cases hexport
  obtain ⟨hne, hblob⟩ := handleExport_inv hexport
  obtain ⟨hcount, hlens⟩ := hfits _ (collectKeyedRecords_eq_ok.mpr ⟨rfl, hne⟩)
  have himport := importBackup_exportBackup_web hS hcount hlens hblob
  refine ⟨_, handleImport_eq hp hB himport, ?_⟩
  -- what A holds, and B after the import
  have hstored : Holds W J (W.pbkdf2 (textEncode passwordA) (saltOf freshA dbA)) (lastSet calls) dbA' := by
    rw [install_eq_ok hA]
    exact stored_of_setItems calls hnew
  have hread : ∀ k v, lastSet calls k = some v →
      (readBack W J passwordB reopened k
          { kv := (cursorEntries dbA').foldl (fun kv e => kv.insert e.1 e.2) ∅,
            salt := some (saltOf freshB dbB) } = .ok (some v) ↔
        W.pbkdf2 (textEncode passwordA) (saltOf freshA dbA) =
          W.pbkdf2 (textEncode passwordB) (saltOf freshB dbB)) := by
    intro k v hlast
    have hk := hstored k
    rw [hlast] at hk
    obtain ⟨iv, hlookup⟩ := hk
    rw [readBack_eq hB rfl]
    apply getItem_stored hW (lastSet_ne_nil hlast)
    rw [lookup_restored, hlookup]
  constructor
  · intro h
    -- something was exported, so some key was set: reading it needs A's key
    obtain ⟨⟨k, bs⟩, hentry⟩ := List.exists_mem_of_ne_nil _ hne
    have hlookup := mem_cursorEntries.mp hentry
    have hk := hstored k
    cases hlast : lastSet calls k with
    | none =>
      rw [hlast, hlookup] at hk
      cases hk
    | some v => exact hW.injective ((hread k v hlast).mp (h k v hlast))
  · rintro ⟨hpw, hsalt⟩ k v hlast
    exact (hread k v hlast).mpr (by rw [hpw, hsalt])

end

/-! ## Two installations -/

/-- Stand-ins for WebCrypto: the key is the password and the salt, and a ciphertext carries the key it
    was made with in front of the data. -/
def keyMark (key : Bytes × Bytes) : Bytes := withLength varint key.1 ++ withLength varint key.2

def markCrypto : WebCrypto (Bytes × Bytes) where
  pbkdf2 := fun password salt => (password, salt)
  encrypt := fun key _ data => keyMark key ++ data
  decrypt := fun key _ ciphertext =>
    if ciphertext.take (keyMark key).length = keyMark key then some (ciphertext.drop (keyMark key).length)
    else none

theorem selfDelimiting_keyMark : SelfDelimiting keyMark := by
  have hlen : SelfDelimiting (withLength varint) := selfDelimiting_withLength selfDelimiting_varint
  rintro ⟨p, s⟩ ⟨p', s'⟩ r r' h
  rw [keyMark, keyMark, List.append_assoc, List.append_assoc] at h
  obtain ⟨rfl, h⟩ := hlen _ _ _ _ h
  obtain ⟨rfl, hr⟩ := hlen _ _ _ _ h
  exact ⟨rfl, hr⟩

theorem markCrypto_lawful : markCrypto.Lawful where
  injective := by
    intro password salt password' salt' h
    exact Prod.mk.inj h
  decrypts := by
    intro key iv data
    simp only [markCrypto, List.take_left, List.drop_left, if_true]
  otherKey := by
    intro key key' iv data hne
    simp only [markCrypto]
    split
    · rename_i htake
      have hcat : keyMark key ++ data =
          keyMark key' ++ (keyMark key ++ data).drop (keyMark key').length := by
        calc keyMark key ++ data = (keyMark key ++ data).take (keyMark key').length ++
              (keyMark key ++ data).drop (keyMark key').length := (List.take_append_drop _ _).symm
          _ = _ := by rw [htake]
      exact absurd (selfDelimiting_keyMark _ _ _ _ hcat).1 hne
    · rfl

/-- Values that are their own JSON text. -/
def plainJson : Json Bytes where
  stringify := id
  parse := some
  parse_stringify := fun _ => rfl

/-- A key, unit by unit, up to a zero. -/
def writeKey : JsString → Bytes
  | [] => [0]
  | u :: us => 1 :: UInt8.ofNat (u.toNat / 256) :: UInt8.ofNat u.toNat :: writeKey us

def readKey : Bytes → Option (JsString × Bytes)
  | 0 :: rest => some ([], rest)
  | 1 :: hi :: lo :: rest =>
    match readKey rest with
    | some (us, rest) => some (UInt16.ofNat (hi.toNat * 256 + lo.toNat) :: us, rest)
    | none => none
  | _ => none

theorem readKey_writeKey (k : JsString) (v : Bytes) : readKey (writeKey k ++ v) = some (k, v) := by
  induction k with
  | nil => rfl
  | cons u us ih =>
    have hu : u.toNat < 65536 := u.toNat_lt
    have hnum : (UInt8.ofNat (u.toNat / 256)).toNat * 256 + (UInt8.ofNat u.toNat).toNat = u.toNat := by
      rw [UInt8.toNat_ofNat', UInt8.toNat_ofNat']
      omega
    show (match readKey (writeKey us ++ v) with
      | some (us, rest) => some (UInt16.ofNat ((UInt8.ofNat (u.toNat / 256)).toNat * 256 +
          (UInt8.ofNat u.toNat).toNat) :: us, rest)
      | none => none) = _
    rw [ih, hnum, UInt16.ofNat_toNat]

def plainEntries : EntryCodec where
  write := fun k v => writeKey k ++ v
  read := readKey
  read_write := readKey_writeKey

/-- One value set under the key "k". -/
def oneCall : List (SetCall Bytes) := [⟨[107], [1, 2], ⟨List.replicate 12 4, rfl⟩⟩]

/-- The same password on both sides, and a salt drawn on each: the value last set on A is not read on
    B. -/
theorem other_salt_unreadable :
    markCrypto.Lawful ∧ standIn.Lawful ∧ lastSet oneCall [107] = some [1, 2] ∧
      (do
        let dbA ← (install markCrypto plainJson [112] ⟨List.replicate 16 1, rfl⟩ oneCall
          Database.new).toOption
        let (_, blob) ← (handleExport markCrypto standIn plainEntries [112] [113]
          ⟨List.replicate 16 9, rfl⟩ ⟨List.replicate 16 3, rfl⟩ ⟨List.replicate 12 5, rfl⟩ dbA).toOption
        let dbB ← (handleImport markCrypto standIn plainEntries [112] [113]
          ⟨List.replicate 16 2, rfl⟩ blob Database.new).toOption
        some (readBack markCrypto plainJson [112] ⟨List.replicate 16 9, rfl⟩ [107] dbB)) =
      some (.error .decryptFail) :=
  ⟨markCrypto_lawful, standIn_lawful, by decide, by decide +kernel⟩

/-- With A's salt on B as well, the value is read. -/
theorem same_salt_readable :
    ∃ dbA dbA' blob dbB,
      install markCrypto plainJson [112] ⟨List.replicate 16 1, rfl⟩ oneCall Database.new = .ok dbA ∧
      handleExport markCrypto standIn plainEntries [112] [113] ⟨List.replicate 16 9, rfl⟩
        ⟨List.replicate 16 3, rfl⟩ ⟨List.replicate 12 5, rfl⟩ dbA = .ok (dbA', blob) ∧
      handleImport markCrypto standIn plainEntries [112] [113] ⟨List.replicate 16 1, rfl⟩ blob
        Database.new = .ok dbB ∧
      readBack markCrypto plainJson [112] ⟨List.replicate 16 9, rfl⟩ [107] dbB = .ok (some [1, 2]) := by
  have h := backup_migrates_iff markCrypto markCrypto_lawful plainJson plainEntries standIn
    standIn_lawful [113] [112] ⟨List.replicate 16 1, rfl⟩ Database.new _ _ rfl oneCall rfl
    ⟨List.replicate 16 9, rfl⟩ ⟨List.replicate 16 3, rfl⟩ ⟨List.replicate 12 5, rfl⟩ _ rfl
    (by intro records hrec; cases hrec; decide +kernel) [112] (by decide)
    ⟨List.replicate 16 1, rfl⟩ ⟨List.replicate 16 9, rfl⟩ Database.new
  obtain ⟨dbB, himport, hiff⟩ := h
  exact ⟨_, _, _, dbB, rfl, rfl, himport, hiff.mpr ⟨rfl, rfl⟩ [107] [1, 2] rfl⟩

end E2EMessaging.Web
