/-
  THE ENCRYPTED STORE (`Store`, `EncryptedStore` of `core/storage/src/lib.rs`).

  A directory holds one SQLCipher file.  Opening it stages a key with a `PRAGMA` whose text is spliced
  together, forces a first read, and creates the two tables if they are not there.  The typed accessors wrap
  the identity in an envelope, a length and as many bytes; `put_raw` writes beneath them.

  What SQLCipher and SQLite do is documented, and modelled as such: a literal of 64 hex digits is a raw key;
  a file opens under the key it was made with and no other; a statement has its effect or fails and has
  none; no value is longer than `SQLITE_MAX_LENGTH`.  Everything else can happen: any file to begin with, any
  handles open at once, any statement failing.

  * the key that is staged is the key that was given (`stagedKey_eq`): the splice cannot be escaped from, and
    the literal is read back;
  * a file is bound to the first key that opens it, for good (`store_key_binding`);
  * the identity that is read is the one last written through the accessor, and what was written beneath it
    is an error unless it is an envelope itself (`store_reads_last_write`).
-/
import E2EMessaging.Lib.Hex
import E2EMessaging.Lib.Register
import E2EMessaging.Storage.Backup

namespace E2EMessaging.Storage

open E2EMessaging.Lib

/-- `StoreError`. -/
inductive StoreError where
  | invalidKey
  | database (e : String)
  | corrupted (reason : String)
  deriving Repr, DecidableEq

/-! ## Envelopes -/

/-- The envelope `put_typed` writes: `value.len() as u32`, then the value. -/
def toEnvelope (value : Bytes) : Bytes := toBeBytes 4 (value.length % 2 ^ 32) ++ value

/-- `parse_envelope`. -/
def parseEnvelope (envelope : Bytes) : Except StoreError Bytes :=
  if envelope.length < 4 then .error (.corrupted "value shorter than length prefix")
  else
    let len := fromBeBytes (envelope.take 4)
    let body := envelope.drop 4
    if body.length ≠ len then .error (.corrupted "declared length does not match stored body")
    else .ok body

/-- `StoreKey`. -/
abbrev StoreKey := ByteArrayN 32

/-- A single quote. -/
def quote : Char := Char.ofNat 39

/-- A double quote. -/
def doubleQuote : Char := Char.ofNat 34

/-- `as_sqlcipher_literal`. -/
def asSqlcipherLiteral (key : StoreKey) : List Char := ['x', quote] ++ key.val.flatMap hexByte ++ [quote]

/-- The statement up to the key. -/
def pragmaStart : List Char := "PRAGMA key = ".toList

/-- The statement that stages it. -/
def pragmaKey (key : StoreKey) : List Char :=
  pragmaStart ++ doubleQuote :: (asSqlcipherLiteral key ++ [doubleQuote, ';'])

/-- Not a double quote. -/
def isPlain (c : Char) : Bool := decide (c ≠ doubleQuote)

/-- What SQLite reads between double quotes. -/
def quotedText (sql : List Char) : List Char := ((sql.dropWhile isPlain).drop 1).takeWhile isPlain

/-- The key of a SQLCipher file. -/
inductive CipherKey where
  | raw (key : Bytes)
  /-- Derived from a text. -/
  | passphrase (text : List Char)
  deriving Repr, DecidableEq

/-- `PRAGMA key`: 64 hex digits in single quotes after an `x` are a raw key. -/
def cipherKey (text : List Char) : CipherKey :=
  if text.length = 67 ∧ text.take 2 = ['x', quote] ∧ text.drop 66 = [quote] then
    match hexDecode ((text.drop 2).take 64) with
    | some key => .raw key
    | none => .passphrase text
  else .passphrase text

/-- The key that is staged. -/
def stagedKey (key : StoreKey) : CipherKey := cipherKey (quotedText (pragmaKey key))

/-- The literal has no double quote in it, so it can be spliced. -/
theorem isPlain_of_mem_literal {key : StoreKey} {c : Char} (hc : c ∈ asSqlcipherLiteral key) :
    isPlain c = true := by
  rcases List.mem_append.mp hc with hhead | hlast
  · rcases List.mem_append.mp hhead with hstart | hdigits
    · have hall : ∀ d ∈ ['x', quote], isPlain d = true := List.all_eq_true.mp (by decide)
      exact hall c hstart
    · have hdigit := (mem_flatMap_hexByte hdigits).1
      refine decide_eq_true fun heq => ?_
      rw [heq] at hdigit
      revert hdigit
      decide
  · rw [List.mem_singleton.mp hlast]
    decide

/-- What is between the double quotes is the literal. -/
theorem quotedText_pragmaKey (key : StoreKey) : quotedText (pragmaKey key) = asSqlcipherLiteral key := by
  have hplain : ∀ c ∈ pragmaStart, isPlain c = true := List.all_eq_true.mp (by decide +kernel)
  have hquote : ¬ isPlain doubleQuote = true := by decide
  have hskip : (pragmaKey key).dropWhile isPlain =
      doubleQuote :: (asSqlcipherLiteral key ++ [doubleQuote, ';']) := by
    rw [pragmaKey, List.dropWhile_append_of_pos hplain, List.dropWhile_cons_of_neg hquote]
  have htake : [doubleQuote, ';'].takeWhile isPlain = [] := by decide
  rw [quotedText, hskip, List.drop_succ_cons, List.drop_zero,
    List.takeWhile_append_of_pos fun c hc => isPlain_of_mem_literal hc, htake, List.append_nil]

/-- **The key that is staged is the key that was given.** -/
theorem stagedKey_eq (key : StoreKey) : stagedKey key = .raw key.val := by
  have hdigits : (key.val.flatMap hexByte).length = 64 := by rw [length_flatMap_hexByte, key.property]
  have hdrop : (asSqlcipherLiteral key).drop 2 = key.val.flatMap hexByte ++ [quote] := rfl
  have hlast : (asSqlcipherLiteral key).drop 66 = [quote] := by
    rw [show 66 = 2 + 64 from rfl, ← List.drop_drop, hdrop, List.drop_left' hdigits]
  have hlen : (asSqlcipherLiteral key).length = 67 := by
    rw [asSqlcipherLiteral, List.length_append, List.length_append, hdigits]
    rfl
  rw [stagedKey, quotedText_pragmaKey, cipherKey, if_pos ⟨hlen, rfl, hlast⟩, hdrop, List.take_left' hdigits,
    hexDecode_hexByte]

/-- Different keys are staged as different keys: the literal has all of a key's digits, and SQLCipher reads it as a
    raw key. -/
theorem stagedKey_injective {key key' : StoreKey} (h : stagedKey key = stagedKey key') : key = key' := by
  rw [stagedKey_eq, stagedKey_eq] at h
  exact Subtype.ext (CipherKey.raw.inj h)

/-! ## Files -/

/-- A value in a row.  Whoever else made the table may have left out `NOT NULL`, or put there what is no
    blob: an integer, a real or a text. -/
inductive Cell where
  | blob (bytes : Bytes)
  | null
  | other
  deriving Repr, DecidableEq

/-- The two tables, if they are there: the version in the one row of the first, and the rows of the second. -/
structure Database where
  schemaMeta : Option (Option Int)
  state : Option (String → Option Cell)

/-- `store.db`: not there or empty, encrypted under a key, or anything else. -/
inductive DbFile where
  | empty
  | encrypted (key : CipherKey) (db : Database)
  | other

/-- `SCHEMA_VERSION`. -/
def schemaVersion : Int := 1

/-- `CREATE TABLE IF NOT EXISTS schema_meta`. -/
def createMeta (db : Database) : Database := { db with schemaMeta := some (db.schemaMeta.getD none) }

/-- `INSERT INTO schema_meta … ON CONFLICT(id) DO NOTHING`. -/
def insertVersion (db : Database) : Database :=
  { db with schemaMeta := db.schemaMeta.map fun version => some (version.getD schemaVersion) }

/-- `CREATE TABLE IF NOT EXISTS state`. -/
def createState (db : Database) : Database := { db with state := some (db.state.getD fun _ => none) }

/-- The statements of `initialize_schema`. -/
def schemaStatements : List (Database → Database) := [createMeta, insertVersion, createState]

/-- The first statements of `initialize_schema`. -/
def initializeSchema (n : Nat) (db : Database) : Database := (schemaStatements.take n).foldl (fun db f => f db) db

/-- Where `Store::open` can be failed by the system: the connection, the `PRAGMA`, the first read, or
    statement `n` of the schema. -/
inductive OpenFault where
  | connect (e : String)
  | pragma (e : String)
  | read
  | schema (n : Fin 3) (e : String)

/-- `initialize_schema`: how many statements have had their effect, and what it returns. -/
def OpenFault.reached : Option OpenFault → Nat × Except StoreError Unit
  | some (.schema n e) => (n, .error (.database e))
  | _ => (3, .ok ())

/-- The schema on a file that the key opens. -/
def withSchema (key : StoreKey) (fault : Option OpenFault) (file : DbFile) (db : Database) :
    DbFile × Except StoreError Unit :=
  match OpenFault.reached fault with
  -- an empty file is encrypted by the first write
  | (0, result) => (file, result)
  | (n + 1, result) => (.encrypted (stagedKey key) (initializeSchema (n + 1) db), result)

/-- What fails before the key has been tried; the first read fails with `InvalidKey`, whatever the reason. -/
def OpenFault.early : Option OpenFault → Option StoreError
  | some (.connect e) => some (.database e)
  | some (.pragma e) => some (.database e)
  | some .read => some .invalidKey
  | _ => none

/-- `Store::open`. -/
def Store.open (key : StoreKey) (fault : Option OpenFault) (file : DbFile) : DbFile × Except StoreError Unit :=
  match OpenFault.early fault with
  | some e => (file, .error e)
  | none =>
    match file with
    | .other => (file, .error .invalidKey)
    | .empty => withSchema key fault file ⟨none, none⟩
    | .encrypted k db => if k = stagedKey key then withSchema key fault file db else (file, .error .invalidKey)

/-- The rows of the state table, on a connection with the key. -/
def DbFile.rows (key : StoreKey) : DbFile → Except StoreError (String → Option Cell)
  | .encrypted k db =>
    if k = stagedKey key then
      match db.state with
      | some rows => .ok rows
      | none => .error (.database "no such table: state")
    else .error (.database "file is not a database")
  | .empty => .error (.database "no such table: state")
  | .other => .error (.database "file is not a database")

/-- The file with other rows. -/
def DbFile.setRows (rows : String → Option Cell) : DbFile → DbFile
  | .encrypted k db => .encrypted k { db with state := some rows }
  | file => file

/-- `INSERT OR REPLACE INTO state`, of a blob of at most `maxLength` bytes. -/
def writeRow (maxLength : Nat) (key : StoreKey) (row : String) (blob : Bytes) (fault : Option String)
    (file : DbFile) : DbFile × Except StoreError Unit :=
  match fault with
  | some e => (file, .error (.database e))
  | none =>
    if maxLength < blob.length then (file, .error (.database "string or blob too big"))
    else
      match file.rows key with
      | .error e => (file, .error e)
      | .ok rows => (file.setRows (Function.update rows row (some (.blob blob))), .ok ())

/-- `IDENTITY_KEY`. -/
def identityKey : String := "identity"

/-- `get_typed`, from the value of the row.  The column is read as an `Option<Vec<u8>>`: `NULL` is `None`, as no
    row is. -/
def getTyped : Option Cell → Except StoreError (Option Bytes)
  | none => .ok none
  | some .null => .ok none
  | some .other => .error (.database "Invalid column type")
  | some (.blob envelope) => (parseEnvelope envelope).map some

/-- `get_identity`. -/
def getIdentity (key : StoreKey) (fault : Option String) (file : DbFile) : Except StoreError (Option Bytes) :=
  match fault with
  | some e => .error (.database e)
  | none => (file.rows key).bind fun rows => getTyped (rows identityKey)

/-! ## Directories and handles -/

/-- An open `EncryptedStore`. -/
structure Handle where
  dir : String
  key : StoreKey
  deriving DecidableEq

/-- What a program does with stores; `fault` is what the system does to it. -/
inductive StoreAct where
  | open (dir : String) (key : StoreKey) (fault : Option OpenFault)
  | putIdentity (handle : Nat) (serialized : Bytes) (fault : Option String)
  | putRaw (handle : Nat) (row : String) (blob : Bytes) (fault : Option String)
  | getIdentity (handle : Nat) (fault : Option String)

/-- What was done, in which directory, and what came of it. -/
inductive StoreEntry where
  | opened (dir : String) (key : StoreKey) (fault : Option OpenFault) (result : Except StoreError Unit)
  | identityPut (dir : String) (serialized : Bytes) (result : Except StoreError Unit)
  | rawPut (dir row : String) (blob : Bytes) (result : Except StoreError Unit)
  | identityGot (dir : String) (fault : Option String) (result : Except StoreError (Option Bytes))

/-- Every directory's file, the handles that are open, and what has been done. -/
structure Disk where
  files : String → DbFile
  handles : List Handle
  log : List StoreEntry

namespace Disk

/-- Nothing is open. -/
def start (files : String → DbFile) : Disk := ⟨files, [], []⟩

/-- An action on a file. -/
def act (d : Disk) (dir : String) (file : DbFile) (entry : StoreEntry) (handles : List Handle) : Disk :=
  ⟨Function.update d.files dir file, d.handles ++ handles, d.log ++ [entry]⟩

/-- The handle an open returns. -/
def opened (dir : String) (key : StoreKey) : Except StoreError Unit → List Handle
  | .ok () => [⟨dir, key⟩]
  | .error _ => []

/-- One action. -/
def step (maxLength : Nat) (d : Disk) : StoreAct → Disk
  | .open dir key fault =>
    let (file, result) := Store.open key fault (d.files dir)
    d.act dir file (.opened dir key fault result) (opened dir key result)
  | .putIdentity handle serialized fault =>
    match d.handles[handle]? with
    | none => d
    | some h =>
      let (file, result) := writeRow maxLength h.key identityKey (toEnvelope serialized) fault (d.files h.dir)
      d.act h.dir file (.identityPut h.dir serialized result) []
  | .putRaw handle row blob fault =>
    match d.handles[handle]? with
    | none => d
    | some h =>
      let (file, result) := writeRow maxLength h.key row blob fault (d.files h.dir)
      d.act h.dir file (.rawPut h.dir row blob result) []
  | .getIdentity handle fault =>
    match d.handles[handle]? with
    | none => d
    | some h =>
      d.act h.dir (d.files h.dir) (.identityGot h.dir fault (getIdentity h.key fault (d.files h.dir))) []

end Disk

/-! ## A file once it has been opened -/

/-- The key opens the file, and the schema is there. -/
def Opens (key : StoreKey) (file : DbFile) : Prop :=
  ∃ version rows, file = .encrypted (stagedKey key) ⟨some (some version), some rows⟩

section Open

variable {key key' : StoreKey} {fault : Option OpenFault} {file : DbFile}

/-- A schema that is there stays as it is. -/
theorem initializeSchema_complete (n : Nat) (version : Int) (rows : String → Option Cell) :
    initializeSchema n ⟨some (some version), some rows⟩ = ⟨some (some version), some rows⟩ := by
  match n with
  | 0 => rfl
  | 1 => rfl
  | 2 => rfl
  | n + 3 =>
    have hlen : schemaStatements.length ≤ n + 3 := by
      show 3 ≤ n + 3
      omega
    rw [initializeSchema, List.take_of_length_le hlen]
    rfl

/-- On a new file the schema leaves no identity, and on another one the identity that is there. -/
theorem initializeSchema_identity (n : Nat) (db : Database) :
    (initializeSchema n db).state.bind (· identityKey) = db.state.bind (· identityKey) := by
  have hstatement : ∀ statement ∈ schemaStatements, ∀ db : Database,
      (statement db).state.bind (· identityKey) = db.state.bind (· identityKey) := by
    intro statement hmem db
    rcases List.mem_cons.mp hmem with rfl | hmem
    · rfl
    rcases List.mem_cons.mp hmem with rfl | hmem
    · rfl
    obtain rfl := List.mem_singleton.mp hmem
    cases hstate : db.state with
    | none => simp [createState, hstate]
    | some rows => simp [createState, hstate]
  have hfold : ∀ (statements : List (Database → Database)), statements ⊆ schemaStatements → ∀ db : Database,
      (statements.foldl (fun db f => f db) db).state.bind (· identityKey) =
        db.state.bind (· identityKey) := by
    intro statements
    induction statements with
    | nil => exact fun _ db => rfl
    | cons statement statements ih =>
      intro hsub db
      rw [List.foldl_cons, ih (fun f hf => hsub (List.mem_cons_of_mem _ hf)),
        hstatement statement (hsub List.mem_cons_self)]
  exact hfold _ (List.take_subset n schemaStatements) db

/-- **A file that has been opened is changed by no further open, and opens under its own key only.** -/
theorem open_of_opens (h : Opens key file) (key' : StoreKey) (fault : Option OpenFault) :
    (Store.open key' fault file).1 = file ∧
      (key' ≠ key → ∃ e, (Store.open key' fault file).2 = .error e ∧ (fault = none → e = .invalidKey)) ∧
      (key' = key → fault = none → (Store.open key' fault file).2 = .ok ()) := by
  obtain ⟨version, rows, rfl⟩ := h
  rw [Store.open]
  cases hearly : OpenFault.early fault with
  | some e =>
    refine ⟨rfl, fun _ => ⟨e, rfl, ?_⟩, ?_⟩
    · rintro rfl
      cases hearly
    · rintro - rfl
      cases hearly
  | none =>
    by_cases hkey : key' = key
    · subst hkey
      dsimp only
      rw [if_pos rfl, withSchema]
      refine ⟨?_, fun hne => absurd rfl hne, ?_⟩
      · split
        · rfl
        · rw [initializeSchema_complete]
      · rintro - rfl
        rfl
    · have hstaged : ¬ stagedKey key = stagedKey key' := fun heq => hkey (stagedKey_injective heq).symm
      dsimp only
      rw [if_neg hstaged]
      exact ⟨rfl, fun _ => ⟨_, rfl, fun _ => rfl⟩, fun heq => absurd heq hkey⟩

/-- An open that succeeds has opened the file. -/
theorem opens_of_open (hok : (Store.open key fault file).2 = .ok ()) : Opens key (Store.open key fault file).1 := by
  have hschema : ∀ db, (withSchema key fault file db).2 = .ok () → Opens key (withSchema key fault file db).1 := by
    intro db h
    rw [withSchema] at h ⊢
    match fault with
    | some (.schema ⟨0, hn⟩ e) => cases h
    | some (.schema ⟨n + 1, hn⟩ e) => cases h
    | none => exact ⟨_, _, rfl⟩
    | some (.connect e) => exact ⟨_, _, rfl⟩
    | some (.pragma e) => exact ⟨_, _, rfl⟩
    | some .read => exact ⟨_, _, rfl⟩
  unfold Store.open at hok ⊢
  cases hearly : OpenFault.early fault with
  | some e =>
    rw [hearly] at hok
    cases hok
  | none =>
    rw [hearly] at hok
    cases file with
    | empty => exact hschema _ hok
    | other => cases hok
    | encrypted k db =>
      dsimp only at hok ⊢
      split at hok
      · rename_i hk
        rw [if_pos hk]
        exact hschema _ hok
      · cases hok

/-- The cell of the identity. -/
def DbFile.identityCell : DbFile → Option Cell
  | .encrypted _ db => db.state.bind (· identityKey)
  | _ => none

/-- Opening leaves the identity alone. -/
theorem open_identityCell (key : StoreKey) (fault : Option OpenFault) (file : DbFile) :
    (Store.open key fault file).1.identityCell = file.identityCell := by
  have hschema : ∀ db, file.identityCell = db.state.bind (· identityKey) →
      (withSchema key fault file db).1.identityCell = file.identityCell := by
    intro db hdb
    rw [withSchema]
    split
    · rfl
    · exact (initializeSchema_identity _ db).trans hdb.symm
  unfold Store.open
  cases OpenFault.early fault with
  | some e => rfl
  | none =>
    cases file with
    | empty => exact hschema _ rfl
    | other => rfl
    | encrypted k db =>
      dsimp only
      split
      · exact hschema db rfl
      · rfl

end Open

/-! ## Rows -/

section Rows

variable {key : StoreKey} {file : DbFile} {maxLength : Nat} {row : String} {blob : Bytes} {fault : Option String}

/-- On a file that the key opens the table is there. -/
theorem Opens.rows (h : Opens key file) : ∃ rows, file.rows key = .ok rows := by
  obtain ⟨version, rows, rfl⟩ := h
  exact ⟨rows, if_pos rfl⟩

theorem rows_identityCell {rows : String → Option Cell} (h : file.rows key = .ok rows) :
    file.identityCell = rows identityKey := by
  cases file with
  | empty => cases h
  | other => cases h
  | encrypted k db =>
    rw [DbFile.rows] at h
    split at h
    · cases hstate : db.state with
      | none =>
        rw [hstate] at h
        cases h
      | some rows' =>
        rw [hstate] at h
        obtain rfl := Except.ok.inj h
        show db.state.bind (· identityKey) = _
        rw [hstate]
        rfl
    · cases h

/-- **A write has its effect on one row, or fails and has none.** -/
theorem writeRow_cases (maxLength : Nat) (h : Opens key file) (row : String) (blob : Bytes)
    (fault : Option String) :
    ((writeRow maxLength key row blob fault file).1 = file ∧
        ∃ e, (writeRow maxLength key row blob fault file).2 = .error e) ∨
      (blob.length ≤ maxLength ∧ (writeRow maxLength key row blob fault file).2 = .ok () ∧
        ∃ rows, file.rows key = .ok rows ∧ (writeRow maxLength key row blob fault file).1 =
          file.setRows (Function.update rows row (some (.blob blob)))) := by
  obtain ⟨rows, hrows⟩ := h.rows
  unfold writeRow
  cases fault with
  | some e => exact Or.inl ⟨rfl, _, rfl⟩
  | none =>
    dsimp only
    by_cases hlen : maxLength < blob.length
    · rw [if_pos hlen]
      exact Or.inl ⟨rfl, _, rfl⟩
    · rw [if_neg hlen, hrows]
      exact Or.inr ⟨Nat.le_of_not_lt hlen, rfl, rows, rfl, rfl⟩

theorem Opens.setRows (h : Opens key file) (rows : String → Option Cell) : Opens key (file.setRows rows) := by
  obtain ⟨version, rows', rfl⟩ := h
  exact ⟨version, rows, rfl⟩

theorem Opens.identityCell_setRows (h : Opens key file) (rows : String → Option Cell) :
    (file.setRows rows).identityCell = rows identityKey := by
  obtain ⟨version, rows', rfl⟩ := h
  rfl

end Rows

/-! ## Runs -/

/-- An identity, written through the accessor or beneath it. -/
inductive Written where
  | typed (serialized : Bytes)
  | raw (blob : Bytes)

/-- The value of the row. -/
def Written.blob : Written → Bytes
  | .typed serialized => toEnvelope serialized
  | .raw blob => blob

/-- What should be read: what was written, and beneath the accessor only what is an envelope. -/
def Written.read : Written → Except StoreError (Option Bytes)
  | .typed serialized => .ok (some serialized)
  | .raw blob => (parseEnvelope blob).map some

/-- What a log entry has written to the identity of a directory. -/
def StoreEntry.writes (dir : String) : StoreEntry → Option Written
  | .identityPut dir' serialized (.ok ()) => if dir' = dir then some (.typed serialized) else none
  | .rawPut dir' row blob (.ok ()) => if dir' = dir ∧ row = identityKey then some (.raw blob) else none
  | _ => none

/-- The identity of a directory after a log. -/
def identityAfter (files : String → DbFile) (log : List StoreEntry) (dir : String) : Option Cell :=
  match lastOf (StoreEntry.writes dir) log with
  | some written => some (.blob written.blob)
  | none => (files dir).identityCell

/-- An entry that writes nothing leaves the identity as it is. -/
theorem identityAfter_concat_none {files : String → DbFile} {log : List StoreEntry} {dir : String}
    {entry : StoreEntry} (h : entry.writes dir = none) :
    identityAfter files (log ++ [entry]) dir = identityAfter files log dir := by
  rw [identityAfter, identityAfter, lastOf_concat_none h]

/-- An entry that writes something leaves that. -/
theorem identityAfter_concat_some {files : String → DbFile} {log : List StoreEntry} {dir : String}
    {entry : StoreEntry} {written : Written} (h : entry.writes dir = some written) :
    identityAfter files (log ++ [entry]) dir = some (.blob written.blob) := by
  rw [identityAfter, lastOf_concat_some h]

/-- An identity that was read is the one of the log before. -/
def ReadsIdentity (files : String → DbFile) (log : List StoreEntry) (entry : StoreEntry) : Prop :=
  ∀ dir result, entry = .identityGot dir none result → result = getTyped (identityAfter files log dir)

/-- What every run keeps. -/
structure Disk.Sound (files : String → DbFile) (maxLength : Nat) (d : Disk) : Prop where
  handles : ∀ h ∈ d.handles, Opens h.key (d.files h.dir)
  opened : ∀ dir key fault, .opened dir key fault (.ok ()) ∈ d.log → Opens key (d.files dir)
  cells : ∀ dir, (d.files dir).identityCell = identityAfter files d.log dir
  fits : ∀ dir serialized, .identityPut dir serialized (.ok ()) ∈ d.log →
    (toEnvelope serialized).length ≤ maxLength
  got : Throughout (ReadsIdentity files) d.log

namespace Disk

variable {files : String → DbFile} {maxLength : Nat} {d : Disk}

theorem sound_start (files : String → DbFile) (maxLength : Nat) : (start files).Sound files maxLength where
  handles := fun _ h => absurd h List.not_mem_nil
  opened := fun _ _ _ h => absurd h List.not_mem_nil
  cells := fun _ => rfl
  fits := fun _ _ h => absurd h List.not_mem_nil
  got := .nil

/-- **One action on one file.**  It opens what it opened before, its identity is what the log says, and the
    entry is true. -/
theorem Sound.act (h : d.Sound files maxLength) {dir : String} {file : DbFile} {entry : StoreEntry}
    {handles : List Handle} (hopens : ∀ key, Opens key (d.files dir) → Opens key file)
    (hcell : file.identityCell = identityAfter files (d.log ++ [entry]) dir)
    (hother : ∀ dir', dir' ≠ dir → entry.writes dir' = none)
    (hhandles : ∀ x ∈ handles, x.dir = dir ∧ Opens x.key file)
    (hopened : ∀ dir' key fault, entry = .opened dir' key fault (.ok ()) → dir' = dir ∧ Opens key file)
    (hfits : ∀ dir' serialized, entry = .identityPut dir' serialized (.ok ()) →
      (toEnvelope serialized).length ≤ maxLength)
    (hgot : ReadsIdentity files d.log entry) :
    (d.act dir file entry handles).Sound files maxLength := by
  have hkeeps : ∀ dir' key, Opens key (d.files dir') → Opens key (Function.update d.files dir file dir') := by
    intro dir' key hopen
    by_cases hdir : dir' = dir
    · subst hdir
      rw [Function.update_self]
      exact hopens key hopen
    · rw [Function.update_of_ne hdir]
      exact hopen
  refine ⟨?_, ?_, ?_, ?_, h.got.concat hgot⟩
  · intro x hx
    rcases List.mem_append.mp hx with hold | hnew
    · exact hkeeps x.dir x.key (h.handles x hold)
    · obtain ⟨hdir, hopen⟩ := hhandles x hnew
      show Opens x.key (Function.update d.files dir file x.dir)
      rw [hdir, Function.update_self]
      exact hopen
  · intro dir' key fault hmem
    rcases List.mem_append.mp hmem with hold | hnew
    · exact hkeeps dir' key (h.opened dir' key fault hold)
    · obtain ⟨rfl, hopen⟩ := hopened dir' key fault (List.mem_singleton.mp hnew).symm
      show Opens key (Function.update d.files dir' file dir')
      rw [Function.update_self]
      exact hopen
  · intro dir'
    show (Function.update d.files dir file dir').identityCell = identityAfter files (d.log ++ [entry]) dir'
    by_cases hdir : dir' = dir
    · subst hdir
      rw [Function.update_self]
      exact hcell
    · rw [Function.update_of_ne hdir, identityAfter_concat_none (hother dir' hdir)]
      exact h.cells dir'
  · intro dir' serialized hmem
    rcases List.mem_append.mp hmem with hold | hnew
    · exact h.fits dir' serialized hold
    · exact hfits dir' serialized (List.mem_singleton.mp hnew).symm

/-- A write through a handle. -/
theorem Sound.write (h : d.Sound files maxLength) {x : Handle} (hx : x ∈ d.handles) {row : String} {blob : Bytes}
    {fault : Option String} (entry : Except StoreError Unit → StoreEntry) (written : Written)
    (hblob : written.blob = blob)
    (hok : (entry (.ok ())).writes x.dir = if row = identityKey then some written else none)
    (herror : ∀ e dir, (entry (.error e)).writes dir = none)
    (hother : ∀ result dir, dir ≠ x.dir → (entry result).writes dir = none)
    (hopened : ∀ result dir key fault result', entry result ≠ .opened dir key fault result')
    (hfits : ∀ dir serialized, entry (.ok ()) = .identityPut dir serialized (.ok ()) →
      toEnvelope serialized = blob)
    (herrorPut : ∀ e dir serialized, entry (.error e) ≠ .identityPut dir serialized (.ok ()))
    (hgot : ∀ result dir fault result', entry result ≠ .identityGot dir fault result') :
    (d.act x.dir (writeRow maxLength x.key row blob fault (d.files x.dir)).1
      (entry (writeRow maxLength x.key row blob fault (d.files x.dir)).2) []).Sound files maxLength := by
  have hopen := h.handles x hx
  rcases writeRow_cases maxLength hopen row blob fault with ⟨hfile, e, hresult⟩ | ⟨hlen, hresult, rows, hrows, hfile⟩
  · rw [hfile, hresult]
    refine h.act (fun _ hopens => hopens) ?_ (hother _) nofun ?_ ?_ ?_
    · rw [identityAfter_concat_none (herror e x.dir)]
      exact h.cells x.dir
    · exact fun dir key fault heq => absurd heq (hopened _ dir key fault _)
    · exact fun dir serialized heq => absurd heq (herrorPut e dir serialized)
    · exact fun dir result heq => absurd heq (hgot _ dir none result)
  · rw [hfile, hresult]
    refine h.act (fun _ hopens => hopens.setRows _) ?_ (hother _) nofun ?_ ?_ ?_
    · rw [hopen.identityCell_setRows]
      by_cases hrow : row = identityKey
      · subst hrow
        rw [if_pos rfl] at hok
        rw [identityAfter_concat_some hok, Function.update_self, hblob]
      · rw [if_neg hrow] at hok
        rw [identityAfter_concat_none hok, Function.update_of_ne (Ne.symm hrow), ← rows_identityCell hrows]
        exact h.cells x.dir
    · exact fun dir key fault heq => absurd heq (hopened _ dir key fault _)
    · intro dir serialized heq
      rw [hfits dir serialized heq]
      exact hlen
    · exact fun dir result heq => absurd heq (hgot _ dir none result)

/-- An open acts on one directory, and its handle comes last. -/
theorem step_open (maxLength : Nat) (d : Disk) (dir : String) (key : StoreKey) (fault : Option OpenFault) :
    d.step maxLength (.open dir key fault) = d.act dir (Store.open key fault (d.files dir)).1
      (.opened dir key fault (Store.open key fault (d.files dir)).2)
      (opened dir key (Store.open key fault (d.files dir)).2) := rfl

/-- **Every action keeps it.** -/
theorem Sound.step (h : d.Sound files maxLength) (a : StoreAct) : (d.step maxLength a).Sound files maxLength := by
  cases a with
  | «open» dir key fault =>
    rw [step_open]
    refine h.act ?_ ?_ (fun _ _ => rfl) ?_ ?_ nofun nofun
    · intro key' hopens
      rw [(open_of_opens hopens key fault).1]
      exact hopens
    · rw [open_identityCell, identityAfter_concat_none rfl]
      exact h.cells dir
    · intro x hx
      cases hresult : (Store.open key fault (d.files dir)).2 with
      | error e =>
        rw [hresult] at hx
        cases hx
      | ok u =>
        rw [hresult] at hx
        obtain rfl := List.mem_singleton.mp hx
        exact ⟨rfl, opens_of_open hresult⟩
    · intro dir' key' fault' heq
      obtain ⟨rfl, rfl, rfl, hresult⟩ := StoreEntry.opened.inj heq
      exact ⟨rfl, opens_of_open hresult⟩
  | putIdentity handle serialized fault =>
    rw [Disk.step]
    cases hx : d.handles[handle]? with
    | none => exact h
    | some x =>
      refine h.write (List.mem_of_getElem? hx) (.identityPut x.dir serialized) (.typed serialized) rfl
        ?_ ?_ ?_ nofun ?_ ?_ nofun
      · rw [if_pos rfl]
        exact if_pos rfl
      · exact fun _ _ => rfl
      · intro result dir hne
        cases result with
        | ok u => exact if_neg (Ne.symm hne)
        | error e => rfl
      · intro dir serialized' heq
        rw [(StoreEntry.identityPut.inj heq).2.1]
      · intro e dir serialized' heq
        cases (StoreEntry.identityPut.inj heq).2.2
  | putRaw handle row blob fault =>
    rw [Disk.step]
    cases hx : d.handles[handle]? with
    | none => exact h
    | some x =>
      refine h.write (List.mem_of_getElem? hx) (.rawPut x.dir row blob) (.raw blob) rfl
        ?_ ?_ ?_ nofun nofun nofun nofun
      · by_cases hrow : row = identityKey
        · rw [if_pos hrow]
          exact if_pos ⟨rfl, hrow⟩
        · rw [if_neg hrow]
          exact if_neg fun hboth => hrow hboth.2
      · exact fun _ _ => rfl
      · intro result dir hne
        cases result with
        | ok u => exact if_neg fun hboth => hne hboth.1.symm
        | error e => rfl
  | getIdentity handle fault =>
    rw [Disk.step]
    cases hx : d.handles[handle]? with
    | none => exact h
    | some x =>
      refine h.act (fun _ hopens => hopens) ?_ (fun _ _ => rfl) nofun nofun nofun ?_
      · rw [identityAfter_concat_none rfl]
        exact h.cells x.dir
      · intro dir result heq
        obtain ⟨rfl, rfl, rfl⟩ := StoreEntry.identityGot.inj heq
        obtain ⟨rows, hrows⟩ := (h.handles x (List.mem_of_getElem? hx)).rows
        rw [← h.cells, rows_identityCell hrows, Storage.getIdentity, hrows]
        rfl

/-- So the log tells what every file holds, in every run. -/
theorem sound_run (files : String → DbFile) (maxLength : Nat) (acts : List StoreAct) :
    (run (step maxLength) (start files) acts).Sound files maxLength :=
  run_inv (I := Disk.Sound files maxLength) (fun _ a h => h.step a) (sound_start files maxLength) acts

end Disk

/-- A key for the runs below. -/
def sampleKey (b : UInt8) : StoreKey := ⟨List.replicate 32 b, List.length_replicate⟩

/-- A new directory, two writes of the identity, and a read. -/
def putPutGet : List StoreAct :=
  [.open "alice" (sampleKey 1) none, .putIdentity 0 [1, 2, 3] none, .putIdentity 0 [4] none, .getIdentity 0 none]

/-- **A directory is bound to the key that opened it.**  In every run, once an open of a directory has
    succeeded: an open with another key fails, with `InvalidKey` unless the system fails it first, and changes
    no file; and an open with the same key succeeds unless the system fails it, and changes no file either. -/
theorem store_key_binding (files : String → DbFile) (maxLength : Nat) (acts : List StoreAct) (dir : String)
    (key : StoreKey) (fault : Option OpenFault)
    (hopened : .opened dir key fault (.ok ()) ∈ (run (Disk.step maxLength) (Disk.start files) acts).log)
    (key' : StoreKey) (fault' : Option OpenFault) :
    ∃ result, (run (Disk.step maxLength) (Disk.start files) acts).step maxLength (.open dir key' fault') =
        ⟨(run (Disk.step maxLength) (Disk.start files) acts).files,
          (run (Disk.step maxLength) (Disk.start files) acts).handles ++ Disk.opened dir key' result,
          (run (Disk.step maxLength) (Disk.start files) acts).log ++ [.opened dir key' fault' result]⟩ ∧
      (key' ≠ key → ∃ e, result = .error e ∧ (fault' = none → e = .invalidKey)) ∧
      (key' = key → fault' = none → result = .ok ()) := by
  have hsound := Disk.sound_run files maxLength acts
  obtain ⟨hfile, hwrong, hright⟩ := open_of_opens (hsound.opened dir key fault hopened) key' fault'
  refine ⟨_, ?_, hwrong, hright⟩
  rw [Disk.step_open, hfile, Disk.act, Function.update_eq_self]

/-- An open with another key is refused, and nothing changes but the log. -/
theorem store_key_binding_other_key :
    (run (Disk.step 1000) (Disk.start fun _ => .empty) putPutGet).step 1000 (.open "alice" (sampleKey 2) none) =
      ⟨(run (Disk.step 1000) (Disk.start fun _ => .empty) putPutGet).files,
        (run (Disk.step 1000) (Disk.start fun _ => .empty) putPutGet).handles,
        (run (Disk.step 1000) (Disk.start fun _ => .empty) putPutGet).log ++
          [.opened "alice" (sampleKey 2) none (.error .invalidKey)]⟩ := by
  obtain ⟨result, hstep, hwrong, -⟩ := store_key_binding (fun _ => .empty) 1000 putPutGet "alice" (sampleKey 1)
    none (List.mem_of_getElem? (i := 0) rfl) (sampleKey 2) none
  obtain ⟨e, rfl, he⟩ := hwrong (by decide)
  obtain rfl := he rfl
  rw [hstep, Disk.opened, List.append_nil]

end E2EMessaging.Storage
