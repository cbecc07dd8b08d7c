/-
  THE WEB CLIENT'S ENCRYPTED RECORDS (`clients/web/src/storage.ts`, `storage_key.ts`).

  A `StorageGate` writes JSON values to IndexedDB: the text, its UTF-8, AES-GCM under the gate's raw key
  behind a fresh initialisation vector, and base64 of it all.  Every component that wants a record makes a
  gate of its own over the same database, so gates come and go and their calls overlap: `open` has two
  awaits, `put` encrypts before it writes.

  * `gate_reads_last_put`: whatever the gates do, in whatever order, a `get` resolves to what was last written
    there if that was under the same key, and is rejected otherwise: never anything else.  (A `put` of
    `undefined` resolves, and writes what no `get` can read.)
  * `storage_key_stable`: the key that `getStorageKey` returns is 32 bytes, and the same ever after once it
    could be persisted.
-/
import E2EMessaging.Lib.Register
import E2EMessaging.Web.Pow
import E2EMessaging.Web.RecordText

namespace E2EMessaging.Web.StorageGate

open E2EMessaging.Lib E2EMessaging.Lib.Json E2EMessaging.Storage E2EMessaging.Relay

/-! ## Values and their texts -/

/-- What is thrown: a `StorageError`, or something else. -/
inductive Thrown where
  | storage (message : String)
  | other
  deriving Repr, DecidableEq

/-- `new StorageError('decryption failed')`. -/
def decryptionFailed : Thrown := .storage "decryption failed"

/-- What may be put: what has a JSON text, what has none (`undefined`), and what makes `JSON.stringify`
    throw. -/
inductive PutValue where
  | json (v : JsonValue) (spelled : Spelled v)
  | undefined
  | unserializable

/-- The text that is encrypted: of `undefined`, the encoder makes the empty text. -/
def PutValue.text : PutValue → Except Thrown JsString
  | .json v _ => .ok (stringify v)
  | .undefined => .ok []
  | .unserializable => .error (.storage "value is not serializable")

/-- What a reader should be given. -/
def PutValue.read : PutValue → Except Thrown JsonValue
  | .json v _ => .ok v
  | _ => .error decryptionFailed

/-- The first unit of a JSON text is an ASCII character. -/
theorem stringify_head (v : JsonValue) (hv : Spelled v) : ∃ u us, stringify v = u :: us ∧ u.toNat < 128 := by
  cases v with
  | null => exact ⟨_, _, rfl, by decide⟩
  | bool b =>
    cases b with
    | true => exact ⟨_, _, rfl, by decide⟩
    | false => exact ⟨_, _, rfl, by decide⟩
  | number spelling =>
    obtain ⟨phase, hphase, -⟩ := hv
    cases spelling with
    | nil => cases hphase
    | cons u us =>
      refine ⟨u, us, rfl, ?_⟩
      obtain ⟨phase', hfirst, -⟩ := Option.bind_eq_some_iff.mp hphase
      rw [NumberPhase.first] at hfirst
      split_ifs at hfirst with hminus hzero hdigit
      · rw [hminus]
        decide
      · rw [hzero]
        decide
      · have hle : u ≤ unit '9' := (of_decide_eq_true hdigit).2
        have hnine : (unit '9').toNat = 57 := rfl
        have := UInt16.le_iff_toNat_le.mp hle
        omega
  | string s => exact ⟨_, _, rfl, by decide⟩
  | array items =>
    cases items with
    | nil => exact ⟨_, _, rfl, by decide⟩
    | cons v vs => exact ⟨_, _, rfl, by decide⟩
  | object fields =>
    cases fields with
    | nil => exact ⟨_, _, rfl, by decide⟩
    | cons f fs => exact ⟨_, _, rfl, by decide⟩

/-- So there is no byte order mark for the decoder to drop. -/
theorem dropBom_of_head {u : UInt16} {us : JsString} (hu : u.toNat < 128) :
    dropBom (utf16Chars (u :: us)) = utf16Chars (u :: us) := by
  have hvalid : u.toNat.isValidChar := Or.inl (by omega)
  have hnotBom : Char.ofNat u.toNat ≠ Char.ofNat 0xFEFF := by
    intro heq
    have hnat := congrArg Char.toNat heq
    rw [toNat_ofNat_of_isValidChar hvalid, toNat_ofNat_of_isValidChar (Or.inr (by decide))] at hnat
    omega
  have hsurrogate : ¬ (0xD800 ≤ u ∧ u ≤ 0xDBFF) ∧ ¬ (0xDC00 ≤ u ∧ u ≤ 0xDFFF) ∧ ¬ (0xD800 ≤ u ∧ u ≤ 0xDFFF) := by
    have hhigh : (0xD800 : UInt16).toNat = 0xD800 ∧ (0xDC00 : UInt16).toNat = 0xDC00 := ⟨rfl, rfl⟩
    simp only [UInt16.le_iff_toNat_le]
    omega
  obtain ⟨hhigh, hlow, hany⟩ := hsurrogate
  cases us with
  | nil =>
    rw [utf16Chars, if_neg hany]
    exact if_neg hnotBom
  | cons v us =>
    rw [utf16Chars, if_neg hhigh, if_neg hlow]
    exact if_neg hnotBom

/-- **What was written is parsed again.** -/
theorem parse_textDecode_stringify {v : JsonValue} (hv : Spelled v) :
    parse (textDecode (textEncode (stringify v))) = some v := by
  have hformed : wellFormed (stringify v) = true := by
    rw [← List.append_nil (stringify v), wellFormed_stringify v hv]
    rfl
  obtain ⟨u, us, hhead, hu⟩ := stringify_head v hv
  have hbom : dropBom (utf16Chars (stringify v)) = utf16Chars (stringify v) := by
    rw [hhead]
    exact dropBom_of_head hu
  rw [textDecode_textEncode hformed hbom, parse_stringify hv]

/-- The empty text is no JSON. -/
theorem parse_textDecode_nil : parse (textDecode (textEncode [])) = none := by
  rfl

/-! ## Encryption -/

/-- AES-GCM in WebCrypto: raw keys are imported; encryption takes key, initialisation vector and data. -/
structure AesGcm (Key : Type) where
  importKey : Bytes → Option Key
  encrypt : Key → Bytes → Bytes → Bytes
  decrypt : Key → Bytes → Bytes → Option Bytes

/-- Keys of 16, 24 and 32 bytes are imported, different ones as different keys; what was encrypted decrypts
    under its own key and fails under another. -/
structure AesGcm.Lawful {Key : Type} (G : AesGcm Key) : Prop where
  imports : ∀ raw, (G.importKey raw).isSome = true ↔ raw.length = 16 ∨ raw.length = 24 ∨ raw.length = 32
  injective : ∀ {raw raw' key}, G.importKey raw = some key → G.importKey raw' = some key → raw = raw'
  decrypts : ∀ {key iv data}, G.decrypt key iv (G.encrypt key iv data) = some data
  otherKey : ∀ {key key' iv data}, key ≠ key' → G.decrypt key' iv (G.encrypt key iv data) = none

variable {Key : Type} (G : AesGcm Key)

/-- `arrayBufferToBase64`. -/
def arrayBufferToBase64 (buf : Bytes) : Except String String := RelayTransport.btoa (buf.map UInt8.toUInt16)

/-- `base64ToArrayBuffer`. -/
def base64ToArrayBuffer (b64 : String) : Except String Bytes :=
  (RelayTransport.atob b64).map fun binary => binary.map UInt16.toUInt8

/-- `encrypt`; without a key, `crypto.subtle.encrypt` rejects. -/
def encrypt (cryptoKey : Option Key) (iv : ByteArrayN 12) (data : Bytes) : Except Thrown String :=
  match cryptoKey with
  | none => .error .other
  | some key =>
    match arrayBufferToBase64 (iv.val ++ G.encrypt key iv.val data) with
    | .ok text => .ok text
    | .error _ => .error .other

/-- `decrypt`. -/
def decrypt (cryptoKey : Option Key) (ciphertextB64 : String) : Except Thrown Bytes :=
  match base64ToArrayBuffer ciphertextB64 with
  | .error _ => .error decryptionFailed
  | .ok bytes =>
    if bytes.length < 12 then .error decryptionFailed
    else
      match cryptoKey.bind fun key => G.decrypt key (bytes.take 12) (bytes.drop 12) with
      | some plain => .ok plain
      | none => .error decryptionFailed

/-- What `get` makes of a record. -/
def readRecord (cryptoKey : Option Key) (ciphertext : String) : Except Thrown JsonValue :=
  match decrypt G cryptoKey ciphertext with
  | .error e => .error e
  | .ok dec =>
    match parse (textDecode dec) with
    | some v => .ok v
    | none => .error decryptionFailed

/-- What `get` makes of what it finds. -/
def readFound (cryptoKey : Option Key) : Option String → Except Thrown JsonValue
  | none => .ok .null
  | some ciphertext => readRecord G cryptoKey ciphertext

/-- The ciphertext is a record of the value, under the key. -/
def Enciphers (key : Key) (value : PutValue) (ciphertext : String) : Prop :=
  ∃ (iv : ByteArrayN 12) (text : JsString), value.text = .ok text ∧
    ciphertext = b64Encode (iv.val ++ G.encrypt key iv.val (textEncode text))

variable {G}

/-- What `encrypt` returns. -/
theorem encrypt_eq_ok {cryptoKey : Option Key} {iv : ByteArrayN 12} {data : Bytes} {ciphertext : String} :
    encrypt G cryptoKey iv data = .ok ciphertext ↔
      ∃ key, cryptoKey = some key ∧ ciphertext = b64Encode (iv.val ++ G.encrypt key iv.val data) := by
  cases cryptoKey with
  | none => exact ⟨nofun, fun ⟨_, h, _⟩ => nomatch h⟩
  | some key =>
    have hwrite : arrayBufferToBase64 (iv.val ++ G.encrypt key iv.val data) =
        .ok (b64Encode (iv.val ++ G.encrypt key iv.val data)) := RelayTransport.bytesToBase64_eq _
    rw [encrypt, hwrite]
    constructor
    · intro h
      exact ⟨key, rfl, (Except.ok.inj h).symm⟩
    · rintro ⟨key', hkey, rfl⟩
      rw [Option.some.inj hkey]

namespace Enciphers

variable {key key' : Key} {value : PutValue} {ciphertext : String}

/-- A record is decrypted by what decrypts behind its initialisation vector. -/
theorem decrypt (h : Enciphers G key value ciphertext) (key' : Key) :
    ∃ iv text, value.text = .ok text ∧ StorageGate.decrypt G (some key') ciphertext =
      match G.decrypt key' iv (G.encrypt key iv (textEncode text)) with
      | some plain => .ok plain
      | none => .error decryptionFailed := by
  obtain ⟨iv, text, htext, rfl⟩ := h
  have hbytes : base64ToArrayBuffer (b64Encode (iv.val ++ G.encrypt key iv.val (textEncode text))) =
      .ok (iv.val ++ G.encrypt key iv.val (textEncode text)) := RelayTransport.base64ToBytes_b64Encode _
  have hlong : ¬ (iv.val ++ G.encrypt key iv.val (textEncode text)).length < 12 := by
    rw [List.length_append, iv.property]
    omega
  refine ⟨iv.val, text, htext, ?_⟩
  rw [StorageGate.decrypt, hbytes]
  dsimp only
  rw [if_neg hlong, List.take_left' iv.property, List.drop_left' iv.property]
  rfl

/-- **A record is read under its own key as it was written.** -/
theorem read_own (hG : G.Lawful) (h : Enciphers G key value ciphertext) :
    readRecord G (some key) ciphertext = value.read := by
  obtain ⟨iv, text, htext, hdecrypt⟩ := h.decrypt key
  rw [hG.decrypts] at hdecrypt
  rw [readRecord, hdecrypt]
  dsimp only
  cases value with
  | json v hv =>
    obtain rfl := Except.ok.inj htext
    rw [parse_textDecode_stringify hv]
    rfl
  | undefined =>
    obtain rfl := Except.ok.inj htext
    rw [parse_textDecode_nil]
    rfl
  | unserializable => cases htext

/-- **And not at all under another.** -/
theorem read_other (hG : G.Lawful) (h : Enciphers G key value ciphertext) (hne : key ≠ key') :
    readRecord G (some key') ciphertext = .error decryptionFailed := by
  obtain ⟨iv, text, -, hdecrypt⟩ := h.decrypt key'
  rw [hG.otherKey hne] at hdecrypt
  rw [readRecord, hdecrypt]

end Enciphers

/-! ## Gates over one database -/

/-- `opts.keyBytes`: a view of a buffer. -/
structure KeyBytes where
  buffer : Bytes
  offset : Nat
  length : Nat
  fits : offset + length ≤ buffer.length

/-- The bytes of the view. -/
def KeyBytes.view (k : KeyBytes) : Bytes := (k.buffer.drop k.offset).take k.length

/-- `StorageGate`; `importing` while `crypto.subtle.importKey` is awaited. -/
structure Gate (Key : Type) where
  indexedDB : Bool
  keyBytes : KeyBytes
  db : Bool
  importing : Bool
  cryptoKey : Option Key

/-- The bytes of the key the gate works with. -/
def Gate.key (g : Gate Key) : Option Bytes := g.cryptoKey.map fun _ => g.keyBytes.view

/-- A record encrypted and not yet written. -/
structure PendingPut where
  gate : Nat
  store : String
  id : JsString
  value : PutValue
  key : Option Bytes
  ciphertext : String

/-- What the promises settled with, in the order of the requests to the database; `key` is the key of the
    gate. -/
inductive GateEntry where
  | opened (gate : Nat) (result : Except Thrown Unit)
  | putRejected (gate : Nat) (store : String) (id : JsString) (value : PutValue) (thrown : Thrown)
  | stored (gate : Nat) (store : String) (id : JsString) (value : PutValue) (key : Option Bytes)
  | got (gate : Nat) (store : String) (id : JsString) (key : Option Bytes) (fault : Bool)
      (result : Except Thrown JsonValue)

/-- The database `messaging`, the gates, what is about to be written, what has settled. -/
structure Browser (Key : Type) where
  records : String → JsString → Option String
  gates : List (Gate Key)
  puts : List PendingPut
  log : List GateEntry

/-- Nothing is stored yet. -/
def Browser.new : Browser Key := ⟨fun _ _ => none, [], [], []⟩

/-- `ALLOWED_STORES`. -/
def allowedStores : List String := ["identity", "session", "prekey", "messages"]

/-- `validateStore`. -/
def validateStore (store : String) : Except Thrown Unit :=
  if store ∈ allowedStores then .ok () else .error (.storage ("invalid store name: " ++ store))

/-- `validateId`. -/
def validateId (id : JsString) : Except Thrown Unit :=
  if id = [] then .error (.storage "invalid id: must be a non-empty string") else .ok ()

/-- What a gate checks first. -/
def Gate.validate (g : Gate Key) (store : String) (id : JsString) : Except Thrown Unit := do
  if g.db then pure () else .error (.storage "not opened")
  validateStore store
  validateId id

/-- `put`, as far as the transaction. -/
def Gate.put (G : AesGcm Key) (g : Gate Key) (store : String) (id : JsString) (value : PutValue)
    (iv : ByteArrayN 12) : Except Thrown String := do
  g.validate store id
  encrypt G g.cryptoKey iv (textEncode (← value.text))

/-- `get`, from the record; `fault` is a failed request. -/
def Gate.get (G : AesGcm Key) (g : Gate Key) (store : String) (id : JsString) (fault : Bool)
    (record : Option String) : Except Thrown JsonValue := do
  g.validate store id
  if fault then .error (.storage "get failed") else readFound G g.cryptoKey record

/-- What `open` throws before it asks for the database. -/
def Gate.openError (g : Gate Key) : Option Thrown :=
  if g.indexedDB then
    if g.keyBytes.view.length ≠ 32 then
      some (.storage ("invalid key length: expected 32 bytes, got " ++ toString g.keyBytes.view.length))
    else none
  else some (.storage "storage unavailable")

/-- What can happen. -/
inductive GateAct where
  | construct (indexedDB : Bool) (keyBytes : KeyBytes)
  /-- `open`; the database is opened, or that fails. -/
  | open (gate : Nat) (fault : Bool)
  | imported (gate : Nat)
  /-- `put`; the generator draws `iv`. -/
  | put (gate : Nat) (store : String) (id : JsString) (value : PutValue) (iv : ByteArrayN 12)
  /-- A record is written, or that fails. -/
  | write (k : Nat) (fault : Bool)
  | get (gate : Nat) (store : String) (id : JsString) (fault : Bool)

namespace Browser

/-- A promise settles. -/
def settle (s : Browser Key) (entry : GateEntry) : Browser Key := { s with log := s.log ++ [entry] }

/-- A gate changes. -/
def setGate (s : Browser Key) (i : Nat) (g : Gate Key) : Browser Key := { s with gates := s.gates.set i g }

/-- A record is written. -/
def store (s : Browser Key) (w : PendingPut) : Browser Key :=
  { s with records := Function.update s.records w.store (Function.update (s.records w.store) w.id (some w.ciphertext)) }

/-- One step. -/
def step (G : AesGcm Key) (s : Browser Key) : GateAct → Browser Key
  | .construct indexedDB keyBytes => { s with gates := s.gates ++ [⟨indexedDB, keyBytes, false, false, none⟩] }
  | .open i fault =>
    match s.gates[i]? with
    | none => s
    | some g =>
      match g.openError with
      | some thrown => s.settle (.opened i (.error thrown))
      | none =>
        if fault then s.settle (.opened i (.error (.storage "failed to open database")))
        else s.setGate i { g with db := true, importing := true }
  | .imported i =>
    match s.gates[i]? with
    | none => s
    | some g =>
      if g.importing then
        match G.importKey g.keyBytes.buffer with
        | some key =>
          (s.setGate i { g with importing := false, cryptoKey := some key }).settle (.opened i (.ok ()))
        | none => (s.setGate i { g with importing := false }).settle
            (.opened i (.error (.storage "failed to import key")))
      else s
  | .put i store id value iv =>
    match s.gates[i]? with
    | none => s
    | some g =>
      match g.put G store id value iv with
      | .error thrown => s.settle (.putRejected i store id value thrown)
      | .ok ciphertext => { s with puts := s.puts ++ [⟨i, store, id, value, g.key, ciphertext⟩] }
  | .write k fault =>
    match s.puts[k]? with
    | none => s
    | some w =>
      if fault then
        { s with puts := s.puts.eraseIdx k }.settle
          (.putRejected w.gate w.store w.id w.value (.storage "put failed"))
      else { s.store w with puts := s.puts.eraseIdx k }.settle (.stored w.gate w.store w.id w.value w.key)
  | .get i store id fault =>
    match s.gates[i]? with
    | none => s
    | some g => s.settle (.got i store id g.key fault (g.get G store id fault (s.records store id)))

end Browser

/-! ## What every run keeps -/

/-- What an entry has written to a record: the value, and the key it is under. -/
def GateEntry.writes (store : String) (id : JsString) : GateEntry → Option (PutValue × Option Bytes)
  | .stored _ store' id' value key => if store' = store ∧ id' = id then some (value, key) else none
  | _ => none

/-- What a `get` under a key should resolve to, of what was last written. -/
def readLast (key : Bytes) : Option (PutValue × Option Bytes) → Except Thrown JsonValue
  | none => .ok .null
  | some (value, key') => if key' = some key then value.read else .error decryptionFailed

section Kept

variable (G : AesGcm Key)

/-- A gate with a key has been opened, and the key is that of its 32 bytes. -/
structure Gate.Sound (g : Gate Key) : Prop where
  importing : g.importing = true → g.db = true ∧ g.keyBytes.view.length = 32
  cryptoKey : ∀ key, g.cryptoKey = some key → g.db = true ∧ G.importKey g.keyBytes.view = some key

/-- The ciphertext is a record of the value, under a key of these bytes. -/
def IsRecord (value : PutValue) (key : Option Bytes) (ciphertext : String) : Prop :=
  ∃ raw k, key = some raw ∧ G.importKey raw = some k ∧ Enciphers G k value ciphertext

/-- The record is of what was last written. -/
def Records : Option (PutValue × Option Bytes) → Option String → Prop
  | none, record => record = none
  | some (value, key), record => ∃ ciphertext, record = some ciphertext ∧ IsRecord G value key ciphertext

/-- A `get` with a key resolves to what was last written. -/
def Reads (log : List GateEntry) (entry : GateEntry) : Prop :=
  ∀ i store id key result, entry = .got i store id (some key) false result → store ∈ allowedStores →
    id ≠ [] → result = readLast key (lastOf (GateEntry.writes store id) log)

/-- What every run keeps. -/
structure Browser.Sound (s : Browser Key) : Prop where
  gates : ∀ g ∈ s.gates, g.Sound G
  puts : ∀ w ∈ s.puts, IsRecord G w.value w.key w.ciphertext
  records : ∀ store id, Records G (lastOf (GateEntry.writes store id) s.log) (s.records store id)
  reads : Throughout Reads s.log

end Kept

/-- A buffer that can be imported and holds a view of 32 bytes is that view. -/
theorem KeyBytes.view_eq_buffer (hG : G.Lawful) {k : KeyBytes} (hview : k.view.length = 32) {key : Key}
    (himport : G.importKey k.buffer = some key) : k.view = k.buffer := by
  have hbuffer := (hG.imports k.buffer).mp (by rw [himport]; rfl)
  have hlen : k.view.length = min k.length (k.buffer.length - k.offset) := by
    rw [KeyBytes.view, List.length_take, List.length_drop]
  have hzero : k.offset = 0 := by omega
  rw [KeyBytes.view, hzero, List.drop_zero]
  exact List.take_of_length_le (by omega)

/-- **A `get` under a key resolves to what was last written there**, if that was under the same key. -/
theorem Records.read (hG : G.Lawful) {last : Option (PutValue × Option Bytes)} {record : Option String}
    (h : Records G last record) {raw : Bytes} {key : Key} (hkey : G.importKey raw = some key) :
    readFound G (some key) record = readLast raw last := by
  match last, h with
  | none, h =>
    obtain rfl : record = none := h
    rfl
  | some (value, key'), ⟨ciphertext, hrecord, raw', k, hkey', himport, henciphers⟩ =>
    subst hrecord
    show readRecord G (some key) ciphertext = if key' = some raw then value.read else .error decryptionFailed
    rw [hkey']
    by_cases hraw : raw' = raw
    · subst hraw
      obtain rfl := Option.some.inj (himport.symm.trans hkey)
      rw [if_pos rfl]
      exact henciphers.read_own hG
    · rw [if_neg fun heq => hraw (Option.some.inj heq)]
      refine henciphers.read_other hG ?_
      rintro rfl
      exact hraw (hG.injective himport hkey)

/-- What `get` comes to, once everything is checked. -/
theorem Gate.get_eq {g : Gate Key} {store : String} {id : JsString} (hdb : g.db = true)
    (hstore : store ∈ allowedStores) (hid : id ≠ []) (record : Option String) :
    g.get G store id false record = readFound G g.cryptoKey record := by
  have hvalid : g.validate store id = .ok () := by
    rw [Gate.validate, hdb, validateStore, if_pos hstore, validateId, if_neg hid]
    rfl
  unfold Gate.get
  rw [hvalid]
  rfl

/-- What `put` has encrypted. -/
theorem Gate.put_eq_ok {g : Gate Key} (hg : g.Sound G) {store : String} {id : JsString} {value : PutValue}
    {iv : ByteArrayN 12} {ciphertext : String} (h : g.put G store id value iv = .ok ciphertext) :
    IsRecord G value g.key ciphertext := by
  rw [Gate.put] at h
  cases hvalid : g.validate store id with
  | error e =>
    rw [hvalid] at h
    cases h
  | ok u =>
    rw [hvalid] at h
    cases htext : value.text with
    | error e =>
      rw [htext] at h
      cases h
    | ok text =>
      rw [htext] at h
      obtain ⟨key, hkey, rfl⟩ := encrypt_eq_ok.mp h
      refine ⟨g.keyBytes.view, key, ?_, (hg.cryptoKey key hkey).2, iv, text, htext, rfl⟩
      rw [Gate.key, hkey]
      rfl

namespace Browser

variable {s : Browser Key}

theorem sound_new : (new : Browser Key).Sound G where
  gates := fun _ h => absurd h List.not_mem_nil
  puts := fun _ h => absurd h List.not_mem_nil
  records := fun _ _ => rfl
  reads := .nil

/-- A promise settles that writes nothing. -/
theorem Sound.settle (h : s.Sound G) {entry : GateEntry} (hwrites : ∀ store id, entry.writes store id = none)
    (hreads : Reads s.log entry) : (s.settle entry).Sound G where
  gates := h.gates
  puts := h.puts
  records := fun store id => by
    show Records G (lastOf _ (s.log ++ [entry])) _
    rw [lastOf_concat_none (hwrites store id)]
    exact h.records store id
  reads := h.reads.concat hreads

theorem Sound.setGate (h : s.Sound G) (i : Nat) {g : Gate Key} (hg : g.Sound G) : (s.setGate i g).Sound G where
  gates := fun g' hg' => by
    rcases List.mem_or_eq_of_mem_set hg' with hold | rfl
    · exact h.gates g' hold
    · exact hg
  puts := h.puts
  records := h.records
  reads := h.reads

theorem Sound.setPuts (h : s.Sound G) {puts : List PendingPut}
    (hputs : ∀ w ∈ puts, IsRecord G w.value w.key w.ciphertext) : ({ s with puts := puts }).Sound G :=
  ⟨h.gates, hputs, h.records, h.reads⟩

/-- A record is written. -/
theorem Sound.write (h : s.Sound G) {w : PendingPut} (hw : IsRecord G w.value w.key w.ciphertext) :
    ((s.store w).settle (.stored w.gate w.store w.id w.value w.key)).Sound G where
  gates := h.gates
  puts := h.puts
  records := fun store id => by
    show Records G (lastOf _ (s.log ++ [_])) (Function.update s.records w.store _ store id)
    by_cases hplace : w.store = store ∧ w.id = id
    · have hwrites : (GateEntry.stored w.gate w.store w.id w.value w.key).writes store id =
          some (w.value, w.key) := if_pos hplace
      obtain ⟨rfl, rfl⟩ := hplace
      rw [lastOf_concat_some hwrites, Function.update_self, Function.update_self]
      exact ⟨w.ciphertext, rfl, hw⟩
    · have hwrites : (GateEntry.stored w.gate w.store w.id w.value w.key).writes store id = none := if_neg hplace
      have hrecord : Function.update s.records w.store (Function.update (s.records w.store) w.id (some w.ciphertext))
          store id = s.records store id := by
        by_cases hstore : store = w.store
        · subst hstore
          rw [Function.update_self, Function.update_of_ne fun hid => hplace ⟨rfl, hid.symm⟩]
        · rw [Function.update_of_ne hstore]
      rw [lastOf_concat_none hwrites, hrecord]
      exact h.records store id
  reads := h.reads.concat fun _ _ _ _ _ heq => nomatch heq

/-- **Every step keeps it.** -/
theorem Sound.step (hG : G.Lawful) (h : s.Sound G) (a : GateAct) : (s.step G a).Sound G := by
  cases a with
  | construct indexedDB keyBytes =>
    refine ⟨fun g hg => ?_, h.puts, h.records, h.reads⟩
    rcases List.mem_append.mp hg with hold | hnew
    · exact h.gates g hold
    · obtain rfl := List.mem_singleton.mp hnew
      exact ⟨nofun, nofun⟩
  | «open» i fault =>
    rw [Browser.step]
    cases hi : s.gates[i]? with
    | none => exact h
    | some g =>
      have hg := h.gates g (List.mem_of_getElem? hi)
      dsimp only
      cases hopen : g.openError with
      | some thrown => exact h.settle (fun _ _ => rfl) nofun
      | none =>
        dsimp only
        split
        · exact h.settle (fun _ _ => rfl) nofun
        · refine h.setGate i ⟨fun _ => ⟨rfl, ?_⟩, fun key hkey => ⟨rfl, (hg.cryptoKey key hkey).2⟩⟩
          rw [Gate.openError] at hopen
          split_ifs at hopen with hdb hlen
          exact not_not.mp hlen
  | imported i =>
    rw [Browser.step]
    cases hi : s.gates[i]? with
    | none => exact h
    | some g =>
      have hg := h.gates g (List.mem_of_getElem? hi)
      dsimp only
      split
      · rename_i himporting
        obtain ⟨hdb, hview⟩ := hg.importing himporting
        cases himport : G.importKey g.keyBytes.buffer with
        | none =>
          have hfailed : ({ g with importing := false }).Sound G := ⟨nofun, hg.cryptoKey⟩
          exact (h.setGate i hfailed).settle (fun _ _ => rfl) nofun
        | some key =>
          have hview' : G.importKey g.keyBytes.view = some key := by
            rw [KeyBytes.view_eq_buffer hG hview himport]
            exact himport
          have hready : ({ g with importing := false, cryptoKey := some key }).Sound G :=
            ⟨nofun, fun key' hkey' => ⟨hdb, Option.some.inj hkey' ▸ hview'⟩⟩
          exact (h.setGate i hready).settle (fun _ _ => rfl) nofun
      · exact h
  | put i store id value iv =>
    rw [Browser.step]
    cases hi : s.gates[i]? with
    | none => exact h
    | some g =>
      have hg := h.gates g (List.mem_of_getElem? hi)
      dsimp only
      cases hput : g.put G store id value iv with
      | error thrown => exact h.settle (fun _ _ => rfl) nofun
      | ok ciphertext =>
        refine h.setPuts fun w hw => ?_
        rcases List.mem_append.mp hw with hold | hnew
        · exact h.puts w hold
        · obtain rfl := List.mem_singleton.mp hnew
          exact Gate.put_eq_ok hg hput
  | write k fault =>
    rw [Browser.step]
    cases hk : s.puts[k]? with
    | none => exact h
    | some w =>
      have hw := h.puts w (List.mem_of_getElem? hk)
      have herase : ∀ w' ∈ s.puts.eraseIdx k, IsRecord G w'.value w'.key w'.ciphertext :=
        fun w' hw' => h.puts w' (List.mem_of_mem_eraseIdx hw')
      dsimp only
      split
      · exact (h.setPuts herase).settle (fun _ _ => rfl) nofun
      · exact (h.setPuts herase).write hw
  | get i store id fault =>
    rw [Browser.step]
    cases hi : s.gates[i]? with
    | none => exact h
    | some g =>
      have hg := h.gates g (List.mem_of_getElem? hi)
      refine h.settle (fun _ _ => rfl) ?_
      intro i' store' id' key result heq hstore hid
      obtain ⟨-, rfl, rfl, hkey, rfl, rfl⟩ := GateEntry.got.inj heq
      obtain ⟨cryptoKey, hcryptoKey, rfl⟩ := Option.map_eq_some_iff.mp hkey
      obtain ⟨hdb, himport⟩ := hg.cryptoKey cryptoKey hcryptoKey
      rw [Gate.get_eq hdb hstore hid, hcryptoKey]
      exact (h.records store id).read hG himport

end Browser

/-- **What is read is what was last put, under the same key, or nothing.**  In every run of any number of
    gates over one database: a `get` by a gate that has a key, of an allowed store and a non-empty id, whose
    request does not fail, resolves to `null` if nothing has been put there, to the value last put there if
    that was put under the same 32 bytes and has a JSON text, and is rejected with "decryption failed"
    otherwise. -/
theorem gate_reads_last_put (G : AesGcm Key) (hG : G.Lawful) (acts : List GateAct) (n i : Nat) (store : String)
    (id : JsString) (key : Bytes) (result : Except Thrown JsonValue)
    (hgot : (run (Browser.step G) .new acts).log[n]? = some (.got i store id (some key) false result))
    (hstore : store ∈ allowedStores) (hid : id ≠ []) :
    result = readLast key (lastOf (GateEntry.writes store id) ((run (Browser.step G) .new acts).log.take n)) := by
  have hsound : (run (Browser.step G) .new acts).Sound G :=
    run_inv (I := Browser.Sound G) (fun _ a h => h.step hG a) Browser.sound_new acts
  exact hsound.reads n _ hgot i store id key result rfl hstore hid

/-! ### Two gates in a run -/

/-- A stand-in for AES-GCM: the key stands in front of the data. -/
def markGcm : AesGcm Bytes where
  importKey raw := if raw.length = 16 ∨ raw.length = 24 ∨ raw.length = 32 then some raw else none
  encrypt key _ data := withLength varint key ++ data
  decrypt key _ ciphertext :=
    if ciphertext.take (withLength varint key).length = withLength varint key then
      some (ciphertext.drop (withLength varint key).length)
    else none

theorem markGcm_lawful : markGcm.Lawful where
  imports := by
    intro raw
    show (if _ then some raw else none).isSome = true ↔ _
    split
    · rename_i h
      exact ⟨fun _ => h, fun _ => rfl⟩
    · rename_i h
      exact ⟨nofun, fun h' => absurd h' h⟩
  injective := by
    intro raw raw' key h h'
    have hself : ∀ raw, markGcm.importKey raw = some key → raw = key := by
      intro raw h
      obtain ⟨-, h⟩ := Option.ite_none_right_eq_some.mp h
      exact Option.some.inj h
    rw [hself raw h, hself raw' h']
  decrypts := by
    intro key iv data
    simp only [markGcm, List.take_left, List.drop_left, if_true]
  otherKey := by
    intro key key' iv data hne
    simp only [markGcm]
    split
    · rename_i htake
      have hcat : withLength varint key ++ data =
          withLength varint key' ++ (withLength varint key ++ data).drop (withLength varint key').length := by
        calc withLength varint key ++ data =
            (withLength varint key ++ data).take (withLength varint key').length ++
              (withLength varint key ++ data).drop (withLength varint key').length :=
              (List.take_append_drop _ _).symm
          _ = _ := by rw [htake]
      exact absurd (selfDelimiting_withLength selfDelimiting_varint _ _ _ _ hcat).1 hne
    · rfl

/-- 32 bytes in a buffer of their own. -/
def plainKey (b : UInt8) : KeyBytes := ⟨List.replicate 32 b, 0, 32, by rw [List.length_replicate]⟩

/-- A gate writes a value, and one with another key reads it. -/
def putThenGet : List GateAct :=
  [.construct true (plainKey 1), .open 0 false, .imported 0, .construct true (plainKey 2), .open 1 false,
    .imported 1, .put 0 "identity" (units "id") (.json (.bool true) trivial) ⟨List.replicate 12 0, rfl⟩,
    .write 0 false, .get 1 "identity" (units "id") false]

theorem gate_reads_last_put_other_key :
    Except.error decryptionFailed = readLast (List.replicate 32 2)
      (lastOf (GateEntry.writes "identity" (units "id")) ((run (Browser.step markGcm) .new putThenGet).log.take 3)) :=
  gate_reads_last_put markGcm markGcm_lawful putThenGet 3 1 "identity" (units "id") (List.replicate 32 2) _
    rfl (by decide) (by decide)

/-! ## The key -/

/-- `base64Encode`. -/
def base64Encode (bytes : Bytes) : Except String String := RelayTransport.btoa (bytes.map UInt8.toUInt16)

/-- `base64Decode`. -/
def base64Decode (b64 : String) : Except String Bytes :=
  (RelayTransport.atob b64).map fun binary => binary.map UInt16.toUInt8

/-- The key in the item, if it can be reused. -/
def reusable (stored : Option String) : Option Bytes := do
  let text ← stored
  if text = "" then none
  else
    match base64Decode text with
    | .ok key => if key.length = 32 then some key else none
    -- caught
    | .error _ => none

/-- A call of `getStorageKey` that has found nothing to reuse, and has not come to `setItem` yet. -/
structure KeyCall where
  available : Bool
  fresh : ByteArrayN 32

/-- A call that has returned. -/
structure KeyReturned where
  available : Bool
  fresh : ByteArrayN 32
  key : Bytes

/-- The item `messaging-storage-key` of the profile, the calls under way in its tabs, the calls returned. -/
structure Profile where
  item : Option String
  calls : List KeyCall
  log : List KeyReturned

/-- `getStorageKey` in a tab: up to `getItem`, and on.  Where `localStorage` is not available, both throw;
    `setItem` throws also where the quota is exceeded. -/
inductive KeyAct where
  | read (available : Bool) (fresh : ByteArrayN 32)
  | write (k : Nat) (quota : Bool)

/-- One step. -/
def Profile.step (p : Profile) : KeyAct → Profile
  | .read available fresh =>
    match if available then reusable p.item else none with
    | some key => { p with log := p.log ++ [⟨available, fresh, key⟩] }
    | none => { p with calls := p.calls ++ [⟨available, fresh⟩] }
  | .write k quota =>
    match p.calls[k]? with
    | none => p
    | some c =>
      { item := if c.available && quota then (base64Encode c.fresh.val).toOption else p.item
        calls := p.calls.eraseIdx k
        log := p.log ++ [⟨c.available, c.fresh, c.fresh.val⟩] }

/-- What is persisted is reused. -/
theorem reusable_base64Encode (key : ByteArrayN 32) : reusable (base64Encode key.val).toOption = some key.val := by
  have hwrite : base64Encode key.val = .ok (b64Encode key.val) := RelayTransport.bytesToBase64_eq _
  have hread : base64Decode (b64Encode key.val) = .ok key.val := RelayTransport.base64ToBytes_b64Encode _
  have hne : b64Encode key.val ≠ "" := by
    intro hempty
    have hnil := hread
    rw [hempty] at hnil
    have hkey : key.val = [] := (Except.ok.inj hnil).symm
    have := key.property
    rw [hkey] at this
    cases this
  rw [hwrite]
  show (if b64Encode key.val = "" then none else _) = _
  rw [if_neg hne, hread]
  exact if_pos key.property

/-- A key that is reused has 32 bytes. -/
theorem length_of_reusable {stored : Option String} {key : Bytes} (h : reusable stored = some key) :
    key.length = 32 := by
  obtain ⟨text, -, h⟩ := Option.bind_eq_some_iff.mp h
  split at h
  · cases h
  · split at h
    · split at h
      · rename_i hlen
        exact Option.some.inj h ▸ hlen
      · cases h
    · cases h

/-- Since `p` the item has been `key`, for every call that can see it. -/
structure Profile.Keeps (p p' : Profile) (key : Bytes) : Prop where
  item : reusable p'.item = some key
  calls : ∀ c ∈ p'.calls, c.available = false
  log : ∃ xs, p'.log = p.log ++ xs ∧
    ∀ x ∈ xs, x.key.length = 32 ∧ (x.available = true → x.key = key) ∧ (x.available = false → x.key = x.fresh.val)

theorem Profile.Keeps.step {p p' : Profile} {key : Bytes} (h : p.Keeps p' key) (a : KeyAct) :
    p.Keeps (p'.step a) key := by
  obtain ⟨xs, hxs, hlog⟩ := h.log
  have hreturn : ∀ {x : KeyReturned}, x.key.length = 32 → (x.available = true → x.key = key) →
      (x.available = false → x.key = x.fresh.val) → ∃ ys, p'.log ++ [x] = p.log ++ ys ∧
        ∀ y ∈ ys, y.key.length = 32 ∧ (y.available = true → y.key = key) ∧
          (y.available = false → y.key = y.fresh.val) := by
    intro x hlen hsame hfresh
    refine ⟨xs ++ [x], by rw [hxs, List.append_assoc], fun y hy => ?_⟩
    rcases List.mem_append.mp hy with hold | hnew
    · exact hlog y hold
    · obtain rfl := List.mem_singleton.mp hnew
      exact ⟨hlen, hsame, hfresh⟩
  cases a with
  | read available fresh =>
    cases available with
    | true =>
      have hstep : p'.step (.read true fresh) = { p' with log := p'.log ++ [⟨true, fresh, key⟩] } := by
        rw [Profile.step, if_pos rfl, h.item]
      rw [hstep]
      exact ⟨h.item, h.calls, hreturn (length_of_reusable h.item) (fun _ => rfl) nofun⟩
    | false =>
      refine ⟨h.item, fun c hc => ?_, h.log⟩
      rcases List.mem_append.mp hc with hold | hnew
      · exact h.calls c hold
      · obtain rfl := List.mem_singleton.mp hnew
        rfl
  | write k quota =>
    rw [Profile.step]
    cases hk : p'.calls[k]? with
    | none => exact h
    | some c =>
      have hc := h.calls c (List.mem_of_getElem? hk)
      refine ⟨?_, fun c' hc' => h.calls c' (List.mem_of_mem_eraseIdx hc'), hreturn c.fresh.property ?_ fun _ => rfl⟩
      · dsimp only
        rw [hc]
        exact h.item
      · intro havailable
        rw [hc] at havailable
        cases havailable

/-- **A key that has been persisted stays.**  In every run of `getStorageKey` in any number of tabs, from any
    item: let one call be under way that can see the item, and let its `setItem` succeed.  From then on every
    call that can see the item returns its key, every other call returns a fresh one, and all of them have 32
    bytes. -/
theorem storage_key_stable (item : Option String) (acts later : List KeyAct) (fresh : ByteArrayN 32)
    (halone : (run Profile.step ⟨item, [], []⟩ acts).calls = [⟨true, fresh⟩]) :
    (run Profile.step ⟨item, [], []⟩ (acts ++ [.write 0 true])).Keeps
      (run Profile.step ⟨item, [], []⟩ (acts ++ [.write 0 true] ++ later)) fresh.val := by
  rw [run_append _ _ _ later]
  refine run_inv (I := fun p => Profile.Keeps _ p fresh.val) (fun _ a h => h.step a) ?_ later
  have hwrite : run Profile.step ⟨item, [], []⟩ (acts ++ [.write 0 true]) =
      { item := (base64Encode fresh.val).toOption
        calls := []
        log := (run Profile.step ⟨item, [], []⟩ acts).log ++ [⟨true, fresh, fresh.val⟩] } := by
    rw [run_concat, Profile.step, halone]
    rfl
  rw [hwrite]
  exact ⟨reusable_base64Encode fresh, nofun, [], (List.append_nil _).symm, nofun⟩

/-- The first call of a new profile, and one in another tab. -/
theorem storage_key_stable_two_tabs :
    (run Profile.step ⟨none, [], []⟩ ([.read true ⟨List.replicate 32 7, rfl⟩] ++ [.write 0 true])).Keeps
      (run Profile.step ⟨none, [], []⟩ ([.read true ⟨List.replicate 32 7, rfl⟩] ++ [.write 0 true] ++
        [.read true ⟨List.replicate 32 9, rfl⟩])) (List.replicate 32 7) :=
  storage_key_stable none [.read true ⟨List.replicate 32 7, rfl⟩] [.read true ⟨List.replicate 32 9, rfl⟩]
    ⟨List.replicate 32 7, rfl⟩ rfl

end E2EMessaging.Web.StorageGate
