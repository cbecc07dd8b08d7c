/-
  THE BROWSER'S ENCRYPTED KEY-VALUE STORE (`clients/web/src/browser_storage.ts`).

  One IndexedDB database, two object stores.  `kv` holds the values, each encrypted under a key that
  PBKDF2 derives from a password and the INSTALLATION's salt; `meta` holds the salt, drawn at the first
  `open` and kept from then on.  What a value can be read with is therefore not the password alone.

    * `stored_of_setItems`: after any calls of `setItem`, what stands under a key is the encryption of
      the value last set there;
    * `getItem_stored`: it is read back under the key it was encrypted under, and under no other.
-/
import Mathlib.Data.List.AList
import E2EMessaging.Lib.Run
import E2EMessaging.Web.Backup

namespace E2EMessaging.Web

open E2EMessaging.Lib E2EMessaging.Storage

/-! ## Primitives -/

/-- WebCrypto: PBKDF2 on password and salt, AES-GCM on key, initialisation vector and data. -/
structure WebCrypto (Key : Type) where
  pbkdf2 : Bytes → Bytes → Key
  encrypt : Key → Bytes → Bytes → Bytes
  decrypt : Key → Bytes → Bytes → Option Bytes

/-- PBKDF2 is injective in password and salt; AES-GCM decrypts what it encrypted, and fails under a
    different key. -/
structure WebCrypto.Lawful {Key : Type} (W : WebCrypto Key) : Prop where
  injective : ∀ {password salt password' salt'},
    W.pbkdf2 password salt = W.pbkdf2 password' salt' → password = password' ∧ salt = salt'
  decrypts : ∀ {key iv data}, W.decrypt key iv (W.encrypt key iv data) = some data
  otherKey : ∀ {key key' iv data}, key ≠ key' → W.decrypt key' iv (W.encrypt key iv data) = none

/-- Values and their JSON text as UTF-8 (`TextEncoder` after `JSON.stringify`, `JSON.parse` after
    `TextDecoder`). -/
structure Json (Value : Type) where
  stringify : Value → Bytes
  parse : Bytes → Option Value
  parse_stringify : ∀ v, parse (stringify v) = some v

/-! ## The database -/

/-- The object stores `kv` and `meta` of the database `browser_storage`. -/
structure Database where
  kv : AList (fun _ : JsString => Bytes)
  salt : Option Bytes
  deriving DecidableEq

/-- The database of a new installation. -/
def Database.new : Database where
  kv := ∅
  salt := none

/-- What the store throws. -/
inductive StorageError where
  /-- "invalid password: must be non-empty" -/
  | invalidPassword
  /-- "invalid key: must be a non-empty string" -/
  | invalidKey
  /-- "decrypt/parse fail" -/
  | decryptFail
  deriving Repr, DecidableEq

section

variable {Key Value : Type}

/-- `getOrCreateSalt`; `fresh` is what the generator draws if there is no salt yet. -/
def getOrCreateSalt (fresh : ByteArrayN 16) (db : Database) : Database × Bytes :=
  match db.salt with
  | some salt => (db, salt)
  | none => ({ db with salt := some fresh.val }, fresh.val)

/-- The constructor and `open`: the database, with its salt, and the derived key. -/
def openStorage (W : WebCrypto Key) (password : JsString) (fresh : ByteArrayN 16) (db : Database) :
    Except StorageError (Database × Key) :=
  if password = [] then .error .invalidPassword
  else
    let (db, salt) := getOrCreateSalt fresh db
    .ok (db, W.pbkdf2 (textEncode password) salt)

/-- The salt an open database works with: its own, or the fresh one. -/
def saltOf (fresh : ByteArrayN 16) (db : Database) : Bytes := db.salt.getD fresh.val

theorem openStorage_eq_ok {W : WebCrypto Key} {password : JsString} {fresh : ByteArrayN 16}
    {db db' : Database} {key : Key} :
    openStorage W password fresh db = .ok (db', key) ↔
      password ≠ [] ∧ db' = { db with salt := some (saltOf fresh db) } ∧
        key = W.pbkdf2 (textEncode password) (saltOf fresh db) := by
  obtain ⟨kv, salt⟩ := db
  rw [openStorage]
  by_cases hp : password = []
  · simp [hp]
  · rw [if_neg hp]
    cases salt with
    | none => simp [getOrCreateSalt, saltOf, hp, eq_comm]
    | some salt => simp [getOrCreateSalt, saltOf, hp, eq_comm]

/-- `encrypt`: the initialisation vector, then the ciphertext. -/
def encryptBlob (W : WebCrypto Key) (key : Key) (iv : ByteArrayN 12) (data : Bytes) : Bytes :=
  iv.val ++ W.encrypt key iv.val data

/-- `decrypt`. -/
def decryptBlob (W : WebCrypto Key) (key : Key) (enc : Bytes) : Except StorageError Bytes :=
  if enc.length < 12 then .error .decryptFail
  else
    match W.decrypt key (enc.take 12) (enc.drop 12) with
    | some plain => .ok plain
    | none => .error .decryptFail

/-- `setItem`, with the initialisation vector it draws. -/
def setItem (W : WebCrypto Key) (J : Json Value) (key : Key) (iv : ByteArrayN 12) (k : JsString)
    (value : Value) (db : Database) : Except StorageError Database :=
  if k = [] then .error .invalidKey
  else .ok { db with kv := db.kv.insert k (encryptBlob W key iv (J.stringify value)) }

/-- `getItem`; a key that was never set is read as `null`. -/
def getItem (W : WebCrypto Key) (J : Json Value) (key : Key) (k : JsString) (db : Database) :
    Except StorageError (Option Value) :=
  if k = [] then .error .invalidKey
  else
    match db.kv.lookup k with
    | none => .ok none
    | some blob =>
      match decryptBlob W key blob with
      | .error e => .error e
      | .ok plain =>
        match J.parse plain with
        | none => .error .decryptFail
        | some value => .ok (some value)

/-! ## Any sequence of calls -/

/-- A call of `setItem`. -/
structure SetCall (Value : Type) where
  key : JsString
  value : Value
  iv : ByteArrayN 12

/-- A call that throws leaves the database as it is. -/
def SetCall.apply (W : WebCrypto Key) (J : Json Value) (key : Key) (db : Database)
    (c : SetCall Value) : Database :=
  match setItem W J key c.iv c.key c.value db with
  | .ok db' => db'
  | .error _ => db

/-- The value a sequence of calls sets last under `k`. -/
def lastSet (calls : List (SetCall Value)) (k : JsString) : Option Value :=
  calls.foldl (fun last c => if c.key = k ∧ k ≠ [] then some c.value else last) none

variable {W : WebCrypto Key} {J : Json Value} {key : Key}

/-- What one call leaves under a key. -/
theorem SetCall.lookup_apply (c : SetCall Value) (db : Database) (k : JsString) :
    (c.apply W J key db).kv.lookup k =
      if c.key = k ∧ k ≠ [] then some (encryptBlob W key c.iv (J.stringify c.value))
      else db.kv.lookup k := by
  rw [SetCall.apply, setItem]
  by_cases hempty : c.key = []
  · rw [if_pos hempty]
    have hno : ¬ (c.key = k ∧ k ≠ []) := by
      rintro ⟨rfl, hne⟩
      exact hne hempty
    rw [if_neg hno]
  · rw [if_neg hempty]
    by_cases hk : c.key = k
    · subst hk
      rw [if_pos ⟨rfl, hempty⟩]
      exact AList.lookup_insert _
    · rw [if_neg (fun h => hk h.1)]
      exact AList.lookup_insert_ne (fun h => hk h.symm)

/-- The database holds, under every key, the encryption of the value last set there. -/
def Holds (W : WebCrypto Key) (J : Json Value) (key : Key) (last : JsString → Option Value)
    (db : Database) : Prop :=
  ∀ k, match last k with
    | none => db.kv.lookup k = none
    | some v => ∃ iv, db.kv.lookup k = some (encryptBlob W key iv (J.stringify v))

theorem lastSet_concat (calls : List (SetCall Value)) (c : SetCall Value) (k : JsString) :
    lastSet (calls ++ [c]) k = if c.key = k ∧ k ≠ [] then some c.value else lastSet calls k := by
  rw [lastSet, List.foldl_append]
  rfl

/-- Only non-empty keys are ever set. -/
theorem lastSet_ne_nil {calls : List (SetCall Value)} {k : JsString} {v : Value}
    (h : lastSet calls k = some v) : k ≠ [] := by
  induction calls using List.reverseRecOn with
  | nil => cases h
  | append_singleton calls c ih =>
    rw [lastSet_concat] at h
    split at h
    · rename_i hc
      exact hc.2
    · exact ih h

/-- One call keeps it so, for the value it sets. -/
theorem Holds.apply {calls : List (SetCall Value)} {db : Database}
    (h : Holds W J key (lastSet calls) db) (c : SetCall Value) :
    Holds W J key (lastSet (calls ++ [c])) (c.apply W J key db) := by
  intro k
  have hk := h k
  rw [lastSet_concat, SetCall.lookup_apply]
  by_cases hc : c.key = k ∧ k ≠ []
  · simp only [if_pos hc]
    exact ⟨c.iv, rfl⟩
  · simp only [if_neg hc]
    exact hk

/-- **What stands in the store** after any calls of `setItem` on a new one. -/
theorem stored_of_setItems (calls : List (SetCall Value)) {db : Database} (hdb : db.kv = ∅) :
    Holds W J key (lastSet calls) (run (SetCall.apply W J key) db calls) := by
  induction calls using List.reverseRecOn with
  | nil =>
    intro k
    show db.kv.lookup k = none
    rw [hdb, AList.lookup_empty]
  | append_singleton calls c ih =>
    rw [run_concat]
    exact ih.apply c

/-- A stored value is read back with the key it was encrypted under, and with no other. -/
theorem getItem_stored (hW : W.Lawful) {db : Database} {k : JsString} {v : Value} {iv : ByteArrayN 12}
    (hk : k ≠ []) (h : db.kv.lookup k = some (encryptBlob W key iv (J.stringify v))) (key' : Key) :
    getItem W J key' k db = .ok (some v) ↔ key = key' := by
  have hlen : ¬ (encryptBlob W key iv (J.stringify v)).length < 12 := by
    rw [encryptBlob, List.length_append, iv.property]
    omega
  have htake : (encryptBlob W key iv (J.stringify v)).take 12 = iv.val := List.take_left' iv.property
  have hdrop : (encryptBlob W key iv (J.stringify v)).drop 12 = W.encrypt key iv.val (J.stringify v) :=
    List.drop_left' iv.property
  rw [getItem, if_neg hk, h]
  dsimp only
  rw [decryptBlob, if_neg hlen, htake, hdrop]
  by_cases hkey : key = key'
  · subst hkey
    rw [hW.decrypts]
    dsimp only
    rw [J.parse_stringify]
    simp
  · rw [hW.otherKey hkey]
    simp [hkey]

end

end E2EMessaging.Web
