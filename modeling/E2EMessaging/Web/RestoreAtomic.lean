/-
  RESTORING IS ALL OR NOTHING (`restoreKeyedRecords` of `clients/web/src/BackupPanel.tsx`).

  All records are read before the database is touched; then one transaction clears the object store `kv`
  and writes the entries.  Between the two lies everything that can go wrong: a record in any place that
  does not parse, a storage that is not open, a transaction that does not begin, a request that fails, a
  commit that fails (`IdbFaults`).

  IndexedDB applies all requests of a transaction or none.  That alone does not decide what the PROMISE says:
  it settles at the first event with a handler, and there are handlers on every request and on the
  transaction.  So the model has the events, in the order the database fires them (`txEvents`), and the
  crux is that they agree: a failing request is followed by the abort of its transaction, and the only
  event that resolves is the one after the commit (`settle_txEvents`).
-/
import E2EMessaging.Web.RecordText

namespace E2EMessaging.Web

open E2EMessaging.Lib E2EMessaging.Lib.Json

/-! ## The transaction -/

/-- The object store `kv`. -/
abbrev KvStore := AList (fun _ : JsString => Bytes)

/-- A request to the object store. -/
inductive KvRequest where
  | clear
  | put (v : Bytes) (k : JsString)
  deriving Repr, DecidableEq

def KvRequest.apply : KvStore → KvRequest → KvStore
  | _, .clear => ∅
  | kv, .put v k => kv.insert k v

/-- What the environment does to a call: whether the storage is open, the transaction begins and its commit
    succeeds, and the first request that fails, if one does. -/
structure IdbFaults where
  opened : Bool
  begins : Bool
  failing : Option Nat
  commits : Bool
  deriving Repr, DecidableEq

/-- Nothing goes wrong. -/
def IdbFaults.none : IdbFaults := ⟨true, true, Option.none, true⟩

/-- Of the `n` requests of the transaction none fails, and it commits. -/
def IdbFaults.committed (F : IdbFaults) (n : Nat) : Bool :=
  match F.failing with
  | some i => !decide (i < n) && F.commits
  | .none => F.commits

/-- What the page sees of a transaction.  An error of a request is seen at the request and then, since no
    handler prevents it, at the transaction. -/
inductive TxEvent where
  | success (request : Nat)
  | requestError (request : Nat)
  | txError
  | txAbort
  | txComplete
  deriving Repr, DecidableEq

/-- The events of a transaction of `n` requests, in their order.  A request that fails aborts the
    transaction: the later ones fail, too, before the abort is announced. -/
def txEvents (F : IdbFaults) (n : Nat) : List TxEvent :=
  if F.committed n then (List.range n).map .success ++ [.txComplete]
  else
    let done := min (F.failing.getD n) n
    (List.range done).map .success ++
      ((List.range' done (n - done)).flatMap fun i => [.requestError i, .txError]) ++ [.txAbort]

/-! ## `restoreKeyedRecords` -/

/-- What the promise rejects with; where the database gives an error of its own, that stands in for the text. -/
inductive RestoreError where
  /-- "storage not opened" -/
  | notOpened
  /-- "invalid record format" -/
  | invalidRecord
  /-- What `db.transaction` throws. -/
  | noTransaction
  /-- "clear failed" -/
  | clearFailed
  /-- "write failed" -/
  | writeFailed
  /-- "transaction failed" -/
  | txFailed
  /-- "transaction aborted" -/
  | txAborted
  deriving Repr, DecidableEq

/-- The handlers: `clearReq.onerror` and `putReq.onerror`, `tx.onerror`, `tx.onabort`, `tx.oncomplete`. -/
def handler : TxEvent → Option (Except RestoreError Unit)
  | .success _ => none
  | .requestError 0 => some (.error .clearFailed)
  | .requestError _ => some (.error .writeFailed)
  | .txError => some (.error .txFailed)
  | .txAbort => some (.error .txAborted)
  | .txComplete => some (.ok ())

/-- A promise is settled by the first call of `resolve` or `reject`; without one it stays pending. -/
def settle (events : List TxEvent) : Option (Except RestoreError Unit) := events.findSome? handler

/-- The requests of a restore. -/
def restoreRequests (entries : List (JsString × Bytes)) : List KvRequest :=
  .clear :: entries.map fun e => .put e.2 e.1

/-- **`restoreKeyedRecords`**: how the promise settles, and the database afterwards. -/
def restoreRecords (N : Numeral) (F : IdbFaults) (records : List Bytes) (db : Database) :
    Option (Except RestoreError Unit) × Database :=
  if F.opened = false then (some (.error .notOpened), db)
  else
    match records.mapM (readEntry N) with
    | none => (some (.error .invalidRecord), db)
    | some entries =>
      if F.begins = false then (some (.error .noTransaction), db)
      else
        let requests := restoreRequests entries
        let kv := if F.committed requests.length then requests.foldl KvRequest.apply db.kv else db.kv
        (settle (txEvents F requests.length), { db with kv := kv })

/-! ## Events and commit agree -/

theorem settle_success (n : Nat) (events : List TxEvent) :
    settle ((List.range n).map TxEvent.success ++ events) = settle events := by
  have hnone : ((List.range n).map TxEvent.success).findSome? handler = none := by
    rw [List.findSome?_eq_none_iff]
    intro e he
    obtain ⟨i, -, rfl⟩ := List.mem_map.mp he
    rfl
  rw [settle, List.findSome?_append, hnone, Option.none_or]
  rfl

/-- **The promise resolves exactly if the transaction commits, and rejects otherwise.** -/
theorem settle_txEvents (F : IdbFaults) (n : Nat) :
    (F.committed n = true → settle (txEvents F n) = some (.ok ())) ∧
      (F.committed n = false → ∃ e, settle (txEvents F n) = some (.error e)) := by
  rw [txEvents]
  constructor
  · intro hcommit
    rw [if_pos hcommit, settle_success]
    rfl
  · intro hcommit
    rw [hcommit]
    show ∃ e, settle ((List.range _).map _ ++ _ ++ _) = _
    rw [List.append_assoc, settle_success]
    generalize min (F.failing.getD n) n = done
    cases n - done with
    | zero => exact ⟨.txAborted, rfl⟩
    | succ left =>
      -- the first request that failed is the first event with a handler
      cases done with
      | zero => exact ⟨.clearFailed, rfl⟩
      | succ i => exact ⟨.writeFailed, rfl⟩

theorem foldl_restoreRequests (entries : List (JsString × Bytes)) (kv : KvStore) :
    (restoreRequests entries).foldl KvRequest.apply kv =
      entries.foldl (fun kv e => kv.insert e.1 e.2) ∅ := by
  rw [restoreRequests, List.foldl_cons, List.foldl_map]
  rfl

/-! ## The map of the entries -/

/-- The value of the last entry with the key. -/
def lastEntry (entries : List (JsString × Bytes)) (k : JsString) : Option Bytes :=
  (entries.reverse.find? fun e => e.1 = k).map Prod.snd

/-- What a store written from entries holds: the last entry of each key. -/
theorem lookup_foldl_insert (entries : List (JsString × Bytes)) (k : JsString) :
    (entries.foldl (fun kv e => kv.insert e.1 e.2) (∅ : KvStore)).lookup k = lastEntry entries k := by
  -- from the end: the last entry decides for its own key and leaves the others alone
  induction entries using List.reverseRecOn with
  | nil => rfl
  | append_singleton entries e ih =>
    rw [List.foldl_append, List.foldl_cons, List.foldl_nil, lastEntry, List.reverse_append]
    show _ = ((e :: entries.reverse).find? fun e => e.1 = k).map Prod.snd
    by_cases hk : e.1 = k
    · subst hk
      rw [AList.lookup_insert, List.find?_cons_of_pos (by simp)]
      rfl
    · rw [AList.lookup_insert_ne (Ne.symm hk), List.find?_cons_of_neg (by simpa using hk)]
      exact ih

theorem cursorEntries_ne_nil {db : Database} (hne : db.kv ≠ ∅) : cursorEntries db ≠ [] := by
  intro hnil
  refine hne (AList.ext ?_)
  have hsorted : db.kv.entries.insertionSort (fun a b => a.1 ≤ b.1) = [] := List.map_eq_nil_iff.mp hnil
  have hperm := List.perm_insertionSort (fun a b => a.1 ≤ b.1) db.kv.entries
  rw [hsorted] at hperm
  exact hperm.symm.eq_nil

/-! ## All or nothing -/

section

variable {N : Numeral} {records : List Bytes} {entries : List (JsString × Bytes)} {db : Database}

/-- **What a call can do**: reject and leave the database alone, or resolve after all records were read and
    the entries written. -/
theorem restoreRecords_cases (N : Numeral) (F : IdbFaults) (records : List Bytes) (db : Database) :
    (∃ e, restoreRecords N F records db = (some (.error e), db)) ∨
      ∃ entries, records.mapM (readEntry N) = some entries ∧
        restoreRecords N F records db =
          (some (.ok ()), { db with kv := entries.foldl (fun kv e => kv.insert e.1 e.2) ∅ }) := by
  rw [restoreRecords]
  by_cases hopened : F.opened = false
  · exact Or.inl ⟨_, if_pos hopened⟩
  rw [if_neg hopened]
  cases hread : records.mapM (readEntry N) with
  | none => exact Or.inl ⟨_, rfl⟩
  | some entries =>
    dsimp only
    by_cases hbegins : F.begins = false
    · exact Or.inl ⟨_, if_pos hbegins⟩
    rw [if_neg hbegins]
    obtain ⟨hresolve, hreject⟩ := settle_txEvents F (restoreRequests entries).length
    cases hcommit : F.committed (restoreRequests entries).length with
    | false =>
      obtain ⟨e, he⟩ := hreject hcommit
      rw [he]
      exact Or.inl ⟨e, rfl⟩
    | true =>
      rw [hresolve hcommit, if_pos rfl, foldl_restoreRequests]
      exact Or.inr ⟨entries, rfl, rfl⟩

/-- Without faults only the records decide. -/
theorem restoreRecords_none (hread : records.mapM (readEntry N) = some entries) :
    restoreRecords N .none records db =
      (some (.ok ()), { db with kv := entries.foldl (fun kv e => kv.insert e.1 e.2) ∅ }) := by
  have hsettle := (settle_txEvents .none (restoreRequests entries).length).1 rfl
  rw [restoreRecords, hread]
  show (settle (txEvents .none _), { db with kv := (restoreRequests entries).foldl KvRequest.apply db.kv }) = _
  rw [hsettle, foldl_restoreRequests]

/-- Where nothing goes wrong this is the restore that `handleImport` was modelled with, so what is known
    of an import is known here. -/
theorem restoreKeyedRecords_eq_ok (hN : ReadsBytes N) {db' : Database} :
    restoreKeyedRecords (jsonEntries N hN) records db = .ok db' ↔
      restoreRecords N .none records db = (some (.ok ()), db') := by
  rw [restoreKeyedRecords]
  cases hread : records.mapM (jsonEntries N hN).read with
  | none =>
    rw [restoreRecords, show records.mapM (readEntry N) = none from hread]
    constructor
    · intro h
      cases h
    · intro h
      cases h
  | some entries =>
    rw [restoreRecords_none hread]
    constructor
    · intro h
      rw [← Except.ok.inj h]
    · intro h
      rw [← (Prod.mk.inj h).2]

end

/-- **Restoring is all or nothing.**  Whatever the store holds, the records are and goes wrong: the promise
    rejects and the database is as it was, or it resolves and the store is the map of the entries read, the
    last of each key, and nothing else.  What `collectKeyedRecords` made of a store restores it. -/
theorem restore_all_or_nothing (N : Numeral) (hN : ReadsBytes N) :
    (∀ F records db,
      ((∃ e, (restoreRecords N F records db).1 = some (.error e)) ∧
        (restoreRecords N F records db).2 = db) ∨
      ((restoreRecords N F records db).1 = some (.ok ()) ∧
        (restoreRecords N F records db).2.salt = db.salt ∧
        ∃ entries, records.mapM (readEntry N) = some entries ∧
          ∀ k, (restoreRecords N F records db).2.kv.lookup k = lastEntry entries k)) ∧
    ∀ db : Database, db.kv ≠ ∅ → ∃ records, collectKeyedRecords (jsonEntries N hN) db = .ok records ∧
      (restoreRecords N .none records db).1 = some (.ok ()) ∧
      (restoreRecords N .none records db).2.salt = db.salt ∧
      ∀ k, (restoreRecords N .none records db).2.kv.lookup k = db.kv.lookup k := by
  constructor
  · intro F records db
    rcases restoreRecords_cases N F records db with ⟨e, h⟩ | ⟨entries, hread, h⟩
    · rw [h]
      exact Or.inl ⟨⟨e, rfl⟩, rfl⟩
    · rw [h]
      exact Or.inr ⟨rfl, rfl, entries, hread, lookup_foldl_insert entries⟩
  · intro db hne
    have hrestore := (restoreKeyedRecords_eq_ok hN).mp
      (restoreKeyedRecords_write (E := jsonEntries N hN) (cursorEntries db) db)
    refine ⟨_, collectKeyedRecords_eq_ok.mpr ⟨rfl, cursorEntries_ne_nil hne⟩, ?_⟩
    rw [hrestore]
    exact ⟨rfl, rfl, lookup_restored db⟩

/-! ## Two records -/

/-- The number of a text of decimal digits. -/
def digitsNumeral : Numeral := fun s =>
  if s.all isDigit then UInt8.ofNat (s.foldl (fun n u => n * 10 + (u.toNat - 48)) 0) else 0

theorem digitsNumeral_readsBytes : ReadsBytes digitsNumeral := by
  have hall : ∀ n < 256, digitsNumeral (units (toString n)) = UInt8.ofNat n := by decide +kernel
  intro b
  rw [decimal, hall b.toNat b.toNat_lt, UInt8.ofNat_toNat]

/-- A key that is an unpaired surrogate, and one that is empty. -/
def sampleStore : Database where
  kv := (AList.insert [0xD800] [1, 255] ∅).insert [] [0]
  salt := none

theorem restore_sampleStore : ∃ records, collectKeyedRecords
      (jsonEntries digitsNumeral digitsNumeral_readsBytes) sampleStore = .ok records ∧
    (restoreRecords digitsNumeral .none records sampleStore).1 = some (.ok ()) ∧
    ∀ k, (restoreRecords digitsNumeral .none records sampleStore).2.kv.lookup k =
      sampleStore.kv.lookup k := by
  have hne : sampleStore.kv ≠ ∅ := by
    intro h
    have hlookup : sampleStore.kv.lookup [] = some [0] := AList.lookup_insert _
    rw [h] at hlookup
    cases hlookup
  obtain ⟨records, hcollect, hok, -, hlookup⟩ :=
    (restore_all_or_nothing digitsNumeral digitsNumeral_readsBytes).2 sampleStore hne
  exact ⟨records, hcollect, hok, hlookup⟩

end E2EMessaging.Web
