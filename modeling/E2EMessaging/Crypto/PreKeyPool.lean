/-
  THE ONE-TIME PREKEY POOL (`OneTimePreKeyPool`, `PreKeyPool` of `core/crypto/src/prekey.rs`).

  A pool hands out its lowest id and, on request, mints fresh keys until it holds a target number.
  A refill REBUILDS the inner pool, so what keeps ids from being issued twice is not the inner
  pool's record of consumed ids but one invariant over the whole history: `next_id` is one more than
  the number of keys ever minted, and everything handed out lies below everything available
  (`PoolRun.Inv`).

  Ids are `u32`.  An overflowing addition panics or wraps with the build's overflow checks
  (`checked`), and `as u32` TRUNCATES: a refill that is short of `2^32` keys or more mints too few
  and reports success.  `pool_never_reissues` has both halves, for every run that mints fewer than
  `2^32 - 1` keys.
-/
import Mathlib.Data.Finset.Insert
import Mathlib.Data.List.Sort
import E2EMessaging.Lib.Bytes
import E2EMessaging.Lib.Run
import E2EMessaging.Crypto.PreKey

namespace E2EMessaging.Crypto

open E2EMessaging.Lib

/-! ## Machine integers -/

/-- `x + y` in `u32`. -/
def addU32 {ε : Type} (checked : Bool) (x y : UInt32) : Outcome ε UInt32 :=
  if x.toNat + y.toNat < 2 ^ 32 then .ok (x + y)
  else if checked then .panic
  else .ok (x + y)

/-- `u32::saturating_add`. -/
def saturatingAdd (x y : UInt32) : UInt32 :=
  if x.toNat + y.toNat < 2 ^ 32 then x + y else UInt32.ofNat (2 ^ 32 - 1)

theorem toNat_add_of_lt {x y : UInt32} (h : x.toNat + y.toNat < 2 ^ 32) :
    (x + y).toNat = x.toNat + y.toNat := by
  rw [UInt32.toNat_add, Nat.mod_eq_of_lt h]

/-! ## The inner pool -/

/-- `PreKeyError`. -/
inductive PreKeyError where
  | invalidSignature
  | malformedKey
  | oneTimePreKeyNotFound
  | oneTimePreKeyAlreadyConsumed
  deriving Repr, DecidableEq

/-- Key pairs as the generator draws them, public half first. -/
abbrev KeySupply := Nat → Bytes × Bytes

/-- `generate_one_time_pre_keys`: the keys from an offset on. -/
def generateFrom (checked : Bool) (keys : KeySupply) (startId : UInt32) :
    Nat → Nat → Outcome PreKeyError (List PreKeyRecord)
  | _, 0 => .ok []
  | offset, left + 1 => do
    let id ← addU32 checked startId (UInt32.ofNat offset)
    let rest ← generateFrom checked keys startId (offset + 1) left
    .ok (⟨id, (keys offset).1, (keys offset).2⟩ :: rest)

/-- `generate_one_time_pre_keys`. -/
def generateOneTimePreKeys (checked : Bool) (keys : KeySupply) (startId count : UInt32) :
    Outcome PreKeyError (List PreKeyRecord) :=
  generateFrom checked keys startId 0 count.toNat

/-- `OneTimePreKeyPool`. -/
structure OneTimePreKeyPool where
  available : Std.TreeMap UInt32 PreKeyRecord
  consumed : Finset UInt32

/-- `OneTimePreKeyPool::new`: each record under its own id. -/
def OneTimePreKeyPool.new (records : List PreKeyRecord) : OneTimePreKeyPool :=
  ⟨.ofList (records.map fun r => (r.id, r)), ∅⟩

/-- `OneTimePreKeyPool::remaining`. -/
def OneTimePreKeyPool.remaining (p : OneTimePreKeyPool) : Nat := p.available.size

/-- `OneTimePreKeyPool::take`. -/
def OneTimePreKeyPool.take (p : OneTimePreKeyPool) (id : UInt32) :
    Except PreKeyError (OneTimePreKeyPool × PreKeyRecord) :=
  match p.available[id]? with
  | some record => .ok (⟨p.available.erase id, insert id p.consumed⟩, record)
  | none =>
    if id ∈ p.consumed then .error .oneTimePreKeyAlreadyConsumed
    else .error .oneTimePreKeyNotFound

/-! ## The replenishable pool -/

/-- `PreKeyPool`. -/
structure PreKeyPool where
  inner : OneTimePreKeyPool
  capacity : Nat
  lowWatermark : Nat
  nextId : UInt32
  issued : Finset UInt32

/-- `PreKeyPool::with_low_watermark`. -/
def PreKeyPool.withLowWatermark (checked : Bool) (keys : KeySupply) (lowWatermark : Nat) :
    Outcome PreKeyError PreKeyPool := do
  let count := max lowWatermark 1
  -- `count as u32`, here and in the next line: a count of `2^32` or more is cut off
  let records ← generateOneTimePreKeys checked keys 1 (UInt32.ofNat count)
  let nextId ← addU32 checked (UInt32.ofNat count) 1
  .ok ⟨.new records, count, count, nextId, ∅⟩

/-- `PreKeyPool::remaining`. -/
def PreKeyPool.remaining (p : PreKeyPool) : Nat := p.inner.remaining

/-- The first of the ids, sorted. -/
def lowestId (ids : List UInt32) : Option UInt32 :=
  (ids.insertionSort (· ≤ ·)).head?

/-- `PreKeyPool::take_one_time`; its `expect` panics if the inner pool refuses. -/
def PreKeyPool.takeOneTime (p : PreKeyPool) :
    Outcome PreKeyError (PreKeyPool × Option PreKeyRecord) :=
  match lowestId p.inner.available.keys with
  | none => .ok (p, none)
  | some id =>
    match p.inner.take id with
    -- the `expect`
    | .error _ => .panic
    | .ok (inner, record) => .ok ({ p with inner, issued := insert id p.issued }, some record)

/-- The loop of `replenish_to_target` over the new records. -/
def reserve (checked : Bool) : List PreKeyRecord → Finset UInt32 → UInt32 →
    Outcome PreKeyError (Finset UInt32 × UInt32)
  | [], issued, nextId => .ok (issued, nextId)
  | r :: rs, issued, nextId => do
    let above ← addU32 checked r.id 1
    reserve checked rs (insert r.id issued) (max (saturatingAdd nextId 1) above)

/-- `PreKeyPool::replenish_to_target`; `needed as u32` keeps the low 32 bits. -/
def PreKeyPool.replenishToTarget (checked : Bool) (keys : KeySupply) (p : PreKeyPool)
    (target : Nat) : Outcome PreKeyError PreKeyPool :=
  let needed := target - p.inner.remaining
  if needed = 0 then .ok p
  else do
    let newRecords ← generateOneTimePreKeys checked keys p.nextId (UInt32.ofNat needed)
    let (issued, nextId) ← reserve checked newRecords p.issued p.nextId
    -- the inner pool is built anew, and forgets what was consumed; `issued` does not
    let allRecords := p.inner.available.toList.map Prod.snd ++ newRecords
    .ok { p with inner := .new allRecords, issued, nextId }

/-! ## What each operation does -/

theorem addU32_of_lt {ε : Type} (checked : Bool) {x y : UInt32}
    (h : x.toNat + y.toNat < 2 ^ 32) : (addU32 checked x y : Outcome ε UInt32) = .ok (x + y) :=
  if_pos h

/-- The ids, as numbers. -/
def idsOf (records : List PreKeyRecord) : List Nat := records.map fun r => r.id.toNat

/-- Keys are minted with consecutive ids, as long as these fit. -/
theorem generateFrom_ok (checked : Bool) (keys : KeySupply) (startId : UInt32) (offset left : Nat)
    (h : startId.toNat + offset + left ≤ 2 ^ 32) :
    ∃ rs, generateFrom checked keys startId offset left = .ok rs ∧
      idsOf rs = List.range' (startId.toNat + offset) left := by
  induction left generalizing offset with
  | zero => exact ⟨[], rfl, rfl⟩
  | succ left ih =>
    obtain ⟨rs, hrs, hids⟩ := ih (offset + 1) (by omega)
    have hoff : (UInt32.ofNat offset).toNat = offset := UInt32.toNat_ofNat_of_lt' (by
      show offset < 2 ^ 32
      omega)
    have hlt : startId.toNat + (UInt32.ofNat offset).toNat < 2 ^ 32 := by omega
    refine ⟨⟨startId + UInt32.ofNat offset, (keys offset).1, (keys offset).2⟩ :: rs, ?_, ?_⟩
    · rw [generateFrom, addU32_of_lt checked hlt, Outcome.ok_bind, hrs, Outcome.ok_bind]
    · have hid : (startId + UInt32.ofNat offset).toNat = startId.toNat + offset := by
        rw [toNat_add_of_lt hlt, hoff]
      show (startId + UInt32.ofNat offset).toNat :: idsOf rs = _
      rw [hid, hids, List.range'_succ]
      rfl

/-- The loop over the new records: their ids are reserved, and `next_id` ends above them. -/
theorem reserve_ok (checked : Bool) (rs : List PreKeyRecord) (issued : Finset UInt32)
    (nextId : UInt32) (hids : idsOf rs = List.range' nextId.toNat rs.length)
    (hfit : nextId.toNat + rs.length < 2 ^ 32) :
    ∃ issued' nextId', reserve checked rs issued nextId = .ok (issued', nextId') ∧
      issued ⊆ issued' ∧ nextId'.toNat = nextId.toNat + rs.length := by
  induction rs generalizing issued nextId with
  | nil => exact ⟨issued, nextId, rfl, Finset.Subset.refl _, rfl⟩
  | cons r rs ih =>
    rw [List.length_cons] at hfit
    rw [List.length_cons, List.range'_succ] at hids
    obtain ⟨hid, hrest⟩ : r.id.toNat = nextId.toNat ∧ idsOf rs =
        List.range' (nextId.toNat + 1) rs.length := by
      simpa [idsOf] using hids
    have hrid : r.id = nextId := UInt32.toNat_inj.mp hid
    have hlt : nextId.toNat + (1 : UInt32).toNat < 2 ^ 32 := by
      show nextId.toNat + 1 < 2 ^ 32
      omega
    have hsucc : (nextId + 1).toNat = nextId.toNat + 1 := toNat_add_of_lt hlt
    obtain ⟨issued', nextId', hres, hsub, hnext⟩ :=
      ih (insert r.id issued) (nextId + 1) (by rw [hsucc]; exact hrest) (by omega)
    refine ⟨issued', nextId', ?_, ?_, ?_⟩
    · -- the record minted has `next_id` itself, so both sides of the maximum agree
      have hmax : max (saturatingAdd nextId 1) (nextId + 1) = nextId + 1 := by
        rw [saturatingAdd, if_pos hlt]
        exact ite_self _
      rw [reserve, hrid, addU32_of_lt checked hlt, Outcome.ok_bind, hmax]
      rw [hrid] at hres
      exact hres
    · exact fun x hx => hsub (Finset.mem_insert_of_mem hx)
    · rw [hnext, hsucc, List.length_cons]
      omega

/-- Consecutive ids: how many there are, and that they are distinct. -/
theorem length_of_idsOf {rs : List PreKeyRecord} {a n : Nat} (h : idsOf rs = List.range' a n) :
    rs.length = n := by
  have hlen := congrArg List.length h
  rw [idsOf, List.length_map, List.length_range'] at hlen
  exact hlen

theorem nodup_of_idsOf {rs : List PreKeyRecord} {a n : Nat} (h : idsOf rs = List.range' a n) :
    (rs.map PreKeyRecord.id).Nodup := by
  have hnums : ((rs.map PreKeyRecord.id).map UInt32.toNat).Nodup := by
    rw [List.map_map]
    show (idsOf rs).Nodup
    rw [h]
    exact List.nodup_range'
  exact hnums.of_map _

theorem mem_idsOf {rs : List PreKeyRecord} {a n : Nat} (h : idsOf rs = List.range' a n)
    {r : PreKeyRecord} (hr : r ∈ rs) : a ≤ r.id.toNat ∧ r.id.toNat < a + n := by
  have hmem : r.id.toNat ∈ idsOf rs := List.mem_map.mpr ⟨r, hr, rfl⟩
  rw [h, List.mem_range'_1] at hmem
  exact hmem

/-- The lowest of the ids. -/
theorem lowestId_eq_some {ids : List UInt32} {id : UInt32} (h : lowestId ids = some id) :
    id ∈ ids ∧ ∀ x ∈ ids, id ≤ x := by
  have hperm := List.perm_insertionSort (α := UInt32) (· ≤ ·) ids
  have : Std.Total (α := UInt32) (· ≤ ·) := ⟨UInt32.le_total⟩
  have : IsTrans UInt32 (· ≤ ·) := ⟨fun _ _ _ => UInt32.le_trans⟩
  have hsorted := List.pairwise_insertionSort (α := UInt32) (· ≤ ·) ids
  rw [lowestId] at h
  -- of the sorted list only these two facts are needed
  generalize ids.insertionSort (· ≤ ·) = sorted at h hperm hsorted
  cases sorted with
  | nil => cases h
  | cons y ys =>
    obtain rfl : y = id := Option.some.inj h
    refine ⟨hperm.subset List.mem_cons_self, ?_⟩
    intro x hx
    rcases List.mem_cons.mp (hperm.symm.subset hx) with rfl | hmem
    · exact UInt32.le_refl _
    · exact List.rel_of_pairwise_cons hsorted hmem

theorem lowestId_eq_none {ids : List UInt32} (h : lowestId ids = none) : ids = [] := by
  rw [lowestId, List.head?_eq_none_iff] at h
  have hperm := List.perm_insertionSort (α := UInt32) (· ≤ ·) ids
  rw [h] at hperm
  exact hperm.symm.eq_nil

/-- Each record is stored under its own id. -/
def OneTimePreKeyPool.Keyed (p : OneTimePreKeyPool) : Prop :=
  ∀ (id : UInt32) (r : PreKeyRecord), p.available[id]? = some r → r.id = id

/-- A pool built from records with distinct ids holds exactly these. -/
theorem new_spec {rs : List PreKeyRecord} (hnodup : (rs.map PreKeyRecord.id).Nodup) :
    (OneTimePreKeyPool.new rs).remaining = rs.length ∧
      ∀ (id : UInt32) (r : PreKeyRecord),
        (OneTimePreKeyPool.new rs).available[id]? = some r ↔ r ∈ rs ∧ r.id = id := by
  have hdistinct : (rs.map fun r : PreKeyRecord => (r.id, r)).Pairwise
      fun a b => ¬ compare a.1 b.1 = Ordering.eq := by
    rw [List.pairwise_map]
    refine (List.pairwise_map.mp hnodup).imp ?_
    intro a b hne heq
    exact hne (Std.LawfulEqOrd.eq_of_compare heq)
  constructor
  · show (Std.TreeMap.ofList _ _).size = _
    rw [Std.TreeMap.size_ofList hdistinct, List.length_map]
  · have hget : ∀ r ∈ rs,
        (Std.TreeMap.ofList (rs.map fun r : PreKeyRecord => (r.id, r)) compare)[r.id]? = some r := by
      intro r hr
      exact Std.TreeMap.getElem?_ofList_of_mem Std.ReflOrd.compare_self hdistinct
        (List.mem_map_of_mem hr)
    intro id r
    show (Std.TreeMap.ofList _ _)[id]? = some r ↔ _
    constructor
    · intro h
      by_cases hmem : ∃ r' ∈ rs, r'.id = id
      · obtain ⟨r', hr', rfl⟩ := hmem
        rw [hget r' hr'] at h
        obtain rfl := Option.some.inj h
        exact ⟨hr', rfl⟩
      · have hcontains : ((rs.map fun r : PreKeyRecord => (r.id, r)).map Prod.fst).contains id =
            false := by
          simpa [eq_comm] using hmem
        rw [Std.TreeMap.getElem?_ofList_of_contains_eq_false hcontains] at h
        cases h
    · rintro ⟨hr, rfl⟩
      exact hget r hr

/-- The keys `replenish_to_target` mints. -/
def PreKeyPool.newRecords (checked : Bool) (keys : KeySupply) (p : PreKeyPool) (target : Nat) :
    Outcome PreKeyError (List PreKeyRecord) :=
  if target - p.remaining = 0 then .ok []
  else generateOneTimePreKeys checked keys p.nextId (UInt32.ofNat (target - p.remaining))

/-- The records of a pool, in a list. -/
theorem mem_values {p : OneTimePreKeyPool} (hkeyed : p.Keyed) {r : PreKeyRecord} :
    r ∈ p.available.toList.map Prod.snd ↔ p.available[r.id]? = some r := by
  rw [List.mem_map]
  constructor
  · rintro ⟨⟨id, r'⟩, hmem, rfl⟩
    have hget := Std.TreeMap.mem_toList_iff_getElem?_eq_some.mp hmem
    rw [hkeyed id r' hget]
    exact hget
  · intro hget
    exact ⟨(r.id, r), Std.TreeMap.mem_toList_iff_getElem?_eq_some.mpr hget, rfl⟩

theorem values_ids {p : OneTimePreKeyPool} (hkeyed : p.Keyed) :
    (p.available.toList.map Prod.snd).map PreKeyRecord.id = p.available.keys := by
  rw [List.map_map, ← Std.TreeMap.map_fst_toList_eq_keys]
  refine List.map_congr_left ?_
  rintro ⟨id, r⟩ hmem
  exact hkeyed id r (Std.TreeMap.mem_toList_iff_getElem?_eq_some.mp hmem)

/-- **What a refill does**, as long as ids fit: it mints `needed mod 2^32` keys with the next ids and
    adds them to the pool. -/
theorem replenishToTarget_spec (checked : Bool) (keys : KeySupply) (p : PreKeyPool) (target : Nat)
    (hkeyed : p.inner.Keyed) (hbelow : ∀ id ∈ p.inner.available, id.toNat < p.nextId.toNat)
    (hfit : p.nextId.toNat + (target - p.remaining) % 2 ^ 32 < 2 ^ 32) :
    ∃ p' rs, p.replenishToTarget checked keys target = .ok p' ∧
      p.newRecords checked keys target = .ok rs ∧
      idsOf rs = List.range' p.nextId.toNat ((target - p.remaining) % 2 ^ 32) ∧
      p'.nextId.toNat = p.nextId.toNat + rs.length ∧ p.issued ⊆ p'.issued ∧
      p'.remaining = p.remaining + rs.length ∧
      ∀ (id : UInt32) (r : PreKeyRecord), p'.inner.available[id]? = some r ↔
        p.inner.available[id]? = some r ∨ (r ∈ rs ∧ r.id = id) := by
  by_cases hzero : target - p.remaining = 0
  · refine ⟨p, [], if_pos hzero, if_pos hzero, ?_, rfl, Finset.Subset.refl _, rfl, by simp⟩
    rw [hzero]
    rfl
  · have hcount : (UInt32.ofNat (target - p.remaining)).toNat = (target - p.remaining) % 2 ^ 32 :=
      UInt32.toNat_ofNat'
    obtain ⟨rs, hrs, hids⟩ := generateFrom_ok checked keys p.nextId 0
      (UInt32.ofNat (target - p.remaining)).toNat (by rw [hcount]; omega)
    have hlen : rs.length = (target - p.remaining) % 2 ^ 32 := by
      rw [length_of_idsOf hids, hcount]
    obtain ⟨issued', nextId', hres, hsub, hnext⟩ := reserve_ok checked rs p.issued p.nextId
      (by rw [hids, hlen, hcount]; rfl) (by rw [hlen]; exact hfit)
    -- the ids of the rebuilt pool are distinct: the old ones are, and the new ones lie above them
    have hnodup : ((p.inner.available.toList.map Prod.snd ++ rs).map PreKeyRecord.id).Nodup := by
      rw [List.map_append, values_ids hkeyed, List.nodup_append]
      refine ⟨Std.TreeMap.nodup_keys, nodup_of_idsOf hids, ?_⟩
      intro a ha b hb heq
      obtain ⟨r, hr, rfl⟩ := List.mem_map.mp hb
      have hlow := hbelow a (Std.TreeMap.mem_keys.mp ha)
      have hhigh := (mem_idsOf hids hr).1
      rw [heq] at hlow
      omega
    obtain ⟨hsize, hget⟩ := new_spec hnodup
    refine ⟨⟨.new (p.inner.available.toList.map Prod.snd ++ rs), p.capacity, p.lowWatermark,
      nextId', issued'⟩, rs, ?_, ?_, ?_, hnext, hsub, ?_, ?_⟩
    · rw [PreKeyPool.replenishToTarget]
      rw [PreKeyPool.remaining] at hzero hrs
      rw [if_neg hzero, generateOneTimePreKeys, hrs, Outcome.ok_bind, hres, Outcome.ok_bind]
    · rw [PreKeyPool.newRecords, if_neg hzero, generateOneTimePreKeys, hrs]
    · rw [hids, hcount]
      rfl
    · show (OneTimePreKeyPool.new _).remaining = _
      rw [hsize, List.length_append, List.length_map, Std.TreeMap.length_toList]
      rfl
    · intro id r
      rw [hget, List.mem_append, mem_values hkeyed]
      constructor
      · rintro ⟨hold | hnew, rfl⟩
        · exact .inl hold
        · exact .inr ⟨hnew, rfl⟩
      · rintro (hold | ⟨hnew, rfl⟩)
        · have hid := hkeyed id r hold
          subst hid
          exact ⟨.inl hold, rfl⟩
        · exact ⟨.inr hnew, rfl⟩

/-- **What taking a key does**: nothing if there is none, else the lowest id leaves the pool. -/
theorem takeOneTime_spec (p : PreKeyPool) (hkeyed : p.inner.Keyed) :
    (p.inner.available.keys = [] ∧ p.takeOneTime = .ok (p, none)) ∨
    ∃ id r, p.inner.available[id]? = some r ∧ r.id = id ∧
      (∀ id' ∈ p.inner.available, id ≤ id') ∧
      p.takeOneTime = .ok ({ p with
        inner := ⟨p.inner.available.erase id, insert id p.inner.consumed⟩
        issued := insert id p.issued }, some r) := by
  rw [PreKeyPool.takeOneTime]
  cases hlow : lowestId p.inner.available.keys with
  | none => exact .inl ⟨lowestId_eq_none hlow, rfl⟩
  | some id =>
    obtain ⟨hmem, hmin⟩ := lowestId_eq_some hlow
    have hin : id ∈ p.inner.available := Std.TreeMap.mem_keys.mp hmem
    obtain ⟨r, hr⟩ := Option.isSome_iff_exists.mp (Std.TreeMap.mem_iff_isSome_getElem?.mp hin)
    refine .inr ⟨id, r, hr, hkeyed id r hr, ?_, ?_⟩
    · intro id' hid'
      exact hmin id' (Std.TreeMap.mem_keys.mpr hid')
    · simp only [OneTimePreKeyPool.take, hr]

/-! ## Runs -/

/-- A pool with its history: the ids handed out and the ids minted, in order. -/
structure PoolRun where
  pool : PreKeyPool
  taken : List UInt32
  minted : List UInt32

/-- A call. -/
inductive PoolAction where
  | take
  | replenish (target : Nat) (keys : KeySupply)

/-- A new pool. -/
def PoolRun.start (checked : Bool) (keys : KeySupply) (lowWatermark : Nat) :
    Outcome PreKeyError PoolRun := do
  let pool ← PreKeyPool.withLowWatermark checked keys lowWatermark
  let records ← generateOneTimePreKeys checked keys 1 (UInt32.ofNat (max lowWatermark 1))
  .ok ⟨pool, [], records.map PreKeyRecord.id⟩

/-- One call. -/
def PoolRun.call (checked : Bool) (s : PoolRun) : PoolAction → Outcome PreKeyError PoolRun
  | .take => do
    let (pool, record) ← s.pool.takeOneTime
    .ok { s with pool, taken := s.taken ++ (record.map PreKeyRecord.id).toList }
  | .replenish target keys => do
    let pool ← s.pool.replenishToTarget checked keys target
    let records ← s.pool.newRecords checked keys target
    .ok { s with pool, minted := s.minted ++ records.map PreKeyRecord.id }

/-- One call of a run; a panic ends it. -/
def PoolRun.step (checked : Bool) (s : Outcome PreKeyError PoolRun) (a : PoolAction) :
    Outcome PreKeyError PoolRun := s.bind fun s => s.call checked a

/-- After this call, too, fewer than `2^32 - 1` keys have been minted. -/
def FewMinted : Outcome PreKeyError PoolRun → PoolAction → Prop
  | .ok s, .replenish target _ =>
    s.minted.length + (target - s.pool.remaining) % 2 ^ 32 < 2 ^ 32 - 1
  | _, _ => True

/-- What makes ids unique: `next_id` counts the keys minted, and ids handed out lie below those
    available. -/
structure PoolRun.Inv (s : PoolRun) : Prop where
  next : s.pool.nextId.toNat = s.minted.length + 1
  few : s.minted.length < 2 ^ 32 - 1
  minted : ∀ id ∈ s.minted, id.toNat ≤ s.minted.length
  keyed : s.pool.inner.Keyed
  available : ∀ id ∈ s.pool.inner.available, id ∈ s.minted
  takenMinted : ∀ id ∈ s.taken, id ∈ s.minted
  below : ∀ id ∈ s.taken, ∀ id' ∈ s.pool.inner.available, id < id'
  increasing : s.taken.Pairwise (· < ·)
  issued : ∀ id ∈ s.taken, id ∈ s.pool.issued

theorem mem_available_iff {p : OneTimePreKeyPool} {id : UInt32} :
    id ∈ p.available ↔ ∃ r, p.available[id]? = some r := by
  rw [Std.TreeMap.mem_iff_isSome_getElem?]
  exact Option.isSome_iff_exists

/-- A new pool has the invariant, and holds the keys minted for it. -/
theorem start_inv (checked : Bool) (keys : KeySupply) (w : Nat)
    (hfew : max w 1 % 2 ^ 32 < 2 ^ 32 - 1) :
    ∃ s, PoolRun.start checked keys w = .ok s ∧ s.Inv ∧
      s.minted.length = max w 1 % 2 ^ 32 ∧ s.pool.remaining = max w 1 % 2 ^ 32 := by
  have hcount : (UInt32.ofNat (max w 1)).toNat = max w 1 % 2 ^ 32 := UInt32.toNat_ofNat'
  obtain ⟨rs, hrs, hids⟩ := generateFrom_ok checked keys 1 0 (UInt32.ofNat (max w 1)).toNat
    (by
      rw [hcount]
      show 1 + 0 + max w 1 % 2 ^ 32 ≤ 2 ^ 32
      omega)
  have hids' : idsOf rs = List.range' 1 (max w 1 % 2 ^ 32) := by
    rw [hids, hcount]
    rfl
  have hlen : rs.length = max w 1 % 2 ^ 32 := length_of_idsOf hids'
  have hlt : (UInt32.ofNat (max w 1)).toNat + (1 : UInt32).toNat < 2 ^ 32 := by
    rw [hcount]
    show max w 1 % 2 ^ 32 + 1 < 2 ^ 32
    omega
  have hmem : ∀ r ∈ rs, r.id.toNat ≤ rs.length := by
    intro r hr
    have h := (mem_idsOf hids' hr).2
    omega
  obtain ⟨hsize, hget⟩ := new_spec (nodup_of_idsOf hids')
  refine ⟨⟨⟨.new rs, max w 1, max w 1, UInt32.ofNat (max w 1) + 1, ∅⟩, [],
    rs.map PreKeyRecord.id⟩, ?_, ?_, ?_, ?_⟩
  · rw [PoolRun.start, PreKeyPool.withLowWatermark, generateOneTimePreKeys, hrs]
    simp only [Outcome.ok_bind, addU32_of_lt checked hlt]
  · constructor
    · show (UInt32.ofNat (max w 1) + 1).toNat = (rs.map PreKeyRecord.id).length + 1
      rw [toNat_add_of_lt hlt, hcount, List.length_map, hlen]
      rfl
    · show (rs.map PreKeyRecord.id).length < _
      rw [List.length_map, hlen]
      exact hfew
    · intro id hid
      obtain ⟨r, hr, rfl⟩ := List.mem_map.mp hid
      show r.id.toNat ≤ (rs.map PreKeyRecord.id).length
      rw [List.length_map]
      exact hmem r hr
    · intro id r h
      exact ((hget id r).mp h).2
    · intro id hid
      obtain ⟨r, hr⟩ := mem_available_iff.mp hid
      obtain ⟨hmem, rfl⟩ := (hget id r).mp hr
      exact List.mem_map_of_mem hmem
    · intro id hid
      exact absurd hid List.not_mem_nil
    · intro id hid
      exact absurd hid List.not_mem_nil
    · exact List.Pairwise.nil
    · intro id hid
      exact absurd hid List.not_mem_nil
  · rw [List.length_map, hlen]
  · show (OneTimePreKeyPool.new rs).remaining = _
    rw [hsize, hlen]

/-- Taking a key keeps the invariant, and never panics. -/
theorem PoolRun.Inv.take {s : PoolRun} (hs : s.Inv) (checked : Bool) :
    ∃ s', s.call checked .take = .ok s' ∧ s'.Inv := by
  rcases takeOneTime_spec s.pool hs.keyed with ⟨-, hnone⟩ | ⟨id, r, hget, rfl, hmin, htake⟩
  · refine ⟨s, ?_, hs⟩
    rw [PoolRun.call, hnone]
    show Outcome.ok { s with taken := s.taken ++ [] } = _
    rw [List.append_nil]
  · have herase : ∀ (id : UInt32) (r' : PreKeyRecord),
        (s.pool.inner.available.erase r.id)[id]? = some r' →
        s.pool.inner.available[id]? = some r' ∧ id ≠ r.id := by
      intro id r' h
      rw [Std.TreeMap.getElem?_erase] at h
      split at h
      · cases h
      · rename_i hne
        refine ⟨h, ?_⟩
        rintro rfl
        exact hne Std.ReflOrd.compare_self
    have hin : r.id ∈ s.pool.inner.available := mem_available_iff.mpr ⟨r, hget⟩
    refine ⟨⟨⟨⟨s.pool.inner.available.erase r.id, insert r.id s.pool.inner.consumed⟩,
      s.pool.capacity, s.pool.lowWatermark, s.pool.nextId, insert r.id s.pool.issued⟩,
      s.taken ++ [r.id], s.minted⟩, ?_, ?_⟩
    · rw [PoolRun.call, htake]
      rfl
    · have hold : ∀ id ∈ s.pool.inner.available.erase r.id,
          id ∈ s.pool.inner.available ∧ id ≠ r.id := by
        intro id hid
        obtain ⟨r', hr'⟩ := mem_available_iff (p := ⟨_, ∅⟩).mp hid
        obtain ⟨h, hne⟩ := herase id r' hr'
        exact ⟨mem_available_iff.mpr ⟨r', h⟩, hne⟩
      have hsplit : ∀ id ∈ s.taken ++ [r.id], id ∈ s.taken ∨ id = r.id := by
        intro id hid
        rcases List.mem_append.mp hid with hleft | hright
        · exact .inl hleft
        · exact .inr (List.mem_singleton.mp hright)
      -- the lowest id available goes to the end of those taken, so these stay increasing
      refine ⟨hs.next, hs.few, hs.minted, ?_, ?_, ?_, ?_, ?_, ?_⟩
      · intro id r' h
        exact hs.keyed id r' (herase id r' h).1
      · intro id hid
        exact hs.available id (hold id hid).1
      · intro id hid
        rcases hsplit id hid with hleft | rfl
        · exact hs.takenMinted id hleft
        · exact hs.available _ hin
      · intro id hid id' hid'
        obtain ⟨hav, hne⟩ := hold id' hid'
        rcases hsplit id hid with hleft | rfl
        · exact hs.below id hleft id' hav
        · exact UInt32.lt_of_le_of_ne (hmin id' hav) (Ne.symm hne)
      · rw [List.pairwise_append]
        refine ⟨hs.increasing, List.pairwise_singleton _ _, ?_⟩
        intro a ha b hb
        rw [List.mem_singleton.mp hb]
        exact hs.below a ha _ hin
      · intro id hid
        rcases hsplit id hid with hleft | rfl
        · exact Finset.mem_insert_of_mem (hs.issued id hleft)
        · exact Finset.mem_insert_self _ _

/-- A refill keeps the invariant and every record, and adds `needed mod 2^32` keys. -/
theorem PoolRun.Inv.replenish {s : PoolRun} (hs : s.Inv) (checked : Bool) (target : Nat)
    (keys : KeySupply)
    (hfew : s.minted.length + (target - s.pool.remaining) % 2 ^ 32 < 2 ^ 32 - 1) :
    ∃ s', s.call checked (.replenish target keys) = .ok s' ∧ s'.Inv ∧
      s'.pool.remaining = s.pool.remaining + (target - s.pool.remaining) % 2 ^ 32 ∧
      ∀ (id : UInt32) (r : PreKeyRecord), s.pool.inner.available[id]? = some r →
        s'.pool.inner.available[id]? = some r := by
  have hnextval := hs.next
  have hbelow : ∀ id ∈ s.pool.inner.available, id.toNat < s.pool.nextId.toNat := by
    intro id hid
    have h := hs.minted id (hs.available id hid)
    omega
  obtain ⟨p', rs, hrep, hnew, hids, hnext, hsub, hrem, hget⟩ :=
    replenishToTarget_spec checked keys s.pool target hs.keyed hbelow (by omega)
  have hlen := length_of_idsOf hids
  refine ⟨⟨p', s.taken, s.minted ++ rs.map PreKeyRecord.id⟩, ?_, ?_, ?_, ?_⟩
  · rw [PoolRun.call, hrep, Outcome.ok_bind, hnew, Outcome.ok_bind]
  · have hlen' : (s.minted ++ rs.map PreKeyRecord.id).length = s.minted.length + rs.length := by
      rw [List.length_append, List.length_map]
    refine ⟨?_, ?_, ?_, ?_, ?_, ?_, ?_, hs.increasing, ?_⟩
    · rw [hnext, hlen']
      omega
    · rw [hlen']
      omega
    · intro id hid
      rw [hlen']
      rcases List.mem_append.mp hid with hold | hfresh
      · have h := hs.minted id hold
        omega
      · obtain ⟨r, hr, rfl⟩ := List.mem_map.mp hfresh
        have h := (mem_idsOf hids hr).2
        omega
    · intro id r h
      rcases (hget id r).mp h with hold | ⟨-, hid⟩
      · exact hs.keyed id r hold
      · exact hid
    · intro id hid
      obtain ⟨r, hr⟩ := mem_available_iff.mp hid
      rcases (hget id r).mp hr with hold | ⟨hmem, rfl⟩
      · exact List.mem_append_left _ (hs.available id (mem_available_iff.mpr ⟨r, hold⟩))
      · exact List.mem_append_right _ (List.mem_map_of_mem hmem)
    · intro id hid
      exact List.mem_append_left _ (hs.takenMinted id hid)
    · intro id hid id' hid'
      obtain ⟨r, hr⟩ := mem_available_iff.mp hid'
      rcases (hget id' r).mp hr with hold | ⟨hmem, rfl⟩
      · exact hs.below id hid id' (mem_available_iff.mpr ⟨r, hold⟩)
      · -- a fresh id lies above everything minted before
        have hlow := hs.minted id (hs.takenMinted id hid)
        have hhigh := (mem_idsOf hids hmem).1
        exact UInt32.lt_iff_toNat_lt.mpr (by omega)
    · intro id hid
      exact hsub (hs.issued id hid)
  · rw [← hlen]
    exact hrem
  · intro id r h
    exact (hget id r).mpr (.inl h)

/-! ## Ids are never reissued -/

/-- What the history of a pool must look like. -/
structure NeverReissued (s : PoolRun) : Prop where
  increasing : s.taken.Pairwise (· < ·)
  distinct : s.taken.Nodup
  above : ∀ id ∈ s.minted, id < s.pool.nextId
  disjoint : ∀ id ∈ s.taken, id ∉ s.pool.inner.available
  issued : ∀ id ∈ s.taken, id ∈ s.pool.issued

theorem PoolRun.Inv.neverReissued {s : PoolRun} (hs : s.Inv) : NeverReissued s where
  increasing := hs.increasing
  distinct := hs.increasing.imp (fun h => UInt32.ne_of_lt h)
  above := by
    intro id hid
    have h := hs.minted id hid
    have hnext := hs.next
    exact UInt32.lt_iff_toNat_lt.mpr (by omega)
  disjoint := by
    intro id hid hav
    exact UInt32.lt_irrefl id (hs.below id hid id hav)
  issued := hs.issued

/-- What a refill must do: bring the pool to the target, and lose no record. -/
def ReplenishOk (checked : Bool) : Outcome PreKeyError PoolRun → PoolAction → Prop
  | .ok s, .replenish target keys =>
    ∃ s', s.call checked (.replenish target keys) = .ok s' ∧
      s'.pool.remaining = max target s.pool.remaining ∧
      ∀ (id : UInt32) (r : PreKeyRecord), s.pool.inner.available[id]? = some r →
        s'.pool.inner.available[id]? = some r
  | _, _ => True

/-- The refill is short of fewer than `2^32` keys. -/
def ShortfallFits : Outcome PreKeyError PoolRun → PoolAction → Prop
  | .ok s, .replenish target _ => target - s.pool.remaining < 2 ^ 32
  | _, _ => True

/-- Everything the pool promises, over a run: no call panics, in every state on the way no id has
    been reissued, and every refill does what it must. -/
def PoolPromise (checked : Bool) (keys : KeySupply) (w : Nat) (acts : List PoolAction) : Prop :=
  (∀ as, as <+: acts →
    ∃ s, run (PoolRun.step checked) (PoolRun.start checked keys w) as = .ok s ∧
      NeverReissued s) ∧
  Meets (PoolRun.step checked) (ReplenishOk checked) (PoolRun.start checked keys w) acts

/-- The state has not been lost to a panic, and has the invariant. -/
def Alive (s : Outcome PreKeyError PoolRun) : Prop := ∃ s', s = .ok s' ∧ s'.Inv

theorem Alive.step {checked : Bool} {s : Outcome PreKeyError PoolRun} {a : PoolAction}
    (hs : Alive s) (hfew : FewMinted s a) : Alive (PoolRun.step checked s a) := by
  obtain ⟨s, rfl, hinv⟩ := hs
  cases a with
  | take => exact hinv.take checked
  | replenish target keys =>
    obtain ⟨s', hcall, hinv', -⟩ := hinv.replenish checked target keys hfew
    exact ⟨s', hcall, hinv'⟩

/-- A refill does what it must exactly if its shortfall fits. -/
theorem replenishOk_iff {checked : Bool} {s : Outcome PreKeyError PoolRun} {a : PoolAction}
    (hs : Alive s) (hfew : FewMinted s a) : ReplenishOk checked s a ↔ ShortfallFits s a := by
  obtain ⟨s, rfl, hinv⟩ := hs
  cases a with
  | take => exact Iff.rfl
  | replenish target keys =>
    obtain ⟨s', hcall, -, hrem, hkept⟩ := hinv.replenish checked target keys hfew
    show (∃ s'', _) ↔ target - s.pool.remaining < 2 ^ 32
    constructor
    · rintro ⟨s'', hcall', hmax, -⟩
      have hsame : s'' = s' := Outcome.ok.inj (hcall'.symm.trans hcall)
      rw [hsame, hrem] at hmax
      have hmod := Nat.mod_lt (target - s.pool.remaining) (show 0 < 2 ^ 32 by decide)
      omega
    · intro hlt
      refine ⟨s', hcall, ?_, hkept⟩
      rw [hrem, Nat.mod_eq_of_lt hlt]
      omega

/-- **Exactly when the pool keeps its promise**, in every run that mints fewer than `2^32 - 1` keys:
    every refill is short of fewer than `2^32` keys.  That no id is reissued and no call panics holds
    in any case; what fails otherwise is that the refill reaches its target. -/
theorem pool_never_reissues (checked : Bool) (keys : KeySupply) (w : Nat) (acts : List PoolAction)
    (hstart : max w 1 % 2 ^ 32 < 2 ^ 32 - 1)
    (hfew : Meets (PoolRun.step checked) FewMinted (PoolRun.start checked keys w) acts) :
    PoolPromise checked keys w acts ↔
      Meets (PoolRun.step checked) ShortfallFits (PoolRun.start checked keys w) acts := by
  have halive : Alive (PoolRun.start checked keys w) := by
    obtain ⟨s, hs, hinv, -⟩ := start_inv checked keys w hstart
    exact ⟨s, hs, hinv⟩
  have hruns : ∀ as, as <+: acts →
      ∃ s, run (PoolRun.step checked) (PoolRun.start checked keys w) as = .ok s ∧
        NeverReissued s := by
    intro as hp
    obtain ⟨s, hs, hinv⟩ := meets_inv (fun _ _ hs hf => hs.step hf) halive (hfew.initial hp)
    exact ⟨s, hs, hinv.neverReissued⟩
  have hiff : Meets (PoolRun.step checked) (ReplenishOk checked) (PoolRun.start checked keys w) acts ↔
      Meets (PoolRun.step checked) ShortfallFits (PoolRun.start checked keys w) acts :=
    meets_congr (I := Alive) (fun s a hs hf => ⟨hs.step hf, replenishOk_iff hs hf⟩) halive hfew
  exact ⟨fun h => hiff.mp h.2, fun h => ⟨hruns, hiff.mpr h⟩⟩

instance (s : Outcome PreKeyError PoolRun) (a : PoolAction) : Decidable (FewMinted s a) :=
  match s, a with
  | .ok s, .replenish target _ => inferInstanceAs (Decidable
      (s.minted.length + (target - s.pool.remaining) % 2 ^ 32 < 2 ^ 32 - 1))
  | .ok _, .take => .isTrue trivial
  | .err _, _ => .isTrue trivial
  | .panic, _ => .isTrue trivial

instance (s : Outcome PreKeyError PoolRun) (a : PoolAction) : Decidable (ShortfallFits s a) :=
  match s, a with
  | .ok s, .replenish target _ => inferInstanceAs (Decidable (target - s.pool.remaining < 2 ^ 32))
  | .ok _, .take => .isTrue trivial
  | .err _, _ => .isTrue trivial
  | .panic, _ => .isTrue trivial

/-- A supply of distinguishable keys. -/
def sampleKeys : KeySupply := fun n => ([UInt8.ofNat n], [0, UInt8.ofNat n])

/-- Two keys taken, the pool refilled, two more taken. -/
def takeAndRefill : List PoolAction := [.take, .take, .replenish 3 sampleKeys, .take, .take]

theorem take_and_refill_keeps_promise :
    Meets (PoolRun.step true) ShortfallFits (PoolRun.start true sampleKeys 2) takeAndRefill ∧
      PoolPromise true sampleKeys 2 takeAndRefill := by
  have hfits : Meets (PoolRun.step true) ShortfallFits (PoolRun.start true sampleKeys 2)
      takeAndRefill := by decide +kernel
  exact ⟨hfits, (pool_never_reissues true sampleKeys 2 takeAndRefill (by decide)
    (by decide +kernel)).mpr hfits⟩

/-- A pool of one key asked for `2^32 + 1` mints none: the shortfall `2^32` is truncated to zero. -/
theorem refill_truncates_shortfall :
    ¬ PoolPromise true sampleKeys 1 [.replenish (2 ^ 32 + 1) sampleKeys] := by
  rintro ⟨-, hok, -⟩
  obtain ⟨s, hs, hinv, hminted, hrem⟩ := start_inv true sampleKeys 1 (by decide)
  have hfew : FewMinted (.ok s) (.replenish (2 ^ 32 + 1) sampleKeys) := by
    show s.minted.length + (2 ^ 32 + 1 - s.pool.remaining) % 2 ^ 32 < 2 ^ 32 - 1
    rw [hminted, hrem]
    decide
  rw [hs, replenishOk_iff ⟨s, rfl, hinv⟩ hfew] at hok
  have hlt : 2 ^ 32 + 1 - s.pool.remaining < 2 ^ 32 := hok
  rw [hrem] at hlt
  exact absurd hlt (by decide)

end E2EMessaging.Crypto
