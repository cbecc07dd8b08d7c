/-
  THE RELAY'S STORE (`relay/src/store.rs`): one envelope per recipient, with an expiry.

  `store` reads the clock BEFORE it takes the lock, so the expiry it inserts may lie behind the
  moment of insertion; `pickup` reads the clock under the lock.  Times are `Instant`s in
  nanoseconds.
-/
import Mathlib.Logic.Function.Basic
import E2EMessaging.Lib.Slot
import E2EMessaging.Lib.Bytes

namespace E2EMessaging.Relay

open E2EMessaging.Lib

/-- `StoreError`. -/
inductive StoreError where
  | expired
  | notFound
  deriving Repr, DecidableEq

/-- A `StoreError` as `{:?}` prints it. -/
def StoreError.debug : StoreError → String
  | .expired => "Expired"
  | .notFound => "NotFound"

/-- `RelayStore`: the map under the mutex. -/
structure RelayStore where
  inner : String → Option (Bytes × Nat)

/-- `RelayStore::new`. -/
def RelayStore.new : RelayStore := ⟨fun _ => none⟩

/-- `store` under the lock, with the expiry computed before. -/
def RelayStore.insert (s : RelayStore) (recipientId : String) (envelope : Bytes) (expiry : Nat) :
    RelayStore × Except StoreError Unit :=
  (⟨Function.update s.inner recipientId (some (envelope, expiry))⟩, .ok ())

/-- `RelayStore::store`, with the clock read at `now`. -/
def RelayStore.store (s : RelayStore) (recipientId : String) (envelope : Bytes) (ttl now : Nat) :
    RelayStore × Except StoreError Unit :=
  s.insert recipientId envelope (now + ttl)

/-- `RelayStore::pickup`. -/
def RelayStore.pickup (s : RelayStore) (recipientId : String) (now : Nat) :
    RelayStore × Except StoreError Bytes :=
  match s.inner recipientId with
  | none => (s, .error .notFound)
  | some (envelope, expiry) =>
    if expiry < now then (⟨Function.update s.inner recipientId none⟩, .error .expired)
    else (⟨Function.update s.inner recipientId none⟩, .ok envelope)

/-- `RelayStore::purge`. -/
def RelayStore.purge (s : RelayStore) (recipientId : String) : RelayStore × Except StoreError Unit :=
  (⟨Function.update s.inner recipientId none⟩, .ok ())

/-! ## A store is one slot per recipient -/

/-- The answer of a slot, as `pickup` returns it. -/
def ofTaken : Taken Bytes → Except StoreError Bytes
  | .empty => .error .notFound
  | .expired => .error .expired
  | .got v => .ok v

theorem ofTaken_eq_ok {t : Taken Bytes} {v : Bytes} (h : .ok v = ofTaken t) : t = .got v := by
  cases t with
  | got w =>
    obtain rfl : v = w := by simpa [ofTaken] using h
    rfl
  | _ => simp [ofTaken] at h

theorem ofTaken_eq_expired {t : Taken Bytes} (h : .error .expired = ofTaken t) : t = .expired := by
  cases t with
  | expired => rfl
  | _ => simp [ofTaken] at h

/-- What a slot holds, as the map has it. -/
def Held.entry (x : Held Bytes) : Bytes × Nat := (x.value, x.expiry)

/-- Every key of the map is the slot of that key after its history. -/
def RelayStore.Replays (s : RelayStore) (slots : String → Option (Held Bytes)) : Prop :=
  ∀ r, s.inner r = (slots r).map Held.entry

/-- An inserted entry replaces the slot of its recipient; the others are left alone. -/
theorem RelayStore.Replays.insert {s : RelayStore} {slots slots' : String → Option (Held Bytes)}
    (hs : s.Replays slots) {r : String} {v : Bytes} {expiry n : Nat}
    (hr : slots' r = some ⟨n, v, expiry⟩) (hother : ∀ r', r' ≠ r → slots' r' = slots r') :
    (s.insert r v expiry).1.Replays slots' := by
  intro r'
  show Function.update s.inner r (some (v, expiry)) r' = (slots' r').map Held.entry
  by_cases h : r' = r
  · rw [h, Function.update_self, hr]
    rfl
  · rw [Function.update_of_ne h, hother r' h]
    exact hs r'

/-- The map with one key removed, when that slot is empty and the others are left alone. -/
theorem RelayStore.Replays.remove {s : RelayStore} {slots slots' : String → Option (Held Bytes)}
    (hs : s.Replays slots) {r : String} (hr : slots' r = none)
    (hother : ∀ r', r' ≠ r → slots' r' = slots r') :
    RelayStore.Replays ⟨Function.update s.inner r none⟩ slots' := by
  intro r'
  show Function.update s.inner r none r' = (slots' r').map Held.entry
  by_cases h : r' = r
  · rw [h, Function.update_self, hr]
    rfl
  · rw [Function.update_of_ne h, hother r' h]
    exact hs r'

/-- A pickup answers as the slot does, and empties it. -/
theorem RelayStore.Replays.pickup {s : RelayStore} {slots slots' : String → Option (Held Bytes)}
    (hs : s.Replays slots) {r : String} (now : Nat) (hr : slots' r = none)
    (hother : ∀ r', r' ≠ r → slots' r' = slots r') :
    (s.pickup r now).1.Replays slots' ∧ (s.pickup r now).2 = ofTaken (taken (slots r) now) := by
  have hemptied := hs.remove hr hother
  rw [RelayStore.pickup, hs r]
  cases hslot : slots r with
  | none =>
    have hkept : s.Replays slots' := by
      intro r'
      by_cases h : r' = r
      · rw [h, hr, hs r, hslot]
      · rw [hother r' h]
        exact hs r'
    exact ⟨hkept, rfl⟩
  | some x =>
    dsimp only [Option.map, Held.entry, taken]
    split
    · exact ⟨hemptied, rfl⟩
    · exact ⟨hemptied, rfl⟩

end E2EMessaging.Relay
