/-
  THE DEVICES OF AN ACCOUNT (`DeviceSet` of `core/crypto/src/lib.rs`).

  An account is a primary identity key and the devices it has vouched for.  `add_device` verifies the
  primary's signature over the device key and pushes the key; a call that fails leaves the account as
  it was.  So the list of linked devices is, call for call, the keys that verified
  (`linkedDevices_after`): nothing unsigned gets in.

  The documentation promises more: a SET of OTHER devices' keys, which "does not include the primary
  device itself".  Neither a second copy nor the primary's own key is looked for, so that holds exactly
  if no verifying call repeats a key or carries the primary's (`device_set_is_set_iff`).
-/
import Mathlib.Data.List.Nodup
import Mathlib.Data.List.Dedup
import E2EMessaging.Lib.Bytes
import E2EMessaging.Lib.Run

namespace E2EMessaging.Crypto

open E2EMessaging.Lib

/-- `DeviceLinkError`. -/
inductive DeviceLinkError where
  | signingFailed
  | invalidSignature
  deriving Repr, DecidableEq

/-- `DeviceSet`. -/
structure DeviceSet (Key : Type) where
  primaryIdentityKey : Key
  linkedDevices : List Key
  deriving Repr, DecidableEq

section DeviceSet

variable {Key ε : Type} (verifyAlternateIdentity : Key → Key → Bytes → Except ε Bool)

/-- `verify_device_identity`: an error is a no. -/
def verifyDeviceIdentity (primary device : Key) (signature : Bytes) : Bool :=
  match verifyAlternateIdentity primary device signature with
  | .ok valid => valid
  | .error _ => false

/-- `DeviceSet::new`. -/
def DeviceSet.new (primary : Key) : DeviceSet Key := ⟨primary, []⟩

/-- `DeviceSet::add_device`. -/
def DeviceSet.addDevice (s : DeviceSet Key) (device : Key) (signature : Bytes) :
    DeviceSet Key × Except DeviceLinkError Unit :=
  if verifyDeviceIdentity verifyAlternateIdentity s.primaryIdentityKey device signature then
    ({ s with linkedDevices := s.linkedDevices ++ [device] }, .ok ())
  else (s, .error .invalidSignature)

/-- The account after a sequence of calls, each a device key and a signature. -/
def DeviceSet.after (primary : Key) (calls : List (Key × Bytes)) : DeviceSet Key :=
  run (fun s c => (s.addDevice verifyAlternateIdentity c.1 c.2).1) (.new primary) calls

/-- The device keys of the calls whose signature verifies, in order. -/
def verifiedKeys (primary : Key) (calls : List (Key × Bytes)) : List Key :=
  (calls.filter fun c =>
    verifyDeviceIdentity verifyAlternateIdentity primary c.1 c.2).map (·.1)

/-! ## What the code keeps -/

/-- A call that fails leaves the account as it was, and fails only on a signature that does not
    verify. -/
theorem addDevice_cases (s : DeviceSet Key) (device : Key) (signature : Bytes) :
    (verifyDeviceIdentity verifyAlternateIdentity s.primaryIdentityKey device signature = true ∧
      s.addDevice verifyAlternateIdentity device signature =
        ({ s with linkedDevices := s.linkedDevices ++ [device] }, .ok ())) ∨
    (verifyDeviceIdentity verifyAlternateIdentity s.primaryIdentityKey device signature = false ∧
      s.addDevice verifyAlternateIdentity device signature = (s, .error .invalidSignature)) := by
  rw [DeviceSet.addDevice]
  cases hv : verifyDeviceIdentity verifyAlternateIdentity s.primaryIdentityKey device signature with
  | true => exact Or.inl ⟨rfl, rfl⟩
  | false => exact Or.inr ⟨rfl, rfl⟩

/-- **An error leaves the account as it was.** -/
theorem addDevice_failClosed {s : DeviceSet Key} {device : Key} {signature : Bytes}
    {e : DeviceLinkError}
    (herr : (s.addDevice verifyAlternateIdentity device signature).2 = .error e) :
    (s.addDevice verifyAlternateIdentity device signature).1 = s := by
  rcases addDevice_cases verifyAlternateIdentity s device signature with ⟨-, hadd⟩ | ⟨-, hadd⟩
  · rw [hadd] at herr
    cases herr
  · rw [hadd]

theorem mem_verifiedKeys {primary key : Key} {calls : List (Key × Bytes)} :
    key ∈ verifiedKeys verifyAlternateIdentity primary calls ↔ ∃ signature, (key, signature) ∈ calls ∧
      verifyDeviceIdentity verifyAlternateIdentity primary key signature = true := by
  rw [verifiedKeys, List.mem_map]
  constructor
  · rintro ⟨c, hc, rfl⟩
    obtain ⟨hmem, hv⟩ := List.mem_filter.mp hc
    exact ⟨c.2, hmem, hv⟩
  · rintro ⟨signature, hmem, hv⟩
    exact ⟨(key, signature), List.mem_filter.mpr ⟨hmem, hv⟩, rfl⟩

/-- **The list is the keys that verified**, one entry a call. -/
theorem after_eq (primary : Key) (calls : List (Key × Bytes)) :
    DeviceSet.after verifyAlternateIdentity primary calls =
      ⟨primary, verifiedKeys verifyAlternateIdentity primary calls⟩ := by
  induction calls using List.reverseRecOn with
  | nil => rfl
  | append_singleton calls c ih =>
    have hstep : DeviceSet.after verifyAlternateIdentity primary (calls ++ [c]) =
        ((DeviceSet.after verifyAlternateIdentity primary calls).addDevice
          verifyAlternateIdentity c.1 c.2).1 := run_concat _ _ calls c
    have hkeys : verifiedKeys verifyAlternateIdentity primary (calls ++ [c]) =
        verifiedKeys verifyAlternateIdentity primary calls ++
          verifiedKeys verifyAlternateIdentity primary [c] := by
      rw [verifiedKeys, List.filter_append, List.map_append]
      rfl
    rw [hstep, ih, hkeys]
    rcases addDevice_cases verifyAlternateIdentity
        ⟨primary, verifiedKeys verifyAlternateIdentity primary calls⟩ c.1 c.2 with
      ⟨hv, hadd⟩ | ⟨hv, hadd⟩
    · change verifyDeviceIdentity verifyAlternateIdentity primary c.1 c.2 = true at hv
      have hone : verifiedKeys verifyAlternateIdentity primary [c] = [c.1] := by
        simp [verifiedKeys, hv]
      rw [hadd, hone]
    · change verifyDeviceIdentity verifyAlternateIdentity primary c.1 c.2 = false at hv
      have hnone : verifiedKeys verifyAlternateIdentity primary [c] = [] := by
        simp [verifiedKeys, hv]
      rw [hadd, hnone, List.append_nil]

/-! ## What it should keep -/

variable [DecidableEq Key]

/-- The account as a set of other devices: the keys that verified, the primary's own apart, each once,
    in order of first admission. -/
def vouchedFor (primary : Key) (calls : List (Key × Bytes)) : List Key :=
  ((verifiedKeys verifyAlternateIdentity primary calls).filter fun key =>
    decide (key ≠ primary)).eraseDups

/-- Erasing duplicates leaves none. -/
theorem nodup_eraseDups (l : List Key) : l.eraseDups.Nodup := by
  induction hn : l.length using Nat.strong_induction_on generalizing l with
  | _ n ih =>
    cases l with
    | nil => exact List.nodup_nil
    | cons a l =>
      rw [List.eraseDups_cons, List.nodup_cons]
      constructor
      · rw [List.mem_eraseDups, List.mem_filter]
        simp
      · refine ih _ ?_ _ rfl
        have hle := List.length_filter_le (fun b => !b == a) l
        rw [List.length_cons] at hn
        omega

theorem eraseDups_of_nodup {l : List Key} (h : l.Nodup) : l.eraseDups = l := by
  induction l with
  | nil => rfl
  | cons a l ih =>
    obtain ⟨ha, hl⟩ := List.nodup_cons.mp h
    have hkeep : l.filter (fun b => !b == a) = l := by
      rw [List.filter_eq_self]
      intro b hb
      have hne : b ≠ a := fun heq => ha (heq ▸ hb)
      simp [hne]
    rw [List.eraseDups_cons, hkeep, ih hl]

/-- What the account is after some calls: the set of the devices vouched for, and no failing call
    changes it. -/
structure IsDeviceSet (primary : Key) (calls : List (Key × Bytes)) : Prop where
  devices : (DeviceSet.after verifyAlternateIdentity primary calls).linkedDevices =
    vouchedFor verifyAlternateIdentity primary calls
  failClosed : ∀ device signature e,
    ((DeviceSet.after verifyAlternateIdentity primary calls).addDevice verifyAlternateIdentity
      device signature).2 = .error e →
    ((DeviceSet.after verifyAlternateIdentity primary calls).addDevice verifyAlternateIdentity
      device signature).1 = DeviceSet.after verifyAlternateIdentity primary calls

/-- What `vouchedFor` promises, spelled out: no key twice, never the primary's, and every other key
    that verified. -/
theorem mem_vouchedFor (primary : Key) (calls : List (Key × Bytes)) :
    (vouchedFor verifyAlternateIdentity primary calls).Nodup ∧
      ∀ key, key ∈ vouchedFor verifyAlternateIdentity primary calls ↔
        key ≠ primary ∧ ∃ signature, (key, signature) ∈ calls ∧
          verifyDeviceIdentity verifyAlternateIdentity primary key signature = true := by
  refine ⟨nodup_eraseDups _, fun key => ?_⟩
  rw [vouchedFor, List.mem_eraseDups, List.mem_filter, decide_eq_true_iff, and_comm,
    mem_verifiedKeys verifyAlternateIdentity]

/-- **The account is a set of other devices exactly if no verifying call repeats a device key or
    carries the primary's own.** -/
theorem device_set_is_set_iff (primary : Key) (calls : List (Key × Bytes)) :
    IsDeviceSet verifyAlternateIdentity primary calls ↔
      (verifiedKeys verifyAlternateIdentity primary calls).Nodup ∧
        ∀ signature, (primary, signature) ∈ calls →
          verifyDeviceIdentity verifyAlternateIdentity primary primary signature = false := by
  constructor
  · rintro ⟨hdevices, -⟩
    rw [after_eq] at hdevices
    obtain ⟨hnodup, hmem⟩ := mem_vouchedFor verifyAlternateIdentity primary calls
    rw [← hdevices] at hnodup hmem
    refine ⟨hnodup, fun signature hcall => ?_⟩
    by_contra hv
    have hin := (mem_verifiedKeys verifyAlternateIdentity).mpr ⟨signature, hcall, Bool.not_eq_false _ ▸ hv⟩
    exact ((hmem primary).mp hin).1 rfl
  · rintro ⟨hnodup, hself⟩
    refine ⟨?_, ?_⟩
    · have hkeep : (verifiedKeys verifyAlternateIdentity primary calls).filter
          (fun key => decide (key ≠ primary)) = verifiedKeys verifyAlternateIdentity primary calls := by
        rw [List.filter_eq_self]
        intro key hkey
        rw [decide_eq_true_iff]
        rintro rfl
        obtain ⟨signature, hcall, hv⟩ := (mem_verifiedKeys verifyAlternateIdentity).mp hkey
        rw [hself signature hcall] at hv
        cases hv
      rw [after_eq, vouchedFor, hkeep, eraseDups_of_nodup hnodup]
    · intro device signature e herr
      exact addDevice_failClosed verifyAlternateIdentity herr

end DeviceSet

/-! ## Replays and self-links -/

/-- A signature scheme for examples: the primary signs a key by writing both down. -/
def sampleVerify (primary device : UInt8) (signature : Bytes) : Except Unit Bool :=
  if signature.length = 2 then .ok (signature == [primary, device]) else .error ()

/-- Device 2 is linked, a forgery for 3 is refused, and then the link of 2 is REPLAYED: the account
    lists it twice.  And the primary can link ITSELF. -/
theorem device_set_repeats_and_self_links :
    (DeviceSet.after sampleVerify 1 [(2, [1, 2]), (3, [7]), (2, [1, 2])]).linkedDevices = [2, 2] ∧
      ¬ IsDeviceSet sampleVerify 1 [(2, [1, 2]), (3, [7]), (2, [1, 2])] ∧
      (DeviceSet.after sampleVerify 1 [(1, [1, 1])]).linkedDevices = [1] ∧
      ¬ IsDeviceSet sampleVerify 1 [(1, [1, 1])] := by
  refine ⟨by decide, fun h => ?_, by decide, fun h => ?_⟩
  · exact absurd h.devices (by decide)
  · exact absurd h.devices (by decide)

end E2EMessaging.Crypto
