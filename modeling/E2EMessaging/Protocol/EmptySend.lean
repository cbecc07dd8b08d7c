/-
  A SEND TO NOBODY (`encrypt_to_all` of `core/protocol/src/fanout.rs`).

  `establish` rejects an empty device list with `NoDevices`, "so the caller doesn't get back an empty
  ciphertext list that looks like a successful no-op send".  The device table shrinks afterwards:
  `remove_device` takes any device out, the last one included, and `encrypt_to_all` then passes over an
  empty table and returns `Ok` of an empty list.

  So the rule of `establish` holds in a reachable state exactly as long as one of its devices is left.
-/
import E2EMessaging.Protocol.Fanout

namespace E2EMessaging.Protocol

open E2EMessaging.Lib E2EMessaging.Crypto

section EmptySend

variable {Key Sess Rand : Type} {S : Signal Key Sess Rand} {sha256 : Bytes → Bytes}

/-- An empty list comes out of an empty table, and of no other: a device left is a ciphertext or an
    error. -/
theorem encryptToAll_eq_ok_nil_iff (f : FanoutSession Key Sess) (plaintext : Bytes)
    (rand : DeviceId → Rand) :
    (f.encryptToAll S plaintext rand).2 = .ok [] ↔ f.senderSessions.keys = [] := by
  constructor
  · intro hnil
    rcases (encryptToAll_spec (S := S) f plaintext rand).2 with ⟨c, hok, hall⟩ | ⟨d, -, e, s, herr, -⟩
    · obtain rfl := Outcome.ok.inj (hnil.symm.trans hok)
      exact hall.devices.symm
    · rw [hnil] at herr
      cases herr
  · intro hkeys
    show (encryptLoop S plaintext rand f.senderSessions.keys f.senderSessions []).2 = _
    rw [hkeys]
    rfl

/-- The devices removed along a run are those of its `remove_device` calls. -/
theorem mem_removed_run (s : FanoutRun Key Sess) (calls : List (FanoutCall Key Rand))
    (d : DeviceId) :
    d ∈ (run (FanoutRun.step S sha256) s calls).removed ↔
      d ∈ s.removed ∨ FanoutCall.removeDevice d ∈ calls := by
  induction calls generalizing s with
  | nil => simp
  | cons call calls ih =>
    rw [run_cons, ih, List.mem_cons, ← or_assoc]
    refine or_congr_left ?_
    cases call with
    | encryptToAll plaintext rand =>
      show d ∈ s.removed ↔ _
      simp
    | decryptAs identity c rand =>
      show d ∈ s.removed ↔ _
      simp
    | removeDevice d' =>
      show d ∈ s.removed ++ [d'] ↔ _
      simp

/-- The sender sessions of a reachable fan-out are those of the devices left. -/
theorem FanoutRun.Inv.keys_eq_nil_iff {devices : List (DeviceId × IdentityKeyPair Key)}
    {s : FanoutRun Key Sess} (hs : s.Inv S sha256 devices) :
    s.session.senderSessions.keys = [] ↔ ∀ d ∈ devices.map Prod.fst, d ∈ s.removed := by
  constructor
  · intro hkeys d hd
    obtain ⟨⟨d', identity⟩, hmem, rfl⟩ := List.mem_map.mp hd
    by_contra hleft
    have hin := hs.mem_sender ⟨⟨identity, hmem, rfl⟩, hleft⟩
    rw [← Std.TreeMap.mem_keys, hkeys] at hin
    exact List.not_mem_nil hin
  · intro hall
    rw [List.eq_nil_iff_forall_not_mem]
    intro d hd
    obtain ⟨key, ⟨identity, hmem, -⟩, hleft⟩ := hs.sender d (Std.TreeMap.mem_keys.mp hd)
    exact hleft (hall d (List.mem_map_of_mem hmem))

variable (S) in
/-- Nothing is sent silently to nobody: `encrypt_to_all` never returns `Ok` of an empty list, and with
    no device left it reports an error. -/
structure FanoutRun.NoSilentSend (s : FanoutRun Key Sess) : Prop where
  nonempty : ∀ plaintext (rand : DeviceId → Rand),
    (s.session.encryptToAll S plaintext rand).2 ≠ .ok []
  reports : s.session.senderSessions.keys = [] → ∀ plaintext (rand : DeviceId → Rand),
    ∃ e, (s.session.encryptToAll S plaintext rand).2 = .err e

/-- **A reachable fan-out does not send to nobody exactly if a device of `establish` is left.** -/
theorem no_silent_empty_send_iff (sender : IdentityKeyPair Key)
    (bobRand aliceRand : DeviceId → Rand) (devices : List (DeviceId × IdentityKeyPair Key))
    (f : FanoutSession Key Sess) (hf : establish S sha256 sender bobRand aliceRand devices = .ok f)
    (calls : List (FanoutCall Key Rand)) :
    (run (FanoutRun.step S sha256) (.start f) calls).NoSilentSend S ↔
      ∃ d ∈ devices.map Prod.fst, FanoutCall.removeDevice d ∉ calls := by
  obtain ⟨-, hids, hinv⟩ := establish_ok hf
  have hrun := run_inv (I := FanoutRun.Inv S sha256 devices)
    (fun s call hs => hs.step hids call) hinv calls
  have hempty : (run (FanoutRun.step S sha256) (.start f) calls).session.senderSessions.keys = [] ↔
      ∀ d ∈ devices.map Prod.fst, FanoutCall.removeDevice d ∈ calls := by
    rw [hrun.keys_eq_nil_iff]
    refine forall₂_congr fun d _ => ?_
    rw [mem_removed_run]
    exact or_iff_right List.not_mem_nil
  constructor
  · rintro ⟨hnonempty, -⟩
    by_contra hnone
    have hall : ∀ d ∈ devices.map Prod.fst, FanoutCall.removeDevice d ∈ calls := by
      intro d hd
      by_contra hleft
      exact hnone ⟨d, hd, hleft⟩
    exact hnonempty [] bobRand ((encryptToAll_eq_ok_nil_iff _ _ _).mpr (hempty.mpr hall))
  · rintro ⟨d, hd, hleft⟩
    have hkeys : (run (FanoutRun.step S sha256) (.start f) calls).session.senderSessions.keys ≠ [] :=
      fun h => hleft (hempty.mp h d hd)
    refine ⟨fun plaintext rand h => hkeys ((encryptToAll_eq_ok_nil_iff _ _ _).mp h), ?_⟩
    exact fun h => absurd h hkeys

end EmptySend

/-! ## Two devices -/

/-- Devices 3 and 1 over the ratchet in the clear. -/
def twoDevices : List (DeviceId × IdentityKeyPair UInt8) := [(3, ⟨5, []⟩), (1, ⟨6, []⟩)]

theorem establish_twoDevices : ∃ f, establish clearSignal sampleHash ⟨9, []⟩ (fun _ => 0)
    (fun _ => 0) twoDevices = .ok f := by
  have hfails := establish_fails_iff clearSignal_establishes
    (fun k k' => sampleHash_collisionFree k k') ⟨9, []⟩ (fun _ => 0) (fun _ => 0) twoDevices
  cases hf : establish clearSignal sampleHash ⟨9, []⟩ (fun _ => 0) (fun _ => 0) twoDevices with
  | ok f => exact ⟨f, rfl⟩
  | error e =>
    have hbad := hfails.mp ⟨e, hf⟩
    exact absurd hbad (by decide)

/-- One of the two is removed: the fan-out still sends. -/
theorem no_silent_empty_send_one_left :
    ∃ f, establish clearSignal sampleHash ⟨9, []⟩ (fun _ => 0) (fun _ => 0) twoDevices = .ok f ∧
      (run (FanoutRun.step clearSignal sampleHash) (.start f)
        [.removeDevice 3]).NoSilentSend clearSignal := by
  obtain ⟨f, hf⟩ := establish_twoDevices
  refine ⟨f, hf, (no_silent_empty_send_iff ⟨9, []⟩ _ _ twoDevices f hf [.removeDevice 3]).mpr ?_⟩
  exact ⟨1, by decide, by simp⟩

/-- **Both are removed: the message goes to nobody, and `encrypt_to_all` says `Ok`.** -/
theorem encrypt_to_nobody_is_ok :
    ∃ f, establish clearSignal sampleHash ⟨9, []⟩ (fun _ => 0) (fun _ => 0) twoDevices = .ok f ∧
      ((run (FanoutRun.step clearSignal sampleHash) (.start f)
        [.removeDevice 3, .removeDevice 1]).session.encryptToAll clearSignal [104, 105]
          fun _ => 0).2 = .ok [] ∧
      ¬ (run (FanoutRun.step clearSignal sampleHash) (.start f)
        [.removeDevice 3, .removeDevice 1]).NoSilentSend clearSignal := by
  obtain ⟨f, hf⟩ := establish_twoDevices
  obtain ⟨-, hids, hinv⟩ := establish_ok hf
  have hrun := run_inv (I := FanoutRun.Inv clearSignal sampleHash twoDevices)
    (fun s call hs => hs.step hids call) hinv [.removeDevice 3, .removeDevice 1]
  have hremoved : ∀ d ∈ twoDevices.map Prod.fst, d ∈ [3, 1] := fun d hd => hd
  have hnil := (encryptToAll_eq_ok_nil_iff (S := clearSignal) _ [104, 105] fun _ => 0).mpr
    (hrun.keys_eq_nil_iff.mpr hremoved)
  exact ⟨f, hf, hnil, fun h => h.nonempty _ _ hnil⟩

end E2EMessaging.Protocol
