/-
  WHAT A DECRYPTED GROUP FRAME PROVES ABOUT ITS SENDER: nothing.

  The threat model says that a compromised relay cannot forge an envelope the recipient accepts.
  For group frames that would be `Authentic`: whatever the adversary — all public keys, every frame
  seen so far, `seal` and AES-GCM with keys of its own — assembles, if `decrypt_as` returns `Ok(p)`
  then some `encrypt_as` call for `p` produced the payload and the caller's wrapper.

  `decrypt_as` reads the message key out of the wrapper and consults neither the session nor any
  sender key, and `seal` needs nothing but the recipient's public key.  So a frame made from
  scratch (`forge`) is accepted, for EVERY run, EVERY member and EVERY plaintext
  (`forge_derivable`, `forge_accepted`, `forge_unsent`); `not_authentic` is the conclusion.
-/
import E2EMessaging.Group.Secrecy

namespace E2EMessaging.Group

open E2EMessaging.Lib

/-! ## Authenticity -/

/-- Payload and wrapper for `m` of the frame come from an `encrypt_as` call for `p`. -/
def Produced (w : World) (m : Nat) (p : Term) (f : Frame Term) : Prop :=
  ∃ e ∈ w.sent, e.plaintext = p ∧ e.frame.payload = f.payload ∧
    ∃ wr ∈ e.frame.wrappers, wr.1 = .pub m ∧ wr ∈ f.wrappers

/-- Every frame the adversary can assemble without anyone's private key and `m` accepts was
    produced by an `encrypt_as` call for the plaintext `m` gets. -/
def Authentic (w : World) (m : Nat) : Prop :=
  ∀ (f : Frame Term) (p : Term), (∀ x ∈ f.parts, Derives Rule (knowledge w ∅) x) →
    decryptFrame symbolic (.ofKeyPair symbolic m) f = .ok p → Produced w m p f

/-! ## The forgery -/

/-- A frame for `m`, sealed and encrypted under a key of the adversary's own. -/
def forge (m : Nat) (p : Bytes) : Frame Term where
  nonce := .adversary 1
  payload := .aead (.adversary 0) (.adversary 1) (.data p)
  wrappers := [(.pub m, .sealed m (.adversary 0) (.adversary 2))]

/-- It takes no knowledge of the run at all. -/
theorem forge_derivable (K : Set Term) (m : Nat) (p : Bytes) :
    ∀ x ∈ (forge m p).parts, Derives Rule K x := by
  rintro x (rfl | rfl | ⟨wr, hwr, hx⟩)
  · exact .axm (.adversary 1)
  · refine .apply (.encrypt (.adversary 0) (.adversary 1) (.data p)) ?_
    intro q hq
    simp only [List.mem_cons, List.not_mem_nil, or_false] at hq
    rcases hq with rfl | rfl | rfl
    · exact .axm (.adversary 0)
    · exact .axm (.adversary 1)
    · exact .axm (.data p)
  · obtain rfl := List.mem_singleton.mp hwr
    rcases hx with rfl | rfl
    · exact .axm (.pub m)
    · exact .binary (.sealTo m (.adversary 0) (.adversary 2)) (.axm (.adversary 0))
        (.axm (.adversary 2))

/-- The recipient unseals the adversary's key and decrypts with it. -/
theorem forge_accepted (m : Nat) (p : Bytes) :
    decryptFrame symbolic (.ofKeyPair symbolic m) (forge m p) = .ok (.data p) := by
  simp [decryptFrame, forge, findSealed, openPayload, Caller.ofKeyPair, symbolic]

/-- No `encrypt_as` produced it: every sent payload is encrypted under an HKDF output. -/
theorem forge_unsent (calls : List Call) (m : Nat) (p : Bytes) :
    ∀ e ∈ (runCalls calls).sent, e.frame.payload ≠ (forge m p).payload := by
  intro e he hpayload
  rw [((plain_run calls).genuine e he).payload, (runCalls_tracks calls).key e he] at hpayload
  simp [forge, msgKey, symbolic] at hpayload

/-- **Group frames are not authentic**, after any run and for any recipient. -/
theorem not_authentic (calls : List Call) (m : Nat) : ¬ Authentic (runCalls calls) m := by
  intro hauth
  obtain ⟨e, he, -, hpayload, -⟩ :=
    hauth (forge m [104, 105]) (.data [104, 105]) (forge_derivable _ m _) (forge_accepted m _)
  exact forge_unsent calls m _ e he hpayload

/-- One group, one member, no message sent yet — and the member accepts a message. -/
theorem first_message_forged :
    ¬ Authentic (runCalls [.new 0, .addMember 0 1]) 1 := by
  intro hauth
  obtain ⟨e, he, -⟩ :=
    hauth (forge 1 [104, 105]) (.data [104, 105]) (forge_derivable _ 1 _) (forge_accepted 1 _)
  exact absurd he List.not_mem_nil

end E2EMessaging.Group
