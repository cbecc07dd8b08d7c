/-
  GROUP KEYS AS FREE TERMS (the symbolic, Dolev–Yao reading of `core/protocol/src/group.rs`).

  A byte string is a `Term`: an identity's public or private key, a CSPRNG draw, plain data, an
  HKDF output, an AES-GCM ciphertext, a sealed blob, or randomness of the adversary's own.  Terms
  are FREE — two terms are the same byte string only if they were built in the same way — which is
  what "HKDF is injective and one-way, every draw is fresh, AEAD and seal open only with the right
  key" means here.  `symbolic` instantiates the session code of `Group.Session` at terms.

  Every chain key of the code is a LINE: an ORIGIN — the sender's public key (`GroupSession::new`)
  or one CSPRNG draw (`rotate_sender_key`, `remove_member`) — and the number of ratchet steps taken
  since.  `Line.chainKey_injective` is the crux of everything that is said about key reuse and
  exposure: a chain key determines its line.

  `Rule` is what anyone can do with byte strings they hold: HKDF with any salt and label, AES-GCM
  and `seal` with keys of their choice, and opening with the right key.
-/
import E2EMessaging.Group.Session
import E2EMessaging.Lib.Deduction

namespace E2EMessaging.Group

open E2EMessaging.Lib

/-! ## Terms -/

/-- Symbolic byte strings. -/
inductive Term where
  /-- The serialised public key of identity `i`. -/
  | pub (i : Nat)
  /-- The private key of identity `i`. -/
  | priv (i : Nat)
  /-- The `n`-th CSPRNG draw of the honest parties. -/
  | draw (n : Nat)
  /-- Randomness of the adversary's own. -/
  | adversary (n : Nat)
  /-- Bytes that are no secret. -/
  | data (bs : Bytes)
  /-- HKDF-SHA256 output: salt, input key, label, output length.  No salt is the empty salt. -/
  | hkdf (salt ikm : Term) (info : String) (len : Nat)
  /-- An AES-256-GCM ciphertext: key, nonce, plaintext. -/
  | aead (key nonce msg : Term)
  /-- A blob sealed to identity `i`: content and the randomness of the ephemeral key. -/
  | sealed (i : Nat) (msg rnd : Term)
  deriving Repr, DecidableEq

/-- AES-GCM takes plaintexts of at most `2^36` bytes. -/
def Term.encryptable : Term → Bool
  | .data bs => decide (bs.length ≤ 2 ^ 36)
  | _ => true

/-- The byte strings `IdentityKey::decode` accepts: genuine public keys. -/
def Term.isPublicKey : Term → Bool
  | .pub _ => true
  | _ => false

/-- The primitives on terms; a key pair is the index of its identity. -/
def symbolic : Suite Term Nat where
  hkdf := fun ikm info len => .hkdf (.data []) ikm info len
  aesNew := fun key => .ok key
  aesEncrypt := fun c nonce m => if m.encryptable then .ok (.aead c nonce m) else .error "aead::Error"
  aesDecrypt := fun c nonce ct =>
    match ct with
    | .aead c' nonce' m => if c = c' ∧ nonce = nonce' then .ok m else .error "aead::Error"
    | _ => .error "aead::Error"
  publicKey := fun i => .pub i
  sealTo := fun pk m n =>
    match pk with
    | .pub i => .ok (.sealed i m (.draw n))
    | _ => .error .malformed
  openSealed := fun i blob =>
    match blob with
    | .sealed j m _ => if i = j then .ok m else .error .decryptionFailed
    | _ => .error .malformed
  osRng := fun n => .draw n

theorem symbolic_sealTo_ok {pk key blob : Term} {n : Nat}
    (h : symbolic.sealTo pk key n = .ok blob) :
    ∃ i, pk = .pub i ∧ blob = .sealed i key (.draw n) := by
  cases pk with
  | pub i =>
    obtain rfl : Term.sealed i key (.draw n) = blob := by simpa [symbolic] using h
    exact ⟨i, rfl, rfl⟩
  | _ => simp [symbolic] at h

/-- `encrypt_as` succeeds exactly if the roster fits, every entry is a genuine public key, and
    AES-GCM takes the plaintext. -/
theorem encryptFrame_symbolic_iff (s : GroupSession Term) (p : Term) (rng : Nat) :
    (∃ f, (s.encryptFrame symbolic p rng).2.2 = .ok f) ↔
      s.members.length ≤ maxMembers ∧ (∀ m ∈ s.members, m.isPublicKey) ∧ p.encryptable := by
  constructor
  · rintro ⟨f, hf⟩
    obtain ⟨hlen, ⟨c, -, henc⟩, -, hmap, hws⟩ := encryptFrame_ok hf
    refine ⟨hlen, ?_, ?_⟩
    · intro m hm
      rw [← hmap] at hm
      obtain ⟨w, hw, rfl⟩ := List.mem_map.mp hm
      obtain ⟨n, hseal⟩ := hws w hw
      obtain ⟨i, hi, -⟩ := symbolic_sealTo_ok hseal
      rw [hi]
      rfl
    · by_contra hp
      simp [symbolic, hp] at henc
  · rintro ⟨hlen, hmem, hp⟩
    have henc : symbolic.aesEncrypt (msgKey symbolic s.chainKey) (msgNonce symbolic s.chainKey) p =
        .ok (.aead (msgKey symbolic s.chainKey) (msgNonce symbolic s.chainKey) p) := if_pos hp
    have hnew : symbolic.aesNew (msgKey symbolic s.chainKey) = .ok (msgKey symbolic s.chainKey) :=
      rfl
    rw [GroupSession.encryptFrame, if_neg (Nat.not_lt.mpr hlen)]
    simp only [hnew, henc]
    cases hseal : sealAll symbolic (msgKey symbolic s.chainKey) s.members rng with
    | mk r res =>
      cases res with
      | ok ws => exact ⟨_, rfl⟩
      | error e =>
        obtain ⟨m, hm, n, e', he⟩ := sealAll_error hseal
        have hpk := hmem m hm
        cases m with
        | pub i => simp [symbolic] at he
        | _ => simp [Term.isPublicKey] at hpk

/-! ## Lines: what a chain key is derived from -/

/-- Where a chain key starts. -/
inductive Origin where
  /-- `GroupSession::new` for this sender. -/
  | created (sender : Term)
  /-- The CSPRNG draw of a `rotate_sender_key` or `remove_member`. -/
  | drawn (n : Nat)
  deriving Repr, DecidableEq

/-- The chain key a session starts with. -/
def Origin.key : Origin → Term
  | .created sender => symbolic.hkdf sender "chain" 32
  | .drawn n => .draw n

/-- A position in the life of a chain key: its origin, and the ratchet steps taken since. -/
structure Line where
  origin : Origin
  depth : Nat
  deriving Repr, DecidableEq

/-- One ratchet step further on the line. -/
def Line.next (l : Line) : Line := { l with depth := l.depth + 1 }

/-- `d` ratchet steps. -/
def ratchet (k : Term) : Nat → Term
  | 0 => k
  | d + 1 => nextChainKey symbolic (ratchet k d)

/-- The chain key at a position. -/
def Line.chainKey (l : Line) : Term := ratchet l.origin.key l.depth

@[simp] theorem Line.chainKey_next (l : Line) :
    l.next.chainKey = nextChainKey symbolic l.chainKey := rfl

/-- No origin is itself a ratchet output. -/
theorem Origin.key_ne_next (o : Origin) (k : Term) : o.key ≠ nextChainKey symbolic k := by
  cases o with
  | created sender => simp [Origin.key, nextChainKey, symbolic]
  | drawn n => simp [Origin.key, nextChainKey, symbolic]

theorem Origin.key_injective : Function.Injective Origin.key := by
  intro o o' h
  cases o with
  | created s =>
    cases o' with
    | created s' =>
      obtain rfl : s = s' := by simpa [Origin.key, symbolic] using h
      rfl
    | drawn n => simp [Origin.key, symbolic] at h
  | drawn n =>
    cases o' with
    | created s' => simp [Origin.key, symbolic] at h
    | drawn n' =>
      obtain rfl : n = n' := by simpa [Origin.key] using h
      rfl

theorem nextChainKey_injective : Function.Injective (nextChainKey symbolic) := by
  intro k k' h
  simpa [nextChainKey, symbolic] using h

/-- Stepping back along two equal chain keys: the one with fewer ratchet steps is met at its own
    origin by the other. -/
theorem ratchet_origin_inj {o o' : Origin} :
    ∀ {d d' : Nat}, ratchet o.key d = ratchet o'.key d' → o = o' ∧ d = d'
  | 0, 0, h => ⟨Origin.key_injective h, rfl⟩
  | 0, d' + 1, h => absurd h (Origin.key_ne_next o _)
  | d + 1, 0, h => absurd h.symm (Origin.key_ne_next o' _)
  | d + 1, d' + 1, h => by
    obtain ⟨ho, hd⟩ := ratchet_origin_inj (nextChainKey_injective h)
    exact ⟨ho, by rw [hd]⟩

/-- **A chain key determines its line.** -/
theorem Line.chainKey_injective : Function.Injective Line.chainKey := by
  rintro ⟨o, d⟩ ⟨o', d'⟩ h
  obtain ⟨rfl, rfl⟩ := ratchet_origin_inj h
  rfl

theorem msgKey_injective : Function.Injective (msgKey symbolic) := by
  intro k k' h
  simpa [msgKey, symbolic] using h

/-! ## What anyone can do with byte strings they hold -/

/-- The adversary's rules. -/
inductive Rule : List Term → Term → Prop where
  | pub (i : Nat) : Rule [] (.pub i)
  | data (bs : Bytes) : Rule [] (.data bs)
  | adversary (n : Nat) : Rule [] (.adversary n)
  | hkdf (salt ikm : Term) (info : String) (len : Nat) : Rule [salt, ikm] (.hkdf salt ikm info len)
  | encrypt (key nonce msg : Term) : Rule [key, nonce, msg] (.aead key nonce msg)
  | decrypt (key nonce msg : Term) : Rule [.aead key nonce msg, key] msg
  | sealTo (i : Nat) (msg rnd : Term) : Rule [msg, rnd] (.sealed i msg rnd)
  | openSealed (i : Nat) (msg rnd : Term) : Rule [.sealed i msg rnd, .priv i] msg

/-- Whoever knows an input key knows its HKDF expansions. -/
theorem derives_expand {K : Set Term} {ikm : Term} (h : Derives Rule K ikm) (info : String)
    (len : Nat) : Derives Rule K (symbolic.hkdf ikm info len) :=
  .binary (.hkdf (.data []) ikm info len) (.axm (.data [])) h

/-- Whoever knows an origin knows every chain key on its lines. -/
theorem derives_chainKey {K : Set Term} {l : Line} (h : Derives Rule K l.origin.key) :
    Derives Rule K l.chainKey := by
  obtain ⟨o, d⟩ := l
  induction d with
  | zero => exact h
  | succ d ih => exact derives_expand (ih h) "chain-ratchet" 32

end E2EMessaging.Group
