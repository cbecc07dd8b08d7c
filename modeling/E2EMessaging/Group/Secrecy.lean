/-
  WHO CAN LEARN A MESSAGE KEY (symbolic model of `core/protocol/src/group.rs`).

  A run is any list of calls of `GroupSession::new`, `add_member`, `remove_member`,
  `rotate_sender_key` and `encrypt_as` on any number of sessions; sessions are moved, not cloned.
  The adversary knows every public key, every part of every frame `encrypt_as` returned, and the
  private keys of a set `C` of identities; it may apply every `Rule`.

  The module documentation says that recovering a message key requires the private key of a member.
  Whether it does depends on where the chain key comes from, and on nothing else
  (`secret_iff_rotated`):

  * a chain key that has been replaced by a CSPRNG draw is secret, and so is every message key on
    its line, unless a member of that very message's roster is in `C`;
  * a chain key that still descends from `GroupSession::new` is a public function of the sender's
    PUBLIC key: anyone computes it, and with it every message key until the first rotation.

  Secrecy is the closed-set method: `Safe` is a set of terms that contains everything on the wire,
  is closed under the rules and misses the key.  Because `open_sealed` with the key of a compromised
  member does reveal that member's message keys, `Safe` must contain those; that no OTHER message
  has one of them as its key is where the run matters (`Linear`: a drawn line belongs to one
  session, and is sent from once at each step).
-/
import Mathlib.Data.List.Pairwise
import E2EMessaging.Group.History

namespace E2EMessaging.Group

open E2EMessaging.Lib World

/-! ## Runs of calls -/

/-- A call, with arguments of the types the functions take: identities by index, plaintexts as
    bytes. -/
inductive Call where
  | new (sender : Nat)
  | addMember (h : Nat) (member : Nat)
  | removeMember (h : Nat) (member : Nat)
  | rotateSenderKey (h : Nat)
  | encryptAs (h : Nat) (plaintext : Bytes)
  deriving Repr, DecidableEq

/-- The call as an operation on the world. -/
def Call.op : Call → GroupOp
  | .new sender => .new (.pub sender)
  | .addMember h m => .addMember h (.pub m)
  | .removeMember h m => .removeMember h (.pub m)
  | .rotateSenderKey h => .rotateSenderKey h
  | .encryptAs h p => .encryptAs h (.data p)

/-- The world after a run of calls. -/
def runCalls (calls : List Call) : World := run World.step World.empty (calls.map Call.op)

theorem runCalls_concat (calls : List Call) (c : Call) :
    runCalls (calls ++ [c]) = (runCalls calls).step c.op := by
  rw [runCalls, List.map_append, List.map_singleton, run_concat]
  rfl

/-- The invariant rule for runs of calls. -/
theorem runCalls_inv {I : World → Prop} (h0 : I World.empty)
    (hstep : ∀ w c, I w → I (w.step (Call.op c))) (calls : List Call) : I (runCalls calls) := by
  induction calls using List.reverseRecOn with
  | nil => exact h0
  | append_singleton calls c ih =>
    rw [runCalls_concat]
    exact hstep _ c ih

/-! ## A drawn line belongs to one session -/

/-- Sessions are moved, never copied: draws are below the generator's state, no two handles are on
    lines from one draw, and every message from a draw lies behind the session that holds it — so
    the messages from a draw are all on different lines. -/
structure Linear (w : World) : Prop where
  session_lt : ∀ (i : Nat) t n, w.sessions[i]? = some t → t.line.origin = .drawn n → n < w.rng
  sent_lt : ∀ e ∈ w.sent, ∀ n, e.line.origin = .drawn n → n < w.rng
  solo : ∀ (i j : Nat) t u n, w.sessions[i]? = some t → w.sessions[j]? = some u →
    t.line.origin = .drawn n → u.line.origin = .drawn n → i = j
  behind : ∀ e ∈ w.sent, ∀ (i : Nat) t n, w.sessions[i]? = some t → e.line.origin = .drawn n →
    t.line.origin = .drawn n → e.line.depth < t.line.depth
  distinct : w.sent.Pairwise fun e e' => ∀ n, e.line.origin = .drawn n → e.line ≠ e'.line

/-- With no session and no message there is nothing to keep apart. -/
theorem linear_empty : Linear World.empty where
  session_lt := by simp [World.empty]
  sent_lt := by simp [World.empty]
  solo := by simp [World.empty]
  behind := by simp [World.empty]
  distinct := List.Pairwise.nil

/-- A write to one handle changes the session of that handle. -/
theorem getElem?_put {w : World} {h j : Nat} {t' u : Tracked}
    (hj : (w.put h t').sessions[j]? = some u) :
    (j = h ∧ u = t') ∨ (j ≠ h ∧ w.sessions[j]? = some u) := by
  rw [World.put] at hj
  dsimp only at hj
  rw [List.getElem?_set] at hj
  by_cases hjh : h = j
  · rw [if_pos hjh] at hj
    split at hj
    · exact .inl ⟨hjh.symm, (Option.some.inj hj).symm⟩
    · simp at hj
  · rw [if_neg hjh] at hj
    exact .inr ⟨fun he => hjh he.symm, hj⟩

/-- A handle moves on along its own line. -/
theorem Linear.put_along {w : World} (hw : Linear w) {h : Nat} {t t' : Tracked}
    (ht : w.sessions[h]? = some t) (ho : t'.line.origin = t.line.origin)
    (hd : t.line.depth ≤ t'.line.depth) : Linear (w.put h t') where
  session_lt := by
    intro i u n hi hu
    rcases getElem?_put hi with ⟨rfl, rfl⟩ | ⟨-, hold⟩
    · exact hw.session_lt _ t n ht (by rw [← ho]; exact hu)
    · exact hw.session_lt i u n hold hu
  sent_lt := hw.sent_lt
  solo := by
    intro i j u v n hi hj hu hv
    rcases getElem?_put hi with ⟨rfl, rfl⟩ | ⟨-, hiold⟩
    · rcases getElem?_put hj with ⟨rfl, -⟩ | ⟨-, hjold⟩
      · rfl
      · exact hw.solo _ j t v n ht hjold (by rw [← ho]; exact hu) hv
    · rcases getElem?_put hj with ⟨rfl, rfl⟩ | ⟨-, hjold⟩
      · exact hw.solo i _ u t n hiold ht hu (by rw [← ho]; exact hv)
      · exact hw.solo i j u v n hiold hjold hu hv
  behind := by
    intro e he i u n hi hen hu
    rcases getElem?_put hi with ⟨rfl, rfl⟩ | ⟨-, hold⟩
    · exact Nat.lt_of_lt_of_le (hw.behind e he _ t n ht hen (by rw [← ho]; exact hu)) hd
    · exact hw.behind e he i u n hold hen hu
  distinct := hw.distinct

/-- More draws are made. -/
theorem Linear.drawn {w : World} (hw : Linear w) {n : Nat} (hn : w.rng ≤ n) : Linear (w.drawn n) where
  session_lt := fun i t k hi hk => Nat.lt_of_lt_of_le (hw.session_lt i t k hi hk) hn
  sent_lt := fun e he k hk => Nat.lt_of_lt_of_le (hw.sent_lt e he k hk) hn
  solo := hw.solo
  behind := hw.behind
  distinct := hw.distinct

/-- A handle starts on a fresh draw: nothing else is on a line from it. -/
theorem Linear.put_fresh {w : World} (hw : Linear w) {h : Nat} {t' : Tracked}
    (ho : t'.line.origin = .drawn w.rng) : Linear ((w.put h t').drawn (w.rng + 1)) where
  session_lt := by
    intro i u n hi hu
    rcases getElem?_put hi with ⟨-, rfl⟩ | ⟨-, hold⟩
    · obtain rfl : w.rng = n := by simpa [ho] using hu
      exact Nat.lt_succ_self _
    · exact Nat.lt_succ_of_lt (hw.session_lt i u n hold hu)
  sent_lt := fun e he n hn => Nat.lt_succ_of_lt (hw.sent_lt e he n hn)
  solo := by
    intro i j u v n hi hj hu hv
    rcases getElem?_put hi with ⟨rfl, rfl⟩ | ⟨-, hiold⟩
    · rcases getElem?_put hj with ⟨rfl, -⟩ | ⟨-, hjold⟩
      · rfl
      · obtain rfl : w.rng = n := by simpa [ho] using hu
        exact absurd (hw.session_lt j v _ hjold hv) (Nat.lt_irrefl _)
    · rcases getElem?_put hj with ⟨rfl, rfl⟩ | ⟨-, hjold⟩
      · obtain rfl : w.rng = n := by simpa [ho] using hv
        exact absurd (hw.session_lt i u _ hiold hu) (Nat.lt_irrefl _)
      · exact hw.solo i j u v n hiold hjold hu hv
  behind := by
    intro e he i u n hi hen hu
    rcases getElem?_put hi with ⟨-, rfl⟩ | ⟨-, hold⟩
    · obtain rfl : w.rng = n := by simpa [ho] using hu
      exact absurd (hw.sent_lt e he _ hen) (Nat.lt_irrefl _)
    · exact hw.behind e he i u n hold hen hu
  distinct := hw.distinct

/-- A session created from a public key is on no drawn line. -/
theorem Linear.push_created {w : World} (hw : Linear w) (sender : Term) :
    Linear (w.push (.new sender)) := by
  have hpush : ∀ {i : Nat} {u : Tracked} {n : Nat}, (w.push (.new sender)).sessions[i]? = some u →
      u.line.origin = .drawn n → w.sessions[i]? = some u := by
    intro i u n hi hu
    rw [World.push] at hi
    dsimp only at hi
    rw [List.getElem?_append] at hi
    split at hi
    · exact hi
    · have hmem : u ∈ [Tracked.new sender] := List.mem_of_getElem? hi
      rw [List.mem_singleton.mp hmem] at hu
      simp [Tracked.new] at hu
  exact {
    session_lt := fun i u n hi hu => hw.session_lt i u n (hpush hi hu) hu
    sent_lt := hw.sent_lt
    solo := fun i j u v n hi hj hu hv => hw.solo i j u v n (hpush hi hu) (hpush hj hv) hu hv
    behind := fun e he i u n hi hen hu => hw.behind e he i u n (hpush hi hu) hen hu
    distinct := hw.distinct }

/-- A message is logged, behind the session that has just sent it. -/
theorem Linear.log {w : World} (hw : Linear w) {e : Sent} {h : Nat} {t : Tracked}
    (ht : w.sessions[h]? = some t) (hline : t.line = e.line.next)
    (hfresh : ∀ e' ∈ w.sent, ∀ n, e'.line.origin = .drawn n → e'.line ≠ e.line) :
    Linear { w with sent := w.sent ++ [e] } where
  session_lt := hw.session_lt
  sent_lt := by
    intro e' he' n hn
    rcases List.mem_append.mp he' with hold | hnew
    · exact hw.sent_lt e' hold n hn
    · rw [List.mem_singleton.mp hnew] at hn
      exact hw.session_lt h t n ht (by rw [hline]; exact hn)
  solo := hw.solo
  behind := by
    intro e' he' i u n hi hen hu
    rcases List.mem_append.mp he' with hold | hnew
    · exact hw.behind e' hold i u n hi hen hu
    · rw [List.mem_singleton.mp hnew] at hen ⊢
      obtain rfl : i = h := hw.solo i h u t n hi ht hu (by rw [hline]; exact hen)
      obtain rfl : u = t := Option.some.inj (hi.symm.trans ht)
      rw [hline]
      exact Nat.lt_succ_self _
  distinct := by
    rw [List.pairwise_append]
    refine ⟨hw.distinct, List.pairwise_singleton _ _, ?_⟩
    intro e' he' x hx
    rw [List.mem_singleton.mp hx]
    exact hfresh e' he'

/-- An operation on a handle keeps the lines apart if it does so for the session of that handle. -/
theorem Linear.onHandle {w : World} (hw : Linear w) {h : Nat} {act : Tracked → World}
    (hact : ∀ t, w.sessions[h]? = some t → Linear (act t)) : Linear (w.onHandle h act) := by
  rcases w.onHandle_cases h act with he | ⟨t, ht, he⟩
  · rw [he]
    exact hw
  · rw [he]
    exact hact t ht

/-- A message that is sent is sent from the line the session leaves. -/
theorem encryptAs_line_of_message {t : Tracked} {p : Term} {rng : Nat} {e : Sent}
    (h : message t p rng = some e) : (t.encryptAs p rng).line = e.line.next := by
  obtain ⟨hf, he⟩ := message_eq_some h
  have hlen := (encryptFrame_ok hf).1
  rw [he, Tracked.encryptAs]
  dsimp only
  rw [if_neg (Nat.not_lt.mpr hlen)]

theorem getElem?_put_self {w : World} {h : Nat} {t t' : Tracked} (ht : w.sessions[h]? = some t) :
    (w.put h t').sessions[h]? = some t' := by
  have hlt : h < w.sessions.length := (List.getElem?_eq_some_iff.mp ht).1
  exact List.getElem?_set_self hlt

/-- `encrypt_as` keeps drawn lines apart: the session that sends is alone on its line, and every
    earlier message from it is strictly behind. -/
theorem Linear.encryptAs {w : World} (hw : Linear w) {h : Nat} {t : Tracked} (p : Term)
    (ht : w.sessions[h]? = some t) :
    Linear { (w.put h (t.encryptAs p w.rng)).drawn (t.session.encryptFrame symbolic p w.rng).2.1 with
      sent := w.sent ++ (message t p w.rng).toList } := by
  have hmoved : Linear ((w.put h (t.encryptAs p w.rng)).drawn
      (t.session.encryptFrame symbolic p w.rng).2.1) :=
    (hw.put_along ht (t.encryptAs_origin p w.rng) (t.encryptAs_depth p w.rng)).drawn
      (encryptFrame_rng_le symbolic t.session p w.rng)
  cases hmsg : message t p w.rng with
  | none =>
    rw [Option.toList_none, List.append_nil]
    exact hmoved
  | some e =>
    have hline : e.line = t.line := by rw [(message_eq_some hmsg).2]
    refine hmoved.log (getElem?_put_self ht) (encryptAs_line_of_message hmsg) ?_
    intro e' he' n hn heq
    have hlt := hw.behind e' he' h t n ht hn (by rw [← hline, ← heq]; exact hn)
    rw [heq, hline] at hlt
    exact Nat.lt_irrefl _ hlt

/-- One call keeps drawn lines apart. -/
theorem Linear.step {w : World} (hw : Linear w) (c : Call) : Linear (w.step c.op) := by
  cases c with
  | new sender => exact hw.push_created _
  | addMember h m => exact hw.onHandle fun t ht => hw.put_along ht rfl (Nat.le_refl _)
  | removeMember h m => exact hw.onHandle fun t _ => hw.put_fresh rfl
  | rotateSenderKey h => exact hw.onHandle fun t _ => hw.put_fresh rfl
  | encryptAs h p => exact hw.onHandle fun t ht => hw.encryptAs _ ht

/-- In every run of calls that consume the session they are called on, no two handles stand for
    one line. -/
theorem linear_run (calls : List Call) : Linear (runCalls calls) :=
  runCalls_inv linear_empty (fun _ c hw => hw.step c) calls

/-- Two messages from one drawn line are one message. -/
theorem Linear.eq_of_line {w : World} (hw : Linear w) {e e' : Sent} (he : e ∈ w.sent)
    (he' : e' ∈ w.sent) {n : Nat} (hn : e.line.origin = .drawn n) (hline : e.line = e'.line) :
    e = e' := by
  have hsymm : Std.Symm fun e e' : Sent => ∀ n, e.line.origin = .drawn n → e.line ≠ e'.line :=
    ⟨fun x y hxy k hk heq => hxy k (by rw [← heq]; exact hk) heq.symm⟩
  by_contra hne
  exact hw.distinct.forall he he' hne n hn hline

/-! ## What is on the wire, and where chain keys come from -/

/-- The log of a run of calls: genuine messages of byte plaintexts, and every session and message
    on a line from a public key or from a draw. -/
structure Plain (w : World) : Prop where
  genuine : ∀ e ∈ w.sent, Genuine e
  plaintext : ∀ e ∈ w.sent, ∃ bs, e.plaintext = .data bs
  session_origin : ∀ t ∈ w.sessions, ∀ s, t.line.origin = .created s → ∃ i, s = .pub i
  sent_origin : ∀ e ∈ w.sent, ∀ s, e.line.origin = .created s → ∃ i, s = .pub i

theorem plain_empty : Plain World.empty where
  genuine := fun _ h => absurd h List.not_mem_nil
  plaintext := fun _ h => absurd h List.not_mem_nil
  session_origin := fun _ h => absurd h List.not_mem_nil
  sent_origin := fun _ h => absurd h List.not_mem_nil

/-- A call sends a byte plaintext, and starts lines at public keys and draws only. -/
theorem Plain.step {w : World} (hw : Plain w) (c : Call) : Plain (w.step c.op) := by
  have hlog : ∀ e ∈ (w.step c.op).sent, e ∈ w.sent ∨
      ∃ (h : Nat) (bs : Bytes) (t : Tracked), w.sessions[h]? = some t ∧
        message t (.data bs) w.rng = some e := by
    intro e he
    rw [step_sent] at he
    rcases List.mem_append.mp he with hold | hnew
    · exact .inl hold
    · obtain ⟨h, p, t, hop, ht, hmsg⟩ := sentBy_eq_some (Option.mem_toList.mp hnew)
      cases c with
      | encryptAs h' bs =>
        obtain ⟨-, rfl⟩ : h' = h ∧ .data bs = p := by simpa [Call.op] using hop
        exact .inr ⟨h, bs, t, ht, hmsg⟩
      | _ => simp [Call.op] at hop
  refine ⟨?_, ?_, ?_, ?_⟩
  · intro e he
    rcases hlog e he with hold | ⟨h, bs, t, -, hmsg⟩
    · exact hw.genuine e hold
    · exact message_genuine hmsg
  · intro e he
    rcases hlog e he with hold | ⟨h, bs, t, -, hmsg⟩
    · exact hw.plaintext e hold
    · exact ⟨bs, by rw [(message_eq_some hmsg).2]⟩
  · intro t' ht' s hs
    rcases mem_step_sessions ht' with hold | hmade
    · exact hw.session_origin t' hold s hs
    · cases hmade with
      | new hop =>
        cases c with
        | new sender =>
          simp only [Call.op, GroupOp.new.injEq] at hop
          simp only [Tracked.new, Origin.created.injEq] at hs
          exact ⟨sender, by rw [← hs, ← hop]⟩
        | _ => simp [Call.op] at hop
      | addMember ht m => exact hw.session_origin _ ht s hs
      | removeMember ht m => simp [Tracked.removeMember] at hs
      | rotateSenderKey ht => simp [Tracked.rotateSenderKey] at hs
      | encryptAs ht p => exact hw.session_origin _ ht s (by rw [← Tracked.encryptAs_origin]; exact hs)
  · intro e he s hs
    rcases hlog e he with hold | ⟨h, bs, t, ht, hmsg⟩
    · exact hw.sent_origin e hold s hs
    · rw [(message_eq_some hmsg).2] at hs
      exact hw.session_origin t (List.mem_of_getElem? ht) s hs

/-- So it is after any calls: what is on the wire is of a form the induction over derivations can
    name. -/
theorem plain_run (calls : List Call) : Plain (runCalls calls) :=
  runCalls_inv plain_empty (fun _ c hw => hw.step c) calls

theorem runCalls_tracks (calls : List Call) : (runCalls calls).Tracks := tracks_run _

/-! ## The adversary -/

/-- What a frame shows. -/
def Frame.parts (f : Frame Term) : Set Term :=
  {x | x = f.nonce ∨ x = f.payload ∨ ∃ w ∈ f.wrappers, x = w.1 ∨ x = w.2}

/-- What the adversary starts from: every frame on the wire and the private keys of `C`. -/
def knowledge (w : World) (C : Set Nat) : Set Term :=
  {x | (∃ e ∈ w.sent, x ∈ e.frame.parts) ∨ ∃ i ∈ C, x = .priv i}

/-- The message keys that `open_sealed` with a private key of `C` gives away. -/
def Opened (w : World) (C : Set Nat) (k : Term) : Prop :=
  ∃ e ∈ w.sent, k = e.key ∧ ∃ i ∈ C, .pub i ∈ e.roster

/-- The terms the adversary may come to know; an HKDF output that is neither a nonce nor an opened
    message key is no better protected than its input. -/
def Safe (w : World) (C : Set Nat) : Term → Prop
  | .pub _ => True
  | .priv i => i ∈ C
  | .draw _ => False
  | .adversary _ => True
  | .data _ => True
  | .hkdf salt ikm info len =>
    Safe w C ikm ∨ info = "nonce" ∨ Opened w C (.hkdf salt ikm info len)
  | .aead key _ msg => Safe w C key → Safe w C msg
  | .sealed i msg _ => i ∈ C → Safe w C msg

/-- What is safe to know stays safe under every rule of deduction: this is the induction over
    derivations. -/
theorem safe_closed (w : World) (C : Set Nat) : ClosedUnder Rule {x | Safe w C x} := by
  intro ps m hr hps
  cases hr with
  | pub i => trivial
  | data bs => trivial
  | adversary n => trivial
  | hkdf salt ikm info len => exact .inl (hps ikm (by simp))
  | encrypt key nonce msg => exact fun _ => hps msg (by simp)
  | decrypt key nonce => exact hps (.aead key nonce m) (by simp) (hps key (by simp))
  | sealTo i msg rnd => exact fun _ => hps msg (by simp)
  | openSealed i _ rnd => exact hps (.sealed i m rnd) (by simp) (hps (.priv i) (by simp))

/-- Everything on the wire is safe: only wrappers for members in `C` open, and what they give away
    counts as opened. -/
theorem knowledge_safe {w : World} (hw : Plain w) (ht : w.Tracks) (C : Set Nat) :
    knowledge w C ⊆ {x | Safe w C x} := by
  rintro x (⟨e, he, hpart⟩ | ⟨i, hi, rfl⟩)
  · have hg := hw.genuine e he
    rcases hpart with rfl | rfl | ⟨wr, hwr, hx⟩
    · rw [hg.nonce, ht.nonce e he]
      exact .inr (.inl rfl)
    · obtain ⟨bs, hbs⟩ := hw.plaintext e he
      rw [hg.payload, hbs]
      exact fun _ => trivial
    · obtain ⟨i, n, rfl⟩ := hg.wrappers wr hwr
      rcases hx with rfl | rfl
      · trivial
      · intro hi
        have hroster : .pub i ∈ e.roster := by
          rw [← hg.roster]
          exact List.mem_map_of_mem hwr
        have hopened : Opened w C e.key := ⟨e, he, rfl, i, hi, hroster⟩
        rw [ht.key e he] at hopened ⊢
        exact .inr (.inr hopened)
  · exact hi

/-- No chain key on a drawn line is safe: it is no message key, hence never opened. -/
theorem not_safe_chainKey {w : World} (ht : w.Tracks) (C : Set Nat) (n d : Nat) :
    ¬ Safe w C (Line.chainKey ⟨.drawn n, d⟩) := by
  induction d with
  | zero => exact id
  | succ d ih =>
    rintro (hprev | hlabel | ⟨e, he, hkey, -⟩)
    · exact ih hprev
    · simp at hlabel
    · rw [ht.key e he] at hkey
      simp [msgKey, symbolic] at hkey

/-! ## Who can learn a message key -/

/-- A message sent from a drawn line: its key is safe only if one of its own members is in `C`. -/
theorem not_safe_key {w : World} (hl : Linear w) (ht : w.Tracks) {C : Set Nat} {e : Sent}
    (he : e ∈ w.sent) {n : Nat} (hn : e.line.origin = .drawn n)
    (hC : ∀ i ∈ C, .pub i ∉ e.roster) : ¬ Safe w C e.key := by
  have hck : ¬ Safe w C e.line.chainKey := by
    have hline : e.line = ⟨.drawn n, e.line.depth⟩ := by rw [← hn]
    rw [hline]
    exact not_safe_chainKey ht C n _
  rw [ht.key e he]
  rintro (hprev | hlabel | ⟨e', he', hkey, i, hi, hroster⟩)
  · exact hck hprev
  · simp at hlabel
  · -- the opened key is this message's own, so the compromised member is in its roster
    rw [ht.key e' he'] at hkey
    have hline : e.line = e'.line := Line.chainKey_injective (msgKey_injective hkey)
    rw [← hl.eq_of_line he he' hn hline] at hroster
    exact hC i hi hroster

/-- A member of the roster opens its wrapper. -/
theorem derives_key_of_member {w : World} (hw : Plain w) {C : Set Nat} {e : Sent} (he : e ∈ w.sent)
    {i : Nat} (hi : i ∈ C) (hroster : .pub i ∈ e.roster) :
    Derives Rule (knowledge w C) e.key := by
  have hg := hw.genuine e he
  rw [← hg.roster] at hroster
  obtain ⟨wr, hwr, hfst⟩ := List.mem_map.mp hroster
  obtain ⟨j, n, rfl⟩ := hg.wrappers wr hwr
  obtain rfl : j = i := by simpa using hfst
  exact .binary (.openSealed j e.key (.draw n))
    (.known (.inl ⟨e, he, .inr (.inr ⟨_, hwr, .inr rfl⟩)⟩)) (.known (.inr ⟨j, hi, rfl⟩))

/-- A chain key that descends from `GroupSession::new` is computed from a public key. -/
theorem derives_key_of_created {w : World} (hw : Plain w) (ht : w.Tracks) (K : Set Term)
    {e : Sent} (he : e ∈ w.sent) {s : Term} (hs : e.line.origin = .created s) :
    Derives Rule K e.key := by
  obtain ⟨i, rfl⟩ := hw.sent_origin e he s hs
  have horigin : Derives Rule K e.line.origin.key := by
    rw [hs]
    exact derives_expand (.axm (.pub i)) "chain" 32
  rw [ht.key e he]
  exact derives_expand (derives_chainKey horigin) "msg" 32

/-- **Who can learn a message key**: anyone, if its chain key descends from `GroupSession::new`;
    otherwise those who hold the private key of a member of that message's roster. -/
theorem derives_key_iff (calls : List Call) (C : Set Nat) {e : Sent}
    (he : e ∈ (runCalls calls).sent) :
    Derives Rule (knowledge (runCalls calls) C) e.key ↔
      (∃ s, e.line.origin = .created s) ∨ ∃ i ∈ C, .pub i ∈ e.roster := by
  have hw := plain_run calls
  have ht := runCalls_tracks calls
  constructor
  · intro hder
    by_contra hno
    rw [not_or] at hno
    cases horigin : e.line.origin with
    | created s => exact hno.1 ⟨s, horigin⟩
    | drawn n =>
      have hC : ∀ i ∈ C, .pub i ∉ e.roster := fun i hi hin => hno.2 ⟨i, hi, hin⟩
      exact not_derives_of_closed (safe_closed _ C) (knowledge_safe hw ht C)
        (not_safe_key (linear_run calls) ht he horigin hC) hder
  · rintro (⟨s, hs⟩ | ⟨i, hi, hroster⟩)
    · exact derives_key_of_created hw ht _ he hs
    · exact derives_key_of_member hw he hi hroster

/-- No message key of the world is derivable without the private key of a member of the roster the
    message was sent to. -/
def Secret (w : World) : Prop :=
  ∀ e ∈ w.sent, ∀ C : Set Nat, (∀ i ∈ C, .pub i ∉ e.roster) →
    ¬ Derives Rule (knowledge w C) e.key

/-- A message is sent only after the chain key of its session was replaced by a draw: a
    `remove_member` or `rotate_sender_key` lies between the session's `new` and the call. -/
def SendsRotated (w : World) : GroupOp → Prop
  | .encryptAs h p =>
    ∀ t, w.sessions[h]? = some t → Sendable t p → ∃ n, t.line.origin = .drawn n
  | _ => True

/-- A send is rotated if what it sends is on a line that a draw has started. -/
theorem sendsRotated_iff (w : World) (op : GroupOp) :
    SendsRotated w op ↔ ∀ e, w.sentBy op = some e → ∃ n, e.line.origin = .drawn n := by
  cases op with
  | encryptAs h p =>
    constructor
    · intro hrot e he
      obtain ⟨t, ht, hmsg⟩ := Option.bind_eq_some_iff.mp he
      rw [(message_eq_some hmsg).2]
      exact hrot t ht ((message_isSome_iff t p w.rng).mp ⟨e, hmsg⟩)
    · intro hall t ht hsend
      obtain ⟨e, hmsg⟩ := (message_isSome_iff t p w.rng).mpr hsend
      have hn := hall e (Option.bind_eq_some_iff.mpr ⟨t, ht, hmsg⟩)
      rw [(message_eq_some hmsg).2] at hn
      exact hn
  | _ => simp [SendsRotated, sentBy]

/-- All messages of a run are from draws exactly if each call that sends one is on a rotated
    session. -/
theorem sent_drawn_iff (ops : List GroupOp) :
    (∀ e ∈ (run World.step World.empty ops).sent, ∃ n, e.line.origin = .drawn n) ↔
      Meets World.step SendsRotated World.empty ops := by
  induction ops using List.reverseRecOn with
  | nil => simp [World.empty, Meets]
  | append_singleton ops op ih =>
    rw [run_concat, meets_concat, step_sent, ← ih, sendsRotated_iff]
    simp only [List.mem_append, Option.mem_toList, or_imp, forall_and]

/-- **Exactly when the message keys of a run are secret**: no message is sent on a chain key that
    still descends from the sender's public key. -/
theorem secret_iff_rotated (calls : List Call) :
    Secret (runCalls calls) ↔ Meets World.step SendsRotated World.empty (calls.map Call.op) := by
  rw [← sent_drawn_iff]
  constructor
  · intro hsecret e he
    cases horigin : e.line.origin with
    | drawn n => exact ⟨n, rfl⟩
    | created s =>
      have hder := (derives_key_iff calls ∅ he).mpr (.inl ⟨s, horigin⟩)
      exact absurd hder (hsecret e he ∅ (fun i hi => absurd hi (Set.notMem_empty i)))
  · intro hdrawn e he C hC hder
    obtain ⟨n, hn⟩ := hdrawn e he
    rcases (derives_key_iff calls C he).mp hder with ⟨s, hs⟩ | ⟨i, hi, hroster⟩
    · rw [hn] at hs
      cases hs
    · exact hC i hi hroster

/-- A new group, one member, one message: whoever sees the sender's public key has the message
    key. -/
theorem key_public_before_rotation :
    ¬ Secret (runCalls [.new 0, .addMember 0 1, .encryptAs 0 [104, 105]]) := by
  intro hsecret
  obtain ⟨e, he, horigin⟩ :
      ∃ e ∈ (runCalls [.new 0, .addMember 0 1, .encryptAs 0 [104, 105]]).sent,
        e.line.origin = .created (.pub 0) := by decide
  exact hsecret e he ∅ (fun i hi => absurd hi (Set.notMem_empty i))
    ((derives_key_iff _ ∅ he).mpr (.inl ⟨_, horigin⟩))

end E2EMessaging.Group
