/-
  WHAT A CAPTURED CHAIN KEY EXPOSES (symbolic model of `core/protocol/src/group.rs`).

  One session, used linearly: `GroupSession::new` for a public key, then any list of operations.
  Somebody captures the chain key at time `t` (after `t` operations) and applies the module's own
  HKDF expansions to it, any number of times.  Of the messages of the run, the captured key exposes
  EXACTLY those sent at some time `j` with `t ≤ j` and no `remove_member` or `rotate_sender_key`
  between `t` and `j` (`exposed_iff`): none from before the capture, since the ratchet is one-way;
  none from after the next rekey, since that chain key is a fresh draw.

  Both directions are one statement about LINES (`expands_msgKey_iff`): an expansion leads from one
  line to the message key of another exactly if they have the same origin and the first is not past
  the second.  What the run contributes is how lines move (`Traced.run_line`): on along one origin
  while nothing rekeys, onto a draw never seen before once something does.
-/
import E2EMessaging.Group.History
import E2EMessaging.Group.Membership

namespace E2EMessaging.Group

open E2EMessaging.Lib

/-! ## Captured keys and message keys of a run -/

/-- The HKDF labels of the module. -/
def labels : List String := ["chain", "msg", "nonce", "chain-ratchet"]

/-- What HKDF expansions with the module's labels make of a key, `k` itself included. -/
inductive Expands (k : Term) : Term → Prop where
  | captured : Expands k k
  | expand {x : Term} (h : Expands k x) {info : String} (hinfo : info ∈ labels) (len : Nat) :
      Expands k (symbolic.hkdf x info len)

/-- The operations that replace the chain key by a draw. -/
def SessionOp.rekeys {B : Type} : SessionOp B → Bool
  | .removeMember _ => true
  | .rotateSenderKey => true
  | .addMember _ => false
  | .encryptAs _ => false

/-- The key of the message an operation sends: `encrypt_as` sends one if it succeeds. -/
def Live.sentKey (s : Live Term) : SessionOp Term → Option Term
  | .encryptAs p =>
    match (s.session.encryptFrame symbolic p s.rng).2.2 with
    | .ok _ => some (msgKey symbolic s.session.chainKey)
    | .error _ => none
  | .addMember _ => none
  | .removeMember _ => none
  | .rotateSenderKey => none

/-- The session after the first `t` operations of a run. -/
def liveAt (sender rng : Nat) (ops : List (SessionOp Term)) (t : Nat) : Live Term :=
  run (Live.step symbolic) (Live.start symbolic (.pub sender) rng) (ops.take t)

/-- The chain key there. -/
def chainKeyAt (sender rng : Nat) (ops : List (SessionOp Term)) (t : Nat) : Term :=
  (liveAt sender rng ops t).session.chainKey

/-- The key of the message the operation number `j` of a run sends, if it sends one. -/
def sentKeyAt (sender rng : Nat) (ops : List (SessionOp Term)) (j : Nat) : Option Term :=
  (ops[j]?).bind (liveAt sender rng ops j).sentKey

/-! ## Expansions and lines -/

/-- An HKDF output is captured as such, or expanded from its input. -/
theorem expands_hkdf {k x : Term} {info : String} {len : Nat}
    (h : Expands k (symbolic.hkdf x info len)) : k = symbolic.hkdf x info len ∨ Expands k x := by
  generalize hy : symbolic.hkdf x info len = y at h
  cases h with
  | captured => exact .inl rfl
  | expand hx _ _ =>
    simp only [symbolic, Term.hkdf.injEq] at hy
    rw [hy.2.1]
    exact .inr hx

/-- The origins a session of a public key can have. -/
def Origin.Proper : Origin → Prop
  | .created s => ∃ i, s = .pub i
  | .drawn _ => True

/-- No chain key expands to a public key: it would have to be one. -/
theorem not_expands_pub (l : Line) (i : Nat) : ¬ Expands l.chainKey (.pub i) := by
  intro h
  generalize hk : l.chainKey = k at h
  cases h with
  | captured =>
    obtain ⟨o, d⟩ := l
    cases d with
    | zero => cases o <;> simp [Line.chainKey, ratchet, Origin.key, symbolic] at hk
    | succ d => simp [Line.chainKey, ratchet, nextChainKey, symbolic] at hk

/-- A chain key that expands to an origin is that origin. -/
theorem expands_origin {l : Line} {o : Origin} (ho : o.Proper)
    (h : Expands l.chainKey o.key) : l = ⟨o, 0⟩ := by
  have hkey : l.chainKey = o.key := by
    cases o with
    | created s =>
      obtain ⟨i, rfl⟩ := ho
      rcases expands_hkdf h with heq | hpub
      · exact heq
      · exact absurd hpub (not_expands_pub l i)
    | drawn n =>
      generalize hk : l.chainKey = k at h
      cases h with
      | captured => rfl
  exact Line.chainKey_injective hkey

/-- Chain keys expand to chain keys further on from the same origin, and to no others. -/
theorem expands_chainKey {l : Line} {o : Origin} (ho : o.Proper) :
    ∀ {d : Nat}, Expands l.chainKey (Line.chainKey ⟨o, d⟩) → l.origin = o ∧ l.depth ≤ d
  | 0, h => by
    rw [expands_origin ho h]
    exact ⟨rfl, Nat.le_refl _⟩
  | d + 1, h => by
    rcases expands_hkdf h with heq | hprev
    · have hl : l = ⟨o, d + 1⟩ := Line.chainKey_injective heq
      rw [hl]
      exact ⟨rfl, Nat.le_refl _⟩
    · obtain ⟨horigin, hdepth⟩ := expands_chainKey (l := l) (d := d) ho hprev
      exact ⟨horigin, Nat.le_succ_of_le hdepth⟩

/-- The ratchet can be run by hand. -/
theorem expands_ratchet (o : Origin) {d d' : Nat} (h : d ≤ d') :
    Expands (Line.chainKey ⟨o, d⟩) (Line.chainKey ⟨o, d'⟩) := by
  induction h with
  | refl => exact .captured
  | step _ ih => exact .expand ih (by decide) 32

/-- **Which message keys a chain key exposes**: those of its own line from its position on. -/
theorem expands_msgKey_iff {l l' : Line} (ho : l'.origin.Proper) :
    Expands l.chainKey (msgKey symbolic l'.chainKey) ↔
      l.origin = l'.origin ∧ l.depth ≤ l'.depth := by
  constructor
  · intro h
    rcases expands_hkdf h with heq | hck
    · -- a chain key is never itself a message key: the labels differ
      obtain ⟨o, d⟩ := l
      cases d with
      | zero => cases o <;> simp [Line.chainKey, ratchet, Origin.key, symbolic] at heq
      | succ d => simp [Line.chainKey, ratchet, nextChainKey, symbolic] at heq
    · exact expands_chainKey ho hck
  · rintro ⟨horigin, hdepth⟩
    obtain ⟨o, d⟩ := l
    obtain ⟨o', d'⟩ := l'
    obtain rfl : o = o' := horigin
    exact .expand (expands_ratchet o hdepth) (by decide) 32

/-! ## How lines move along a run -/

/-- A session with its line, and the draws made. -/
structure Traced where
  tracked : Tracked
  rng : Nat

namespace Traced

/-- The session alone. -/
def live (s : Traced) : Live Term := ⟨s.tracked.session, s.rng⟩

/-- One operation. -/
def step (s : Traced) : SessionOp Term → Traced
  | .addMember m => ⟨s.tracked.addMember m, s.rng⟩
  | .removeMember m => ⟨s.tracked.removeMember m s.rng, s.rng + 1⟩
  | .rotateSenderKey => ⟨s.tracked.rotateSenderKey s.rng, s.rng + 1⟩
  | .encryptAs p =>
    ⟨s.tracked.encryptAs p s.rng, (s.tracked.session.encryptFrame symbolic p s.rng).2.1⟩

/-- `GroupSession::new`. -/
def start (sender rng : Nat) : Traced := ⟨.new (.pub sender), rng⟩

/-- The line is a ghost: without it, a step is a step of the session. -/
theorem live_step (s : Traced) (op : SessionOp Term) :
    (s.step op).live = s.live.step symbolic op := by
  cases op <;> rfl

/-- The line is right, it starts at a public key or at a draw already made. -/
structure Sound (s : Traced) : Prop where
  tracks : s.tracked.Tracks
  proper : s.tracked.line.origin.Proper
  drawn_lt : ∀ n, s.tracked.line.origin = .drawn n → n < s.rng

theorem sound_start (sender rng : Nat) : (start sender rng).Sound where
  tracks := rfl
  proper := ⟨sender, rfl⟩
  drawn_lt := by simp [start, Tracked.new]

theorem rng_le_step (s : Traced) (op : SessionOp Term) : s.rng ≤ (s.step op).rng := by
  cases op with
  | addMember m => exact Nat.le_refl _
  | removeMember m => exact Nat.le_succ _
  | rotateSenderKey => exact Nat.le_succ _
  | encryptAs p => exact encryptFrame_rng_le symbolic s.tracked.session p s.rng

/-- What one operation does to the line: a rekey starts at the next draw, anything else stays with
    the origin and never goes back. -/
theorem step_line (s : Traced) (op : SessionOp Term) :
    (op.rekeys = true ∧ (s.step op).tracked.line.origin = .drawn s.rng ∧
        (s.step op).rng = s.rng + 1) ∨
      (op.rekeys = false ∧ (s.step op).tracked.line.origin = s.tracked.line.origin ∧
        s.tracked.line.depth ≤ (s.step op).tracked.line.depth) := by
  cases op with
  | addMember m => exact .inr ⟨rfl, rfl, Nat.le_refl _⟩
  | removeMember m => exact .inl ⟨rfl, rfl, rfl⟩
  | rotateSenderKey => exact .inl ⟨rfl, rfl, rfl⟩
  | encryptAs p => exact .inr ⟨rfl, s.tracked.encryptAs_origin p s.rng, s.tracked.encryptAs_depth p s.rng⟩

theorem Sound.step {s : Traced} (hs : s.Sound) (op : SessionOp Term) : (s.step op).Sound where
  tracks := by
    cases op with
    | addMember m => exact hs.tracks.addMember m
    | removeMember m => exact Tracked.tracks_removeMember _ m _
    | rotateSenderKey => exact Tracked.tracks_rotateSenderKey _ _
    | encryptAs p => exact hs.tracks.encryptAs p _
  proper := by
    rcases s.step_line op with ⟨-, ho, -⟩ | ⟨-, ho, -⟩
    · rw [ho]
      trivial
    · rw [ho]
      exact hs.proper
  drawn_lt := by
    intro n hn
    rcases s.step_line op with ⟨-, ho, hrng⟩ | ⟨-, ho, -⟩
    · obtain rfl : s.rng = n := by simpa [hn] using ho.symm
      omega
    · exact Nat.lt_of_lt_of_le (hs.drawn_lt n (by rw [← ho]; exact hn)) (s.rng_le_step op)

theorem sound_run (sender rng : Nat) (ops : List (SessionOp Term)) :
    (run step (start sender rng) ops).Sound :=
  run_inv (fun _ op h => h.step op) (sound_start sender rng) ops

/-- What a run does to the line: without a rekey it stays with the origin and never goes back; with
    one, it ends on a draw made during the run. -/
theorem run_line (s : Traced) (ops : List (SessionOp Term)) :
    ((∀ op ∈ ops, op.rekeys = false) ∧
        (run step s ops).tracked.line.origin = s.tracked.line.origin ∧
        s.tracked.line.depth ≤ (run step s ops).tracked.line.depth) ∨
      ((∃ op ∈ ops, op.rekeys = true) ∧
        ∃ n, s.rng ≤ n ∧ (run step s ops).tracked.line.origin = .drawn n) := by
  induction ops generalizing s with
  | nil => exact .inl ⟨fun _ h => absurd h List.not_mem_nil, rfl, Nat.le_refl _⟩
  | cons op ops ih =>
    rw [run_cons]
    rcases ih (s.step op) with ⟨hno, ho, hd⟩ | ⟨⟨op', hop', hre⟩, n, hn, ho⟩
    · rcases s.step_line op with ⟨hre, ho', -⟩ | ⟨hre, ho', hd'⟩
      · exact .inr ⟨⟨op, List.mem_cons_self, hre⟩, s.rng, Nat.le_refl _, ho.trans ho'⟩
      · refine .inl ⟨?_, ho.trans ho', Nat.le_trans hd' hd⟩
        intro x hx
        rcases List.mem_cons.mp hx with rfl | hx
        · exact hre
        · exact hno x hx
    · exact .inr ⟨⟨op', List.mem_cons_of_mem _ hop', hre⟩, n,
        Nat.le_trans (s.rng_le_step op) hn, ho⟩

/-- A message is sent from the line the session leaves by one step. -/
theorem sentKey_eq_some {s : Traced} {op : SessionOp Term} {key : Term}
    (h : s.live.sentKey op = some key) :
    key = msgKey symbolic s.tracked.session.chainKey ∧
      (s.step op).tracked.line = s.tracked.line.next := by
  cases op with
  | encryptAs p =>
    rw [Live.sentKey] at h
    cases hf : (s.live.session.encryptFrame symbolic p s.live.rng).2.2 with
    | error e => simp [hf] at h
    | ok f =>
      rw [hf] at h
      refine ⟨(Option.some.inj h).symm, ?_⟩
      have hlen := (encryptFrame_ok hf).1
      exact if_neg (Nat.not_lt.mpr hlen)
  | _ => simp [Live.sentKey] at h

end Traced

/-! ## Exact exposure -/

/-- The traced session after the first `t` operations. -/
def tracedAt (sender rng : Nat) (ops : List (SessionOp Term)) (t : Nat) : Traced :=
  run Traced.step (Traced.start sender rng) (ops.take t)

theorem tracedAt_live (sender rng : Nat) (ops : List (SessionOp Term)) (t : Nat) :
    (tracedAt sender rng ops t).live = liveAt sender rng ops t := by
  rw [tracedAt, liveAt, run_map Traced.live_step, List.map_id']
  rfl

theorem tracedAt_sound (sender rng : Nat) (ops : List (SessionOp Term)) (t : Nat) :
    (tracedAt sender rng ops t).Sound :=
  Traced.sound_run sender rng _

/-- From an earlier point of the run to a later one. -/
theorem tracedAt_le (sender rng : Nat) (ops : List (SessionOp Term)) {t j : Nat} (h : t ≤ j) :
    tracedAt sender rng ops j =
      run Traced.step (tracedAt sender rng ops t) ((ops.take j).drop t) := by
  have hsplit : ops.take j = ops.take t ++ (ops.take j).drop t := by
    have htake : (ops.take j).take t = ops.take t := by rw [List.take_take, Nat.min_eq_left h]
    rw [← htake, List.take_append_drop]
  rw [tracedAt, tracedAt, ← run_append, ← hsplit]

theorem tracedAt_succ (sender rng : Nat) (ops : List (SessionOp Term)) {j : Nat}
    {op : SessionOp Term} (h : ops[j]? = some op) :
    tracedAt sender rng ops (j + 1) = (tracedAt sender rng ops j).step op := by
  rw [tracedAt, List.take_add_one, h, Option.toList_some, run_concat]
  rfl

/-- **Exact exposure of a captured chain key.**  The chain key captured at `t` expands to the key
    of the message sent at `j` exactly if `j` is not before `t` and no operation between them
    rekeyed the session. -/
theorem exposed_iff (sender rng : Nat) (ops : List (SessionOp Term)) (t j : Nat) (key : Term)
    (hkey : sentKeyAt sender rng ops j = some key) :
    Expands (chainKeyAt sender rng ops t) key ↔
      t ≤ j ∧ ∀ op ∈ (ops.take j).drop t, op.rekeys = false := by
  obtain ⟨op, hop, hsent⟩ := Option.bind_eq_some_iff.mp hkey
  have hst := tracedAt_sound sender rng ops t
  have hsj := tracedAt_sound sender rng ops j
  rw [← tracedAt_live] at hsent
  obtain ⟨rfl, hnext⟩ := Traced.sentKey_eq_some hsent
  have hck : chainKeyAt sender rng ops t = (tracedAt sender rng ops t).tracked.line.chainKey := by
    rw [chainKeyAt, ← tracedAt_live]
    exact hst.tracks
  rw [hck, hsj.tracks, expands_msgKey_iff hsj.proper]
  rcases Nat.lt_or_ge j t with hlt | hle
  · -- sent before the capture: by then the line was past it, or replaced
    refine iff_of_false ?_ (fun h => absurd h.1 (Nat.not_le.mpr hlt))
    rintro ⟨horigin, hdepth⟩
    have hj1 := tracedAt_succ sender rng ops hop
    have hpast := Traced.run_line (tracedAt sender rng ops (j + 1)) ((ops.take t).drop (j + 1))
    rw [← tracedAt_le sender rng ops (Nat.succ_le_of_lt hlt), hj1] at hpast
    rcases hpast with ⟨-, -, hd⟩ | ⟨-, n, hn, ho⟩
    · rw [hnext, Line.next] at hd
      dsimp only at hd
      omega
    · have hlt' := hsj.drawn_lt n (by rw [← horigin]; exact ho)
      have hrng := (tracedAt sender rng ops j).rng_le_step op
      omega
  · -- sent after it: on the same line unless a rekey came between
    have hline := Traced.run_line (tracedAt sender rng ops t) ((ops.take j).drop t)
    rw [← tracedAt_le sender rng ops hle] at hline
    rcases hline with ⟨hno, ho, hd⟩ | ⟨⟨op', hop', hre⟩, n, hn, ho⟩
    · exact iff_of_true ⟨ho.symm, hd⟩ ⟨hle, hno⟩
    · refine iff_of_false ?_ ?_
      · rintro ⟨horigin, -⟩
        have hlt' := hst.drawn_lt n (by rw [horigin]; exact ho)
        omega
      · rintro ⟨-, hno⟩
        rw [hno op' hop'] at hre
        cases hre

/-- Captured after the first of three messages, with a rotation before the third: the first and the
    third are not exposed, the second is. -/
theorem exposed_between :
    let ops : List (SessionOp Term) :=
      [.addMember (.pub 1), .encryptAs (.data [1]), .encryptAs (.data [2]), .rotateSenderKey,
        .encryptAs (.data [3])]
    (∃ key, sentKeyAt 0 0 ops 1 = some key ∧ ¬ Expands (chainKeyAt 0 0 ops 2) key) ∧
    (∃ key, sentKeyAt 0 0 ops 2 = some key ∧ Expands (chainKeyAt 0 0 ops 2) key) ∧
    (∃ key, sentKeyAt 0 0 ops 4 = some key ∧ ¬ Expands (chainKeyAt 0 0 ops 2) key) := by
  intro ops
  refine ⟨⟨_, rfl, ?_⟩, ⟨_, rfl, ?_⟩, ⟨_, rfl, ?_⟩⟩
  · rw [exposed_iff 0 0 ops 2 1 _ rfl]
    decide
  · rw [exposed_iff 0 0 ops 2 2 _ rfl]
    decide
  · rw [exposed_iff 0 0 ops 2 4 _ rfl]
    decide

end E2EMessaging.Group
