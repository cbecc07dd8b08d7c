/-
  SELF-DELIMITING ENCODINGS: what was encoded can be told from whatever follows it.

  A format that concatenates its parts keeps them apart only if each part announces where it ends:
  by a fixed width, by a length in front, by a continuation bit.  `SelfDelimiting enc` says that
  `enc a` can be cancelled off the front of a byte string, value and rest; it composes along a
  concatenation, and at the end of one it is injectivity.

  Optional fields that are OMITTED at their default value (`field`) are told apart by their tag:
  they cancel in front of a rest that starts with other tags only (`field_cancel`).
-/
import Mathlib.Logic.Function.Basic
import E2EMessaging.Lib.Bytes

namespace E2EMessaging.Lib

variable {α β : Type}

/-- What was encoded, and what follows it, are determined by the bytes. -/
def SelfDelimiting (enc : α → Bytes) : Prop :=
  ∀ a a' r r', enc a ++ r = enc a' ++ r' → a = a' ∧ r = r'

/-- An injective encoding of constant width. -/
theorem selfDelimiting_of_length {enc : α → Bytes} {w : Nat} (hlen : ∀ a, (enc a).length = w)
    (hinj : Function.Injective enc) : SelfDelimiting enc := by
  intro a a' r r' h
  obtain ⟨henc, hr⟩ := List.append_inj h (by rw [hlen, hlen])
  exact ⟨hinj henc, hr⟩

theorem SelfDelimiting.comp {enc : α → Bytes} (h : SelfDelimiting enc) {f : β → α}
    (hf : Function.Injective f) : SelfDelimiting (fun b => enc (f b)) := by
  intro b b' r r' heq
  obtain ⟨hf', hr⟩ := h _ _ _ _ heq
  exact ⟨hf hf', hr⟩

/-! ## Integers -/

theorem toLeBytes_inj {w n n' : Nat} (hn : n < 256 ^ w) (hn' : n' < 256 ^ w)
    (h : toLeBytes w n = toLeBytes w n') : n = n' := by
  rw [← fromLeBytes_toLeBytes_of_lt hn, ← fromLeBytes_toLeBytes_of_lt hn', h]

theorem toBeBytes_inj {w n n' : Nat} (hn : n < 256 ^ w) (hn' : n' < 256 ^ w)
    (h : toBeBytes w n = toBeBytes w n') : n = n' :=
  toLeBytes_inj hn hn' (List.reverse_injective h)

/-- Base-128 varints, least significant group first; `fuel` bounds the number of groups. -/
def varintGroups : Nat → Nat → Bytes
  | 0, n => [UInt8.ofNat n]
  | fuel + 1, n =>
    if n < 128 then [UInt8.ofNat n]
    else UInt8.ofNat (128 + n % 128) :: varintGroups fuel (n / 128)

/-- The varint of `n`. -/
def varint (n : Nat) : Bytes := varintGroups n n

theorem varintGroups_small {n : Nat} (h : n < 128) (fuel : Nat) :
    varintGroups fuel n = [UInt8.ofNat n] := by
  cases fuel with
  | zero => rfl
  | succ fuel => exact if_pos h

theorem varintGroups_large {n fuel : Nat} (h : 128 ≤ n) :
    varintGroups (fuel + 1) n = UInt8.ofNat (128 + n % 128) :: varintGroups fuel (n / 128) :=
  if_neg (Nat.not_lt.mpr h)

theorem ofNat_inj {n n' : Nat} (hn : n < 256) (hn' : n' < 256) (h : UInt8.ofNat n = UInt8.ofNat n') :
    n = n' := by
  have hnat := congrArg UInt8.toNat h
  rwa [UInt8.toNat_ofNat_of_lt' hn, UInt8.toNat_ofNat_of_lt' hn'] at hnat

/-- Groups are read one at a time; the continuation bit says whether another follows. -/
theorem varintGroups_cancel {fuel fuel' n n' : Nat} (hn : n ≤ fuel) (hn' : n' ≤ fuel')
    {r r' : Bytes} (h : varintGroups fuel n ++ r = varintGroups fuel' n' ++ r') :
    n = n' ∧ r = r' := by
  induction fuel generalizing fuel' n n' with
  | zero =>
    obtain rfl : n = 0 := by omega
    rcases Nat.lt_or_ge n' 128 with hlt | hge
    · rw [varintGroups_small (by decide), varintGroups_small hlt] at h
      obtain ⟨hb, hr⟩ := List.cons.inj h
      exact ⟨ofNat_inj (by decide) (by omega) hb, hr⟩
    · obtain ⟨k, rfl⟩ : ∃ k, fuel' = k + 1 := ⟨fuel' - 1, by omega⟩
      rw [varintGroups_small (by decide), varintGroups_large hge] at h
      have hb := ofNat_inj (by decide) (by omega) (List.cons.inj h).1
      omega
  | succ fuel ih =>
    rcases Nat.lt_or_ge n 128 with hlt | hge
    · rw [varintGroups_small hlt] at h
      rcases Nat.lt_or_ge n' 128 with hlt' | hge'
      · rw [varintGroups_small hlt'] at h
        obtain ⟨hb, hr⟩ := List.cons.inj h
        exact ⟨ofNat_inj (by omega) (by omega) hb, hr⟩
      · obtain ⟨k, rfl⟩ : ∃ k, fuel' = k + 1 := ⟨fuel' - 1, by omega⟩
        rw [varintGroups_large hge'] at h
        have hb := ofNat_inj (by omega) (by omega) (List.cons.inj h).1
        omega
    · rw [varintGroups_large hge] at h
      rcases Nat.lt_or_ge n' 128 with hlt' | hge'
      · rw [varintGroups_small hlt'] at h
        have hb := ofNat_inj (by omega) (by omega) (List.cons.inj h).1
        omega
      · obtain ⟨k, rfl⟩ : ∃ k, fuel' = k + 1 := ⟨fuel' - 1, by omega⟩
        rw [varintGroups_large hge'] at h
        obtain ⟨hb, hrest⟩ := List.cons.inj h
        have hlow := ofNat_inj (by omega) (by omega) hb
        obtain ⟨hhigh, hr⟩ := ih (by omega) (by omega) hrest
        exact ⟨by omega, hr⟩

theorem selfDelimiting_varint : SelfDelimiting varint :=
  fun _ _ _ _ h => varintGroups_cancel (Nat.le_refl _) (Nat.le_refl _) h

/-! ## Lengths in front -/

/-- A byte string behind its own length. -/
def withLength (len : Nat → Bytes) (bs : Bytes) : Bytes := len bs.length ++ bs

theorem selfDelimiting_withLength {len : Nat → Bytes} (hlen : SelfDelimiting len) :
    SelfDelimiting (withLength len) := by
  intro bs bs' r r' h
  rw [withLength, withLength, List.append_assoc, List.append_assoc] at h
  obtain ⟨hl, hrest⟩ := hlen _ _ _ _ h
  exact List.append_inj hrest hl

/-- A fixed-width big-endian length cancels for byte strings it can count. -/
theorem withLength_be_cancel {w : Nat} {bs bs' r r' : Bytes} (hbs : bs.length < 256 ^ w)
    (hbs' : bs'.length < 256 ^ w)
    (h : withLength (toBeBytes w) bs ++ r = withLength (toBeBytes w) bs' ++ r') :
    bs = bs' ∧ r = r' := by
  rw [withLength, withLength, List.append_assoc, List.append_assoc] at h
  obtain ⟨hl, hrest⟩ := List.append_inj h (by simp)
  exact List.append_inj hrest (toBeBytes_inj hbs hbs' hl)

/-! ## Tagged fields, omitted at their default -/

variable [DecidableEq α]

/-- A field of a message: nothing for the default value, else the tag and the value. -/
def field (tag : UInt8) (default : α) (enc : α → Bytes) (a : α) : Bytes :=
  if a = default then [] else tag :: enc a

/-- A byte string that is empty or starts with one of the tags. -/
def StartsIn (tags : List UInt8) (bs : Bytes) : Prop := ∀ t, bs.head? = some t → t ∈ tags

theorem StartsIn.nil : StartsIn [] [] := by
  intro t ht
  cases ht

theorem StartsIn.field {tags : List UInt8} {r : Bytes} (h : StartsIn tags r) (tag : UInt8)
    (default : α) (enc : α → Bytes) (a : α) :
    StartsIn (tag :: tags) (field tag default enc a ++ r) := by
  intro t ht
  rw [Lib.field] at ht
  split at ht
  · exact List.mem_cons_of_mem _ (h t ht)
  · rw [← Option.some.inj ht]
    exact List.mem_cons_self

/-- Fields cancel in front of what starts with other tags only. -/
theorem field_cancel {tag : UInt8} {tags : List UInt8} (htag : tag ∉ tags) {default : α}
    {enc : α → Bytes} (henc : SelfDelimiting enc) {a a' : α} {r r' : Bytes} (hr : StartsIn tags r)
    (hr' : StartsIn tags r') (h : field tag default enc a ++ r = field tag default enc a' ++ r') :
    a = a' ∧ r = r' := by
  rw [field, field] at h
  by_cases ha : a = default
  · rw [if_pos ha] at h
    by_cases ha' : a' = default
    · rw [if_pos ha'] at h
      exact ⟨ha.trans ha'.symm, h⟩
    · rw [if_neg ha', List.nil_append] at h
      rw [h] at hr
      exact absurd (hr tag rfl) htag
  · rw [if_neg ha] at h
    by_cases ha' : a' = default
    · rw [if_pos ha', List.nil_append] at h
      rw [← h] at hr'
      exact absurd (hr' tag rfl) htag
    · rw [if_neg ha', List.cons_append, List.cons_append] at h
      exact henc _ _ _ _ (List.cons.inj h).2

end E2EMessaging.Lib
