/-
Rebuilding a nonce from its low byte.

A packet carries one byte of its nonce.  The receiver puts the other fifteen back from
the counter it holds, with a carry or a borrow where the byte came round.  Here that is
said of the numbers the nonces spell: the rebuilt nonce is the counter plus a distance,
modulo 2^128, and the distance is the one of the two ways round to the byte that is
short enough.

`candidate` is the part of `decrypt` that comes before the tag, and `accept` the part
after it.
-/
import Baston.Voice.Crypto

namespace Baston.Voice

/-! ### A block as a number -/

namespace Block

/-- A block is its low byte and the fifteen bytes above. -/
theorem bytes_eq (b : Block) : b.bytes = b.get 0 :: b.bytes.tail := by
  obtain ⟨bytes, size⟩ := b
  cases bytes with
  | nil => exact absurd size (by decide)
  | cons l t => rfl

/-- The number the bytes above the low one spell. -/
def high (b : Block) : Nat := Counter.value b.bytes.tail

theorem value_eq (b : Block) : b.value = (b.get 0).toNat + 256 * b.high := by
  unfold value high
  rw [bytes_eq]
  rfl

theorem high_lt (b : Block) : b.high < 2 ^ 120 := by
  have h := Counter.value_lt b.bytes.tail
  rw [List.length_tail, b.size] at h
  exact h

theorem value_lt (b : Block) : b.value < 2 ^ 128 := by
  have hlow : (b.get 0).toNat < 256 := (b.get 0).toNat_lt
  have hhigh := b.high_lt
  rw [value_eq]
  omega

theorem value_inj {a b : Block} (h : a.value = b.value) : a = b :=
  ext (Counter.value_inj (a.size.trans b.size.symm) h)

theorem low_eq (b : Block) : (b.get 0).toNat = b.value % 256 := by
  have hlow : (b.get 0).toNat < 256 := (b.get 0).toNat_lt
  rw [value_eq]
  omega

@[simp] theorem get_zero_setLow (b : Block) (v : UInt8) : (b.setLow v).get 0 = v := rfl

@[simp] theorem high_setLow (b : Block) (v : UInt8) : (b.setLow v).high = b.high := rfl

variable {f : List UInt8 → List UInt8} {hf : ∀ l, (f l).length = l.length}

theorem bytes_stepHigh (b : Block) : (b.stepHigh f hf).bytes = b.get 0 :: f b.bytes.tail := by
  obtain ⟨bytes, size⟩ := b
  cases bytes with
  | nil => exact absurd size (by decide)
  | cons l t => rfl

@[simp] theorem get_zero_stepHigh (b : Block) : (b.stepHigh f hf).get 0 = b.get 0 := by
  unfold get
  rw [bytes_stepHigh]
  rfl

theorem high_stepHigh (b : Block) : (b.stepHigh f hf).high = Counter.value (f b.bytes.tail) := by
  unfold high
  rw [bytes_stepHigh]
  rfl

theorem high_increment (b : Block) :
    (b.stepHigh Counter.increment Counter.length_increment).high = (b.high + 1) % 2 ^ 120 := by
  rw [high_stepHigh, Counter.value_increment, List.length_tail, b.size]
  rfl

theorem high_decrement (b : Block) :
    ((b.stepHigh Counter.decrement Counter.length_decrement).high + 1) % 2 ^ 120 = b.high := by
  have h := Counter.value_decrement b.bytes.tail
  rw [List.length_tail, b.size] at h
  rw [high_stepHigh]
  exact h.trans (Nat.mod_eq_of_lt b.high_lt)

end Block

namespace CryptState

/-- The next nonce is one further. -/
theorem value_next (iv : Block) : (next iv).value = (iv.value + 1) % 2 ^ 128 := by
  have h := Counter.value_increment iv.bytes
  rw [iv.size] at h
  exact h

/-! ### The distances -/

/-- `r.iv` lies `d` past the counter. -/
def Past (iv : Block) (d : Int) (r : Rebuilt) : Prop :=
  (r.iv.value : Int) = ((iv.value : Int) + d) % 2 ^ 128

theorem inOrder_past {iv : Block} {b : UInt8} (hb : iv.get 0 + 1 = b) :
    ∃ r, inOrder iv b = some r ∧ Past iv 1 r ∧ r.restore = false := by
  have hlow : (iv.get 0).toNat < 256 := (iv.get 0).toNat_lt
  have hhigh := iv.high_lt
  have hval := iv.value_eq
  have hbyte : b.toNat = ((iv.get 0).toNat + 1) % 256 := by rw [← hb]; exact UInt8.toNat_add _ 1
  simp only [inOrder, gt_iff_lt, UInt8.lt_iff_toNat_lt]
  split
  · refine ⟨_, rfl, ?_, rfl⟩
    unfold Past
    simp only [Block.value_eq, Block.get_zero_setLow, Block.high_setLow]
    omega
  · refine ⟨_, if_pos (by omega), ?_, rfl⟩
    have hcarry := (iv.setLow b).high_increment
    unfold Past
    simp only [Block.value_eq, Block.get_zero_stepHigh, Block.get_zero_setLow,
      Block.high_setLow] at hcarry ⊢
    omega

/-- The distance is the difference of the bytes, or that difference the other way round. -/
theorem distance_eq (iv : Block) (b : UInt8) :
    (distance iv b = b.toNat - (iv.get 0).toNat
        ∧ -128 ≤ distance iv b ∧ distance iv b ≤ 128)
      ∨ (distance iv b = b.toNat - (iv.get 0).toNat - 256 ∧ -128 < distance iv b
        ∧ (iv.get 0).toNat < b.toNat ∧ distance iv b < 0)
      ∨ (distance iv b = b.toNat - (iv.get 0).toNat + 256 ∧ distance iv b < 128
        ∧ b.toNat < (iv.get 0).toNat ∧ 0 < distance iv b) := by
  have hlow : (iv.get 0).toNat < 256 := (iv.get 0).toNat_lt
  have hb : b.toNat < 256 := b.toNat_lt
  unfold distance
  simp only
  split
  · right; left; omega
  · split
    · right; right; omega
    · left; omega

/-- A nonce rebuilt out of order lies fewer than thirty behind the counter, and leaves the counter
where it was, or lies ahead of it by half a turn at most. -/
theorem outOfOrder_past {iv : Block} {b : UInt8} {r : Rebuilt} (h : outOfOrder iv b = some r) :
    Past iv (distance iv b) r
      ∧ ((r.restore = false ∧ 0 < distance iv b ∧ distance iv b ≤ 128)
        ∨ (r.restore = true ∧ -30 < distance iv b ∧ distance iv b < 0)) := by
  have hlow : (iv.get 0).toNat < 256 := (iv.get 0).toNat_lt
  have hb : b.toNat < 256 := b.toNat_lt
  have hhigh := iv.high_lt
  have hval := iv.value_eq
  have hcarry := (iv.setLow b).high_increment
  have hborrow := (iv.setLow b).high_decrement
  have hless := ((iv.setLow b).stepHigh Counter.decrement Counter.length_decrement).high_lt
  have hd := distance_eq iv b
  simp only [outOfOrder, gt_iff_lt, UInt8.lt_iff_toNat_lt] at h
  simp only [Block.high_setLow] at hcarry hborrow
  unfold Past
  split at h
  · -- Behind, in the same turn of the byte.
    obtain rfl := Option.some.inj h
    simp only [Block.value_eq, Block.get_zero_setLow, Block.high_setLow]
    refine ⟨?_, .inr ⟨trivial, ?_⟩⟩ <;> omega
  · split at h
    · -- Behind, in the turn before.
      obtain rfl := Option.some.inj h
      simp only [Block.value_eq, Block.get_zero_stepHigh, Block.get_zero_setLow]
      refine ⟨?_, .inr ⟨trivial, ?_⟩⟩ <;> omega
    · split at h
      · -- Ahead, in the same turn.
        obtain rfl := Option.some.inj h
        simp only [Block.value_eq, Block.get_zero_setLow, Block.high_setLow]
        refine ⟨?_, .inl ⟨trivial, ?_⟩⟩ <;> omega
      · -- Ahead, in the next turn.
        split at h
        · obtain rfl := Option.some.inj h
          simp only [Block.value_eq, Block.get_zero_stepHigh, Block.get_zero_setLow]
          refine ⟨?_, .inl ⟨trivial, ?_⟩⟩ <;> omega
        · exact absurd h (by simp)

/-- A byte fewer than thirty behind the counter's, or ahead of it, is not refused for its
distance. -/
theorem outOfOrder_isSome {iv : Block} {b : UInt8}
    (h : (-30 < distance iv b ∧ distance iv b < 0) ∨ 0 < distance iv b) :
    ∃ r, outOfOrder iv b = some r := by
  have hd := distance_eq iv b
  have hne : b.toNat ≠ (iv.get 0).toNat := by omega
  simp only [outOfOrder, gt_iff_lt, UInt8.lt_iff_toNat_lt]
  rcases Nat.lt_or_gt_of_ne hne with hlt | hgt
  · rcases h with hbehind | hahead
    · exact ⟨_, if_pos ⟨hlt, hbehind.1, hbehind.2⟩⟩
    · rw [if_neg (by omega), if_neg (by omega), if_neg (by omega), if_pos ⟨hlt, hahead⟩]
      exact ⟨_, rfl⟩
  · rcases h with hbehind | hahead
    · rw [if_neg (by omega), if_pos ⟨hgt, hbehind.1, hbehind.2⟩]
      exact ⟨_, rfl⟩
    · rw [if_neg (by omega), if_neg (by omega), if_pos ⟨hgt, hahead⟩]
      exact ⟨_, rfl⟩

/-- The distance of a nonce's byte is the nonce's own distance, where that is under half a turn. -/
theorem distance_of_past {iv n : Block} {d : Int}
    (hn : (n.value : Int) = ((iv.value : Int) + d) % 2 ^ 128) (hd : -128 < d ∧ d < 128) :
    distance iv (n.get 0) = d := by
  have hlow := iv.low_eq
  have hb := n.low_eq
  have hdist := distance_eq iv (n.get 0)
  omega

/-- The byte after the counter's is that of the next nonce only. -/
theorem next_low_iff {iv n : Block} {d : Int}
    (hn : (n.value : Int) = ((iv.value : Int) + d) % 2 ^ 128) (hd : -128 < d ∧ d < 128) :
    iv.get 0 + 1 = n.get 0 ↔ d = 1 := by
  have hlow := iv.low_eq
  have hbyte := n.low_eq
  have hsum : (iv.get 0 + 1).toNat = ((iv.get 0).toNat + 1) % 256 := UInt8.toNat_add _ 1
  rw [← UInt8.toNat_inj]
  omega

/-! ### The parts of `decrypt` -/

/-- Whether the history holds a nonce. -/
def inHistory (s : CryptState) (iv : Block) : Prop := s.decryptHistory (iv.get 0) = iv.get 1

instance (s : CryptState) (iv : Block) : Decidable (s.inHistory iv) :=
  inferInstanceAs (Decidable (_ = _))

/-- The nonce a packet is opened under; `none` when it is refused before that. -/
def candidate (s : CryptState) (ivbyte : UInt8) : Option Rebuilt :=
  if s.decryptIv.get 0 + 1 = ivbyte then
    inOrder s.decryptIv ivbyte
  else
    (outOfOrder s.decryptIv ivbyte).filter fun r => ¬ s.inHistory r.iv

theorem candidate_past {s : CryptState} {b : UInt8} {r : Rebuilt} (h : s.candidate b = some r) :
    ∃ d : Int, Past s.decryptIv d r
      ∧ ((r.restore = false ∧ 0 < d ∧ d ≤ 128)
        ∨ (r.restore = true ∧ -30 < d ∧ d < 0 ∧ ¬ s.inHistory r.iv)) := by
  unfold candidate at h
  by_cases hnext : s.decryptIv.get 0 + 1 = b
  · rw [if_pos hnext] at h
    obtain ⟨r', hr', hpast, hrestore⟩ := inOrder_past hnext
    obtain rfl := Option.some.inj (hr'.symm.trans h)
    exact ⟨1, hpast, .inl ⟨hrestore, by omega⟩⟩
  · rw [if_neg hnext, Option.filter_eq_some_iff] at h
    obtain ⟨hr, hnot⟩ := h
    obtain ⟨hpast, hside⟩ := outOfOrder_past hr
    refine ⟨_, hpast, ?_⟩
    rcases hside with hahead | ⟨hrestore, hlow, hneg⟩
    · exact .inl hahead
    · exact .inr ⟨hrestore, hlow, hneg, of_decide_eq_true hnot⟩

/-- What `decrypt` makes of the low byte of a nonce that is near the counter: that nonce, unless
it is not the next one and the history is taken to hold it. -/
theorem candidate_of_past {s : CryptState} {n : Block} {d : Int}
    (hn : (n.value : Int) = ((s.decryptIv.value : Int) + d) % 2 ^ 128)
    (hd : (-30 < d ∧ d < 0) ∨ (0 < d ∧ d < 128)) :
    (s.candidate (n.get 0)).map Rebuilt.iv
      = if d = 1 ∨ ¬ s.inHistory n then some n else none := by
  have hdist := distance_of_past hn (by omega)
  have hsame : ∀ {r : Rebuilt}, Past s.decryptIv d r → r.iv = n := by
    intro r hpast
    apply Block.value_inj
    unfold Past at hpast
    omega
  unfold candidate
  by_cases hnext : s.decryptIv.get 0 + 1 = n.get 0
  · obtain rfl := (next_low_iff hn (by omega)).mp hnext
    obtain ⟨r, hr, hpast, -⟩ := inOrder_past hnext
    rw [if_pos hnext, hr, if_pos (.inl rfl), Option.map_some, hsame hpast]
  · have hone : d ≠ 1 := fun h1 => hnext ((next_low_iff hn (by omega)).mpr h1)
    obtain ⟨r, hr⟩ := outOfOrder_isSome (hdist ▸ by omega : (-30 < distance s.decryptIv (n.get 0)
        ∧ distance s.decryptIv (n.get 0) < 0) ∨ 0 < distance s.decryptIv (n.get 0))
    have hiv := hsame (hdist ▸ (outOfOrder_past hr).1)
    rw [if_neg hnext, hr]
    by_cases hseen : s.inHistory n
    · rw [if_neg (by simp [hone, hseen]), Option.filter_some, hiv, if_neg (by simp [hseen])]
      rfl
    · rw [if_pos (.inr hseen), Option.filter_some, hiv, if_pos (by simp [hseen]),
        Option.map_some, hiv]

/-- What accepting a packet under a rebuilt nonce leaves. -/
def accept (s : CryptState) (r : Rebuilt) : CryptState :=
  { s with
    decryptHistory := Function.update s.decryptHistory (r.iv.get 0) (r.iv.get 1)
    decryptIv := if r.restore then s.decryptIv else r.iv
    good := s.good + 1
    late := s.late + r.late
    lost := if r.lost > 0 then s.lost + UInt32.ofNat r.lost.toNat else s.lost }

theorem verify_rebuilt (openBody : Block → List UInt8 → Option (List UInt8)) (s : CryptState)
    (r : Rebuilt) (source : List UInt8) :
    verify openBody s.decryptIv r { s with decryptIv := r.iv } source
      = match openBody r.iv source with
        | none => (s, none)
        | some plain => (s.accept r, some plain) := by
  unfold verify
  cases openBody r.iv source with
  | none => rfl
  | some plain => rfl

/-- `decrypt`, with its parts told apart: a packet is refused before its tag is looked at, or
refused for its tag, or accepted under the nonce rebuilt for it. -/
theorem decryptWith_eq (openBody : Block → List UInt8 → Option (List UInt8)) (s : CryptState)
    (source : List UInt8) :
    s.decryptWith openBody source
      = if source.length < 4 then (s, none)
        else match s.candidate (source.getD 0 0) with
          | none => (s, none)
          | some r => match openBody r.iv source with
            | none => (s, none)
            | some plain => (s.accept r, some plain) := by
  unfold decryptWith
  by_cases hshort : source.length < 4
  · rw [if_pos hshort, if_pos hshort]
  · rw [if_neg hshort, if_neg hshort]
    unfold candidate
    by_cases hnext : s.decryptIv.get 0 + 1 = source.getD 0 0
    · simp only [if_pos hnext]
      cases inOrder s.decryptIv (source.getD 0 0) with
      | none => rfl
      | some r =>
          exact verify_rebuilt openBody s r source
    · simp only [if_neg hnext]
      cases outOfOrder s.decryptIv (source.getD 0 0) with
      | none => rfl
      | some r =>
          by_cases hseen : s.inHistory r.iv
          · have hseen' : s.decryptHistory (r.iv.get 0) = r.iv.get 1 := hseen
            simp only [seen, hseen', decide_true, if_true, Option.filter_some, hseen, not_true,
              decide_false, Bool.false_eq_true, if_false]
          · have hseen' : ¬ s.decryptHistory (r.iv.get 0) = r.iv.get 1 := hseen
            simp only [seen, hseen', decide_false, Bool.false_eq_true, if_false,
              Option.filter_some, hseen, not_false_eq_true, decide_true, if_true]
            exact verify_rebuilt openBody s r source

end CryptState

end Baston.Voice
