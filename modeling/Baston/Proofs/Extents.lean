/-
What a reader looks at.

A read past the end fails for a field and is zero for a flag, and the cursor moves all the same.
A reader that gets its value has looked at the bits before its cursor and at no others, so it gets
the same value from any buffer that goes on differently.
-/
import Baston.Proofs.SyncTwin

namespace Baston.Rage

namespace MessageBuffer

/-! ### Buffers that go on -/

/-- `buf'` holds what `buf` holds up to bit `p`, the zeros past its end included, and ends no
earlier. -/
structure GoesOn (p : Nat) (buf buf' : MessageBuffer) : Prop where
  cursor : buf'.curBit = buf.curBit
  mode : buf'.lengthHack = buf.lengthHack
  room : buf.maxBit ≤ buf'.maxBit
  bits : ∀ k < p, bitOf buf'.data k = bitOf buf.data k

theorem GoesOn.mono {p q : Nat} {buf buf' : MessageBuffer} (h : GoesOn q buf buf') (hle : p ≤ q) :
    GoesOn p buf buf' :=
  ⟨h.cursor, h.mode, h.room, fun k hk => h.bits k (by omega)⟩

theorem GoesOn.moved {p : Nat} {buf buf' : MessageBuffer} (h : GoesOn p buf buf') (q : Nat) :
    GoesOn p (buf.setCurrentBit q) (buf'.setCurrentBit q) :=
  ⟨rfl, h.mode, h.room, h.bits⟩

/-- A bit is what is there, and zero where nothing is. -/
theorem readBit_eq (buf : MessageBuffer) :
    buf.readBit = (bitOf buf.data buf.curBit, buf.setCurrentBit (buf.curBit + 1)) := by
  have hbit : (bitAt buf.data buf.curBit != 0) = bitOf buf.data buf.curBit := by
    have hnat := bitAt_toNat buf.data buf.curBit
    cases hb : bitOf buf.data buf.curBit with
    | true =>
        rw [hb] at hnat
        have : bitAt buf.data buf.curBit = 1 := UInt8.toNat.inj hnat
        rw [this]
        rfl
    | false =>
        rw [hb] at hnat
        have : bitAt buf.data buf.curBit = 0 := UInt8.toNat.inj hnat
        rw [this]
        rfl
  unfold readBit
  by_cases hend : buf.curBit / 8 ≥ buf.data.length
  · have hfalse : bitOf buf.data buf.curBit = false := by
      unfold bitOf
      rw [List.getD_eq_default _ _ hend]
      simp
    rw [if_pos hend, hfalse]
    rfl
  · rw [if_neg hend]
    exact Prod.ext hbit rfl

end MessageBuffer

open MessageBuffer

namespace BitM

variable {α β : Type}

/-! ### Readers that may fail -/

/-- The reader only moves the cursor on.  If it succeeds, or gives up within the buffer, any
buffer that holds the same bits up to where it stops gives the same. -/
def Steady (m : BitM α) : Prop :=
  ∀ buf, ∃ r p, m.run buf = (r, buf.setCurrentBit p) ∧ buf.curBit ≤ p
    ∧ ∀ buf', GoesOn p buf buf' → (r.isSome ∨ p ≤ buf.maxBit) →
        m.run buf' = (r, buf'.setCurrentBit p)

namespace Steady

theorem pure (a : α) : Steady (Pure.pure a : BitM α) := by
  intro buf
  refine ⟨some a, buf.curBit, rfl, Nat.le_refl _, fun buf' hgoes _ => ?_⟩
  rw [← hgoes.cursor]
  rfl

theorem fail : Steady (failure : BitM α) := by
  intro buf
  refine ⟨none, buf.curBit, rfl, Nat.le_refl _, fun buf' hgoes _ => ?_⟩
  rw [← hgoes.cursor]
  rfl

theorem bits (n : Nat) : Steady (BitM.bits n) := by
  intro buf
  by_cases hlong : buf.curBit + buf.effectiveLen n > buf.maxBit
  · refine ⟨none, buf.curBit + buf.effectiveLen n, if_pos hlong, Nat.le_add_right _ _, ?_⟩
    rintro buf' - (hsome | hroom)
    · exact absurd hsome (by simp)
    · omega
  · refine ⟨some (gather buf.data buf.curBit (buf.effectiveLen n)), _, if_neg hlong,
      Nat.le_add_right _ _, ?_⟩
    intro buf' hgoes _
    have hwidth : buf'.effectiveLen n = buf.effectiveLen n := by
      unfold effectiveLen
      rw [hgoes.mode]
    have hroom := hgoes.room
    show readBitsSingle n buf' = _
    unfold readBitsSingle
    simp only [hwidth, hgoes.cursor]
    rw [if_neg (by omega), gather_congr fun k _ hk => hgoes.bits k hk]
    rfl

theorem bit : Steady BitM.bit := by
  intro buf
  refine ⟨some (bitOf buf.data buf.curBit), buf.curBit + 1, ?_, Nat.le_succ _, ?_⟩
  · show (some buf.readBit.1, buf.readBit.2) = _
    rw [readBit_eq]
  · intro buf' hgoes _
    show (some buf'.readBit.1, buf'.readBit.2) = _
    rw [readBit_eq, hgoes.cursor, hgoes.bits _ (Nat.lt_succ_self _)]

theorem bind {m : BitM α} {k : α → BitM β} (hm : Steady m) (hk : ∀ a, Steady (k a)) :
    Steady (m >>= k) := by
  intro buf
  obtain ⟨r, p, hrun, hle, hsame⟩ := hm buf
  rcases r with _ | a
  · refine ⟨none, p, by rw [run_bind, hrun], hle, fun buf' hgoes hend => ?_⟩
    rw [run_bind, hsame buf' hgoes hend]
  · obtain ⟨r, q, hrest, hpq, hsame'⟩ := hk a (buf.setCurrentBit p)
    have hpq' : p ≤ q := hpq
    refine ⟨r, q, by rw [run_bind, hrun]; exact hrest, by omega, fun buf' hgoes hend => ?_⟩
    rw [run_bind, hsame buf' (hgoes.mono hpq') (.inl rfl)]
    exact hsame' _ (hgoes.moved p) hend

theorem ite {c : Prop} [Decidable c] {m m' : BitM α} (h : Steady m) (h' : Steady m') :
    Steady (if c then m else m') := by
  split
  · exact h
  · exact h'

theorem forEach {f : α → BitM β} (h : ∀ a, Steady (f a)) :
    ∀ l : List α, Steady (BitM.forEach f l) := by
  intro l
  induction l with
  | nil => exact pure []
  | cons a rest ih => exact (h a).bind fun b => ih.bind fun bs => pure _

theorem skip {m : BitM α} (n : Nat) (h : Steady m) : Steady (BitM.skip n m) :=
  (forEach (fun _ => h) _).bind fun _ => pure ()

theorem when {m : BitM α} (c : Bool) (h : Steady m) : Steady (BitM.when c m) :=
  ite (h.bind fun _ => pure ()) (pure ())

theorem signed (n : Nat) : Steady (BitM.signed n) :=
  ite fail ((bits 1).bind fun _ => (bits _).bind fun _ => pure _)

variable {F : Type} [Scalar F]

theorem float (n : Nat) (divisor : F) : Steady (BitM.float n divisor) :=
  ite fail ((bits n).bind fun _ => pure _)

theorem signedFloat (n : Nat) (divisor : F) : Steady (BitM.signedFloat n divisor) :=
  (signed n).bind fun _ => pure _

/-- What it reads before its end it reads from every buffer that goes on. -/
theorem run_goesOn {m : BitM α} (h : Steady m) {buf buf' mid : MessageBuffer} {a : α}
    (hrun : m.run buf = (some a, mid)) (hgoes : GoesOn mid.curBit buf buf') :
    buf.curBit ≤ mid.curBit ∧ mid = buf.setCurrentBit mid.curBit
      ∧ m.run buf' = (some a, buf'.setCurrentBit mid.curBit) := by
  obtain ⟨r, p, hrun', hle, hsame⟩ := h buf
  obtain ⟨rfl, rfl⟩ := Prod.mk.inj (hrun'.symm.trans hrun)
  exact ⟨hle, rfl, hsame buf' hgoes (.inl rfl)⟩

theorem cursor_le {m : BitM α} (h : Steady m) {buf mid : MessageBuffer} {a : α}
    (hrun : m.run buf = (some a, mid)) :
    buf.curBit ≤ mid.curBit ∧ mid = buf.setCurrentBit mid.curBit := by
  obtain ⟨hle, hmid, -⟩ := h.run_goesOn hrun ⟨rfl, rfl, Nat.le_refl _, fun _ _ => rfl⟩
  exact ⟨hle, hmid⟩

end Steady

/-! ### Readers that notice the end -/

/-- If the reader starts within the buffer and succeeds, it ends within it. -/
def Stays (m : BitM α) : Prop :=
  ∀ buf a mid, buf.curBit ≤ buf.maxBit → m.run buf = (some a, mid) → mid.curBit ≤ mid.maxBit

/-- If the reader succeeds, it ends within the buffer, wherever it started. -/
def Checked (m : BitM α) : Prop :=
  ∀ buf a mid, m.run buf = (some a, mid) → mid.curBit ≤ mid.maxBit

theorem Checked.stays {m : BitM α} (h : Checked m) : Stays m :=
  fun buf a mid _ hrun => h buf a mid hrun

theorem Stays.pure (a : α) : Stays (Pure.pure a : BitM α) := by
  intro buf b mid hbuf hrun
  rw [← (Prod.mk.inj hrun).2]
  exact hbuf

theorem Stays.bind {m : BitM α} {k : α → BitM β} (hm : Stays m) (hk : ∀ a, Stays (k a)) :
    Stays (m >>= k) := by
  intro buf b buf' hbuf hrun
  obtain ⟨a, mid, hfirst, hrest⟩ := bind_eq_some hrun
  exact hk a mid b buf' (hm buf a mid hbuf hfirst) hrest

theorem Stays.ite {c : Prop} [Decidable c] {m m' : BitM α} (h : Stays m) (h' : Stays m') :
    Stays (if c then m else m') := by
  split
  · exact h
  · exact h'

theorem Stays.forEach {f : α → BitM β} (h : ∀ a, Stays (f a)) :
    ∀ l : List α, Stays (BitM.forEach f l) := by
  intro l
  induction l with
  | nil => exact pure []
  | cons a rest ih => exact (h a).bind fun b => ih.bind fun bs => pure _

namespace Checked

theorem fail : Checked (failure : BitM α) := by
  intro buf a mid hrun
  have hnone : none = some a := congrArg Prod.fst hrun
  exact absurd hnone (by simp)

theorem bits (n : Nat) : Checked (BitM.bits n) := by
  intro buf v mid hrun
  obtain ⟨hle, rfl⟩ := bits_bound hrun
  exact hle

/-- What ends in a checked reader is checked. -/
theorem bind {m : BitM α} {k : α → BitM β} (hk : ∀ a, Checked (k a)) : Checked (m >>= k) := by
  intro buf b buf' hrun
  obtain ⟨a, mid, -, hrest⟩ := bind_eq_some hrun
  exact hk a mid b buf' hrest

theorem andThen {m : BitM α} {k : α → BitM β} (hm : Checked m) (hk : ∀ a, Stays (k a)) :
    Checked (m >>= k) := by
  intro buf b buf' hrun
  obtain ⟨a, mid, hfirst, hrest⟩ := bind_eq_some hrun
  exact hk a mid b buf' (hm buf a mid hfirst) hrest

theorem map {m : BitM α} (hm : Checked m) (g : α → β) : Checked (m >>= fun a => Pure.pure (g a)) :=
  hm.andThen fun a => .pure (g a)

theorem ite {c : Prop} [Decidable c] {m m' : BitM α} (h : Checked m) (h' : Checked m') :
    Checked (if c then m else m') := by
  split
  · exact h
  · exact h'

theorem signed (n : Nat) : Checked (BitM.signed n) :=
  ite fail (bind fun _ => (bits _).map _)

variable {F : Type} [Scalar F]

theorem float (n : Nat) (divisor : F) : Checked (BitM.float n divisor) :=
  ite fail ((bits n).map _)

theorem signedFloat (n : Nat) (divisor : F) : Checked (BitM.signedFloat n divisor) :=
  (signed n).map _

end Checked

end BitM

/-! ### Readers that go on after a failure -/

/-- One reader, then what follows it. -/
theorem run_step {α β : Type} (m : StateM MessageBuffer α) (k : α → StateM MessageBuffer β)
    (buf : MessageBuffer) : (m >>= k) buf = k (m buf).1 (m buf).2 := rfl

/-- The reader only moves the cursor on, and what it reads within the buffer it reads from any
buffer that goes on. -/
def Local {α : Type} (m : StateM MessageBuffer α) : Prop :=
  ∀ buf, ∃ r p, m buf = (r, buf.setCurrentBit p) ∧ buf.curBit ≤ p
    ∧ ∀ buf', GoesOn p buf buf' → p ≤ buf.maxBit → m buf' = (r, buf'.setCurrentBit p)

namespace Local

variable {α β : Type}

theorem pure (a : α) : Local (Pure.pure a : StateM MessageBuffer α) := by
  intro buf
  refine ⟨a, buf.curBit, rfl, Nat.le_refl _, fun buf' hgoes _ => ?_⟩
  rw [← hgoes.cursor]
  rfl

theorem bind {m : StateM MessageBuffer α} {k : α → StateM MessageBuffer β} (hm : Local m)
    (hk : ∀ a, Local (k a)) : Local (m >>= k) := by
  intro buf
  obtain ⟨a, p, hrun, hle, hsame⟩ := hm buf
  obtain ⟨r, q, hrest, hpq, hsame'⟩ := hk a (buf.setCurrentBit p)
  have hpq' : p ≤ q := hpq
  refine ⟨r, q, ?_, by omega, fun buf' hgoes hend => ?_⟩
  · rw [run_step, hrun]
    exact hrest
  · rw [run_step, hsame buf' (hgoes.mono hpq') (by omega)]
    exact hsame' _ (hgoes.moved p) hend

theorem ite {c : Prop} [Decidable c] {m m' : StateM MessageBuffer α} (h : Local m)
    (h' : Local m') : Local (if c then m else m') := by
  split
  · exact h
  · exact h'

theorem readBit : Local MessageBuffer.readBit := by
  intro buf
  refine ⟨bitOf buf.data buf.curBit, buf.curBit + 1, readBit_eq buf, Nat.le_succ _, ?_⟩
  intro buf' hgoes _
  rw [readBit_eq, hgoes.cursor, hgoes.bits _ (Nat.lt_succ_self _)]

/-- A reader that may fail, its failure kept as nothing. -/
theorem run {m : BitM α} (h : BitM.Steady m) : Local m.run := by
  intro buf
  obtain ⟨r, p, hrun, hle, hsame⟩ := h buf
  exact ⟨r, p, hrun, hle, fun buf' hgoes hend => hsame buf' hgoes (.inr hend)⟩

theorem goesOn {m : StateM MessageBuffer α} (h : Local m) {buf buf' : MessageBuffer}
    (hgoes : GoesOn (m buf).2.curBit buf buf') (hend : (m buf).2.curBit ≤ buf.maxBit) :
    (m buf').1 = (m buf).1 := by
  obtain ⟨r, p, hrun, -, hsame⟩ := h buf
  rw [hrun] at hgoes hend ⊢
  rw [hsame buf' hgoes hend]

end Local

end Baston.Rage
