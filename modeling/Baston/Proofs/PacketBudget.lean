/-
The datagram budget of the packed stream.

A flush is decided on a projection: the bytes of the batch and of the next record, each
rounded up, put through the LZ4 worst case.  What goes out differs from the projection by
the `END` behind the batch and by the frame header, for which the budget leaves 24 bytes.
So a batch the check let grow is within a datagram, and the only batch it never looked at
with anything before it is a lone record in a fresh buffer, which is over the budget only
if it is a clone with a large blob.
-/
import Baston.Proofs.PackedWriter
import Baston.Rage.LiteralRun

namespace Baston.Rage

/-- The bytes a datagram of the packed stream may take. -/
def datagramBytes : Nat := 1100

/-- The LZ4 worst case of `n` bytes. -/
def lz4Bound (n : Nat) : Nat := n + n / 255 + 16

theorem lz4Bound_mono {m n : Nat} (h : m ≤ n) : lz4Bound m ≤ lz4Bound n := by
  unfold lz4Bound
  omega

/-- The worst case of so many bits is within the flush budget. -/
def WithinBudget (bits : Nat) : Prop := lz4Bound ((bits + 7) / 8) ≤ flushBudgetBytes

instance (bits : Nat) : Decidable (WithinBudget bits) :=
  inferInstanceAs (Decidable (_ ≤ _))

theorem WithinBudget.mono {m n : Nat} (hn : WithinBudget n) (h : m ≤ n) : WithinBudget m :=
  (lz4Bound_mono (by omega)).trans hn

namespace Batches

variable {lengthHack : Bool}

/-- A batch is within the budget, or it is one clone record that alone is not. -/
def Bounded (lengthHack : Bool) (batch : List Written) : Prop :=
  WithinBudget (batchBits lengthHack batch).length
    ∨ ∃ c, batch = [.clone c] ∧ ¬ WithinBudget (c.bits lengthHack).length

theorem bounded_nil : Bounded lengthHack [] := by
  have hempty : WithinBudget 0 := by decide
  exact .inl hempty

/-- A record alone is bounded: only a clone can be large. -/
theorem bounded_single (r : Written) : Bounded lengthHack [r] := by
  have hbits : batchBits lengthHack [r] = r.bits lengthHack := by
    rw [← List.nil_append [r], batchBits_append]
    rfl
  have hle := (r.length_bits_le lengthHack).2
  cases r with
  | timestamp ts =>
      have hsmall : WithinBudget 67 := by decide
      rw [Bounded, hbits]
      exact .inl (hsmall.mono hle)
  | remove forceSteal objectId uniqifier =>
      have hsmall : WithinBudget 36 := by decide
      rw [Bounded, hbits]
      exact .inl (hsmall.mono hle)
  | clone c =>
      by_cases h : WithinBudget (c.bits lengthHack).length
      · rw [Bounded, hbits]
        exact .inl h
      · exact .inr ⟨c, rfl, h⟩

/-- Every record takes bits, so only the empty batch takes none. -/
theorem batch_eq_nil {batch : List Written} (h : (batchBits lengthHack batch).length = 0) :
    batch = [] := by
  cases batch with
  | nil => rfl
  | cons r rest =>
      exfalso
      have hpos : 0 < (r.bits lengthHack).length := by
        cases r with
        | timestamp ts => simp [Written.bits, length_fieldsBits, fieldWidth]
        | clone c =>
            simp [Written.bits, OutboundClone.bits, OutboundClone.header, length_fieldsBits,
              fieldWidth]
        | remove forceSteal objectId uniqifier =>
            simp [Written.bits, length_fieldsBits, fieldWidth]
      rw [batchBits, List.flatMap_cons, List.length_append] at h
      omega

/-- The projection of a batch that is let grow covers it with the record appended. -/
theorem withinBudget_append {batch : List Written} {r : Written}
    (h : ¬ overBudget (batchBits lengthHack batch).length (estimate r) = true) :
    WithinBudget (batchBits lengthHack (batch ++ [r])).length := by
  have hle := (r.length_bits_le lengthHack).2
  have hprojected : lz4Bound (((batchBits lengthHack batch).length + 7) / 8
      + (estimate r + 7) / 8) ≤ flushBudgetBytes := by
    simpa [overBudget, lz4Bound] using h
  rw [batchBits_append, List.length_append]
  exact (lz4Bound_mono (by omega)).trans hprojected

/-- Every batch, sent or being filled, is bounded. -/
structure AllBounded (lengthHack : Bool) (b : Batches) : Prop where
  sent : ∀ batch ∈ b.sent, Bounded lengthHack batch
  batch : Bounded lengthHack b.batch

theorem AllBounded.push {b : Batches} (h : AllBounded lengthHack b) (r : Written) :
    AllBounded lengthHack (b.push lengthHack r) := by
  unfold Batches.push
  by_cases hfull : full lengthHack b.batch r = true
  · rw [if_pos hfull]
    refine ⟨?_, bounded_single r⟩
    intro batch hmem
    rcases List.mem_append.mp hmem with hmem | hmem
    · exact h.sent batch hmem
    · rw [List.mem_singleton.mp hmem]
      exact h.batch
  · rw [if_neg hfull]
    refine ⟨h.sent, ?_⟩
    by_cases hzero : (batchBits lengthHack b.batch).length = 0
    · rw [batch_eq_nil hzero]
      exact bounded_single r
    · refine .inl (withinBudget_append ?_)
      intro hover
      exact hfull (by simp [full, hzero, hover])

theorem AllBounded.write {b : Batches} (h : AllBounded lengthHack b) (call : WriterCall) :
    AllBounded lengthHack (b.write lengthHack call) := by
  cases call with
  | clone ts c =>
      refine AllBounded.push ?_ (.clone c)
      unfold Batches.ensureTimestamp
      by_cases htimed : timed b.batch = true
      · rw [if_pos htimed]
        exact h
      · rw [if_neg htimed]
        exact h.push (.timestamp ts)
  | remove forceSteal objectId uniqifier => exact h.push _

theorem AllBounded.writeAll : ∀ (calls : List WriterCall) {b : Batches},
    AllBounded lengthHack b → AllBounded lengthHack (calls.foldl (Batches.write lengthHack) b) := by
  intro calls
  induction calls with
  | nil =>
      intro b h
      exact h
  | cons call rest ih =>
      intro b h
      exact ih (h.write call)

/-- The fragments of a sequence of calls are bounded. -/
theorem ofCalls_bounded (calls : List WriterCall) :
    ∀ batch ∈ (ofCalls lengthHack calls).fragments, Bounded lengthHack batch := by
  have h : AllBounded lengthHack (ofCalls lengthHack calls) :=
    AllBounded.writeAll calls ⟨by simp, bounded_nil⟩
  intro batch hmem
  rcases List.mem_append.mp hmem with hmem | hmem
  · exact h.sent batch hmem
  · rw [List.mem_singleton.mp hmem]
    exact h.batch

end Batches

/-! ### Packets -/

/-- `END` adds at most one byte to a batch. -/
theorem Carries.length_le {lengthHack : Bool} {body : List UInt8} {batch : List Written}
    (h : Carries lengthHack body batch) :
    body.length ≤ ((batchBits lengthHack batch).length + 7) / 8 + 1 := by
  have hfragment : (fragmentBits lengthHack batch).length
      ≤ (batchBits lengthHack batch).length + 3 := by
    unfold fragmentBits
    split
    · rw [List.length_append, length_fieldsBits]
      simp [fieldWidth]
    · rw [List.append_nil]
      omega
  rw [h.length]
  omega

/-- A fragment whose batch is within the budget is within a datagram. -/
theorem IsFragment.length_le {lz4 : Lz4} {msgType : UInt32} {frameIndex : UInt64}
    {lengthHack last : Bool} {n : Nat} {packet : List UInt8} {batch : List Written}
    (hlz4 : ∀ body, (lz4.compressDefault body).length ≤ lz4Bound body.length)
    (h : IsFragment lz4 msgType frameIndex lengthHack last n packet batch)
    (hwithin : WithinBudget (batchBits lengthHack batch).length) :
    packet.length ≤ datagramBytes := by
  obtain ⟨body, hbody, rfl⟩ := h
  have hcompressed := (hlz4 body).trans (lz4Bound_mono hbody.length_le)
  have hsize : (packFrame lz4 msgType ⟨last, UInt8.ofNat n &&& 0x7F, frameIndex⟩ body).length
      = 12 + (lz4.compressDefault body).length := by
    simp [packFrame, leBytes]
    omega
  rw [hsize]
  unfold WithinBudget flushBudgetBytes lz4Bound at hwithin
  unfold lz4Bound at hcompressed
  unfold datagramBytes
  omega

/-- **Packets fit the datagram budget.**  Every packet of a stream is the fragment of one
of its batches, and it is at most 1100 bytes long unless that batch is one clone record
which alone exceeds the flush budget. -/
theorem packets_fit (lz4 : Lz4)
    (hlz4 : ∀ body, (lz4.compressDefault body).length ≤ lz4Bound body.length)
    (msgType : UInt32) (frameIndex : UInt64) (lengthHack : Bool) (calls : List WriterCall) :
    ∀ packet ∈ packedStream lz4 msgType frameIndex lengthHack calls,
      ∃ batch ∈ (Batches.ofCalls lengthHack calls).fragments,
        (∃ last n, IsFragment lz4 msgType frameIndex lengthHack last n packet batch)
          ∧ (packet.length ≤ datagramBytes
            ∨ ∃ c, batch = [.clone c] ∧ ¬ WithinBudget (c.bits lengthHack).length) := by
  intro packet hmem
  obtain ⟨hcount, hfragments⟩ :=
    packedStream_fragments lz4 msgType frameIndex lengthHack calls
  obtain ⟨n, hn⟩ := List.getElem?_of_mem hmem
  have hlt := (List.getElem?_eq_some_iff.mp hn).1
  rw [hcount] at hlt
  have hbatch := List.getElem?_eq_getElem hlt
  have hfragment := hfragments n packet _ hn hbatch
  have hin := List.mem_of_getElem? hbatch
  refine ⟨_, hin, ⟨_, _, hfragment⟩, ?_⟩
  rcases Batches.ofCalls_bounded calls _ hin with hwithin | halone
  · exact .inl (hfragment.length_le hlz4 hwithin)
  · exact .inr halone

namespace LiteralRun

/-- A run of literals is within the worst case. -/
theorem length_encode_le (body : List UInt8) : (encode body).length ≤ lz4Bound body.length := by
  unfold encode lz4Bound
  split
  · rw [List.length_cons]
    omega
  · simp only [writeLength, List.length_cons, List.length_append, List.length_replicate,
      List.length_nil]
    omega

end LiteralRun

/-- A clone and a removal, as runs of literals. -/
theorem small_stream_fits :
    (packedStream LiteralRun.lz4 msgPackedClones 7 true
        [.clone 1000 ⟨Rec.sync, 5, 1, none, 0, 1, 6, 1000, false, [1, 2, 3]⟩,
          .remove false 9 1]).length = 1
      ∧ ∀ packet ∈ packedStream LiteralRun.lz4 msgPackedClones 7 true
        [.clone 1000 ⟨Rec.sync, 5, 1, none, 0, 1, 6, 1000, false, [1, 2, 3]⟩, .remove false 9 1],
      ∃ batch ∈ (Batches.ofCalls true
          [.clone 1000 ⟨Rec.sync, 5, 1, none, 0, 1, 6, 1000, false, [1, 2, 3]⟩,
            .remove false 9 1]).fragments,
        (∃ last n, IsFragment LiteralRun.lz4 msgPackedClones 7 true last n packet batch)
          ∧ (packet.length ≤ datagramBytes
            ∨ ∃ c, batch = [.clone c] ∧ ¬ WithinBudget (c.bits true).length) :=
  ⟨by decide +kernel, packets_fit LiteralRun.lz4 LiteralRun.length_encode_le msgPackedClones 7
    true _⟩

end Baston.Rage
