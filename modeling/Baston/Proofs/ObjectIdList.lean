/-
Lists of object ids.

A run of ids is an entry of a gap and a size.  The gap is counted from the id behind the run
before, in 16 bits, so the first gap of a list that starts at 0 is the largest there is, and the
addition that undoes it wraps.  A list that increases has no more than half as many runs as there
are ids, so their number fits the packet.
-/
import Baston.Proofs.Downlink
import Baston.Rage.Reliability

namespace Baston.Rage.ObjectIds

/-! ### Runs -/

theorem emit_succ (n : Nat) (last : UInt16) : emit (n + 1) last
    = ((emit n last).1 ++ [last + UInt16.ofNat n], last + UInt16.ofNat (n + 1)) := by
  induction n generalizing last with
  | zero => simp [emit]
  | succ n ih =>
      rw [emit, ih (last + 1)]
      have hshift : ∀ k, last + 1 + UInt16.ofNat k = last + UInt16.ofNat (k + 1) := by
        intro k
        rw [UInt16.ofNat_add, UInt16.add_assoc, UInt16.add_comm 1]
        rfl
      rw [hshift, hshift]
      rfl

/-- The ids of a run of `size + 1` that ends at `prev`. -/
def runTo (size prev : UInt16) : List UInt16 := (emit (size.toNat + 1) (prev - size)).1

theorem runTo_zero (id : UInt16) : runTo 0 id = [id] := by
  unfold runTo
  simp [emit]

theorem run_end (size prev : UInt16) :
    prev - size + UInt16.ofNat (size.toNat + 1) = prev + 1 := by
  rw [UInt16.ofNat_add, UInt16.ofNat_toNat, ← UInt16.add_assoc, UInt16.sub_add_cancel]
  rfl

theorem runTo_succ {size prev : UInt16} (h : size.toNat + 1 < 2 ^ 16) :
    runTo (size + 1) (prev + 1) = runTo size prev ++ [prev + 1] := by
  have hsize : (size + 1).toNat = size.toNat + 1 := by
    rw [UInt16.toNat_add]
    exact Nat.mod_eq_of_lt h
  have hstart : prev + 1 - (size + 1) = prev - size := by grind
  unfold runTo
  rw [hsize, hstart, emit_succ (size.toNat + 1), run_end]

/-- The id behind a run. -/
theorem emit_stop (size prev : UInt16) :
    (emit (size.toNat + 1) (prev - size)).2 = prev + 1 := by
  rw [emit_succ, run_end]

/-- A gap leads from the id behind a run to the next id. -/
theorem gapAfter_spec {last : Int} {behind : UInt16} (id : UInt16)
    (h : (behind.toNat : Int) = (last + 1) % 2 ^ 16) :
    behind + (gapAfter last id + 1) = id := by
  have hid := id.toNat_lt
  have hgap : (gapAfter last id).toNat = (((id.toNat : Int) - 2 - last) % 2 ^ 16).toNat := by
    unfold gapAfter UInt16.ofInt
    rw [UInt16.toNat_ofNat_of_lt']
    unfold UInt16.size
    omega
  rw [← UInt16.toNat_inj, UInt16.toNat_add, UInt16.toNat_add, hgap, UInt16.toNat_one]
  omega

/-! ### There and back -/

/-- **A run and what follows it.**  The runs from one that has reached `prev` are read as its ids
and those after it, wherever the reading starts. -/
theorem decompress_compressRun : ∀ {rest : List UInt16} {gap size prev last : UInt16},
    (prev :: rest).Pairwise (· < ·) → size.toNat ≤ prev.toNat → last + (gap + 1) = prev - size →
      decompress last (compressRun gap size prev rest) = runTo size prev ++ rest := by
  intro rest
  induction rest with
  | nil =>
      intro gap size prev last _ _ hlast
      rw [compressRun, decompress, hlast]
      rfl
  | cons id rest ih =>
      intro gap size prev last hsorted hsize hlast
      obtain ⟨hbefore, hrest⟩ := List.pairwise_cons.mp hsorted
      have hlt := hbefore id List.mem_cons_self
      rw [UInt16.lt_iff_toNat_lt] at hlt
      have hid := id.toNat_lt
      rw [compressRun]
      by_cases hnext : id = prev + 1
      · subst hnext
        have hprev : (prev + 1).toNat = prev.toNat + 1 := by
          rw [UInt16.toNat_add, UInt16.toNat_one]
          rw [UInt16.toNat_add, UInt16.toNat_one] at hlt
          omega
        have hstep : (size + 1).toNat = size.toNat + 1 := by
          rw [UInt16.toNat_add, UInt16.toNat_one]
          omega
        rw [if_pos rfl, ih hrest (by omega) (by rw [hlast]; grind), runTo_succ (by omega),
          List.append_assoc, List.singleton_append]
      · rw [if_neg hnext, decompress, hlast]
        have hbehind : ((prev + 1).toNat : Int) = ((prev.toNat : Int) + 1) % 2 ^ 16 := by
          rw [UInt16.toNat_add, UInt16.toNat_one]
          omega
        have hgap : prev + 1 + (gapAfter prev.toNat id + 1) = id - 0 := by
          rw [gapAfter_spec id hbehind, UInt16.sub_zero]
        dsimp only
        rw [emit_stop, ih hrest (Nat.zero_le _) hgap, runTo_zero, List.singleton_append]
        rfl

theorem decompress_compress {ids : List UInt16} (h : ids.Pairwise (· < ·)) :
    decompress 0 (compress ids) = ids := by
  cases ids with
  | nil => rfl
  | cons id rest =>
      have hgap : 0 + (gapAfter (-1) id + 1) = id - 0 := by
        rw [gapAfter_spec id (by decide), UInt16.sub_zero]
      rw [compress, decompress_compressRun h (Nat.zero_le _) hgap, runTo_zero,
        List.singleton_append]

/-! ### Nothing overflows -/

theorem checkedGap_eq {last : Int} (id : UInt16) (h : -1 ≤ last) (h' : last < 2 ^ 16) :
    checkedGap last id = .ok (gapAfter last id) := by
  have hid := id.toNat_lt
  unfold checkedGap subI32
  rw [if_pos (by omega)]
  dsimp only [bind, Except.bind]
  rw [if_pos (by omega)]
  rfl

theorem addU16_one {a : UInt16} (h : a.toNat + 1 < 2 ^ 16) : addU16 a 1 = .ok (a + 1) := by
  unfold addU16
  rw [UInt16.toNat_one, if_pos h]

theorem checkedRun_eq : ∀ {rest : List UInt16} {gap size prev : UInt16},
    (prev :: rest).Pairwise (· < ·) → size.toNat ≤ prev.toNat →
      checkedRun gap size prev rest = .ok (compressRun gap size prev rest) := by
  intro rest
  induction rest with
  | nil => exact fun _ _ => rfl
  | cons id rest ih =>
      intro gap size prev hsorted hsize
      obtain ⟨hbefore, hrest⟩ := List.pairwise_cons.mp hsorted
      have hlt := hbefore id List.mem_cons_self
      rw [UInt16.lt_iff_toNat_lt] at hlt
      have hid := id.toNat_lt
      rw [checkedRun, compressRun, addU16_one (by omega), Checked.ok_bind]
      by_cases hnext : id = prev + 1
      · have hstep : (size + 1).toNat = size.toNat + 1 := by
          rw [UInt16.toNat_add, UInt16.toNat_one]
          omega
        rw [if_pos hnext, if_pos hnext, addU16_one (by omega), Checked.ok_bind,
          ih hrest (by omega)]
      · rw [if_neg hnext, if_neg hnext, checkedGap_eq id (by omega) (by omega), Checked.ok_bind,
          ih hrest (Nat.zero_le _), Checked.ok_bind]
        rfl

theorem checkedCompress_eq {ids : List UInt16} (h : ids.Pairwise (· < ·)) :
    checkedCompress ids = .ok (compress ids) := by
  cases ids with
  | nil => rfl
  | cons id rest =>
      rw [checkedCompress, compress, checkedGap_eq id (by decide) (by decide), Checked.ok_bind,
        checkedRun_eq h (Nat.zero_le _)]

/-! ### The packet -/

/-- There are no more than half as many runs as there are ids. -/
theorem length_compressRun : ∀ {rest : List UInt16} (gap size : UInt16) {prev : UInt16},
    (prev :: rest).Pairwise (· < ·) →
      2 * (compressRun gap size prev rest).length + prev.toNat ≤ 2 ^ 16 + 1 := by
  intro rest
  induction rest with
  | nil =>
      intro gap size prev _
      have hprev := prev.toNat_lt
      rw [compressRun, List.length_singleton]
      omega
  | cons id rest ih =>
      intro gap size prev hsorted
      obtain ⟨hbefore, hrest⟩ := List.pairwise_cons.mp hsorted
      have hlt := hbefore id List.mem_cons_self
      rw [UInt16.lt_iff_toNat_lt] at hlt
      have hid := id.toNat_lt
      rw [compressRun]
      by_cases hnext : id = prev + 1
      · rw [if_pos hnext]
        have := ih gap (size + 1) hrest
        omega
      · have hne : id.toNat ≠ prev.toNat + 1 := by
          intro heq
          refine hnext (UInt16.toNat_inj.mp ?_)
          rw [UInt16.toNat_add, UInt16.toNat_one]
          omega
        rw [if_neg hnext, List.length_cons]
        have := ih (gapAfter prev.toNat id) 0 hrest
        omega

theorem length_compress {ids : List UInt16} (h : ids.Pairwise (· < ·)) :
    (compress ids).length ≤ 2 ^ 15 := by
  cases ids with
  | nil => exact Nat.zero_le _
  | cons id rest =>
      have := length_compressRun (gapAfter (-1) id) 0 h
      rw [compress]
      omega

/-- An entry as it stands in the packet. -/
def entryBytes (entry : UInt16 × UInt16) : List UInt8 :=
  leBytes 2 entry.1.toNat ++ leBytes 2 entry.2.toNat

theorem u16FromLe_leBytes (v : UInt16) : u16FromLe (leBytes 2 v.toNat) = v := by
  unfold u16FromLe
  rw [foldr_leBytes, Nat.mod_eq_of_lt (show v.toNat < 256 ^ 2 from v.toNat_lt), UInt16.ofNat_toNat]

/-- Entries that stand behind something are read. -/
theorem readEntries_flatMap : ∀ (entries : List (UInt16 × UInt16)) (front : List UInt8),
    (front ++ entries.flatMap entryBytes).length + 8 < Checked.words →
      readEntries (front ++ entries.flatMap entryBytes) entries.length front.length
        = .ok (some entries) := by
  intro entries
  induction entries with
  | nil => exact fun _ _ => rfl
  | cons entry rest ih =>
      intro front hwords
      obtain ⟨gap, size⟩ := entry
      obtain ⟨more, hmore⟩ : ∃ more, more = rest.flatMap entryBytes := ⟨_, rfl⟩
      have hbytes : front ++ ((gap, size) :: rest).flatMap entryBytes
          = front ++ (leBytes 2 gap.toNat ++ (leBytes 2 size.toNat ++ more)) := by
        rw [List.flatMap_cons, ← hmore, entryBytes, List.append_assoc]
      have hgap := Checked.get_append front (leBytes 2 gap.toNat) (leBytes 2 size.toNat ++ more)
      have hsize := Checked.get_append (front ++ leBytes 2 gap.toNat) (leBytes 2 size.toNat) more
      have hrest := ih (front ++ leBytes 2 gap.toNat ++ leBytes 2 size.toNat) (by
        rw [← hmore]
        rw [hbytes] at hwords
        simpa using hwords)
      rw [← hmore] at hrest
      rw [hbytes] at hwords ⊢
      simp only [List.length_append, length_leBytes, List.append_assoc] at hwords hgap hsize hrest
      rw [List.length_cons, readEntries, Checked.add_eq (by omega), Checked.ok_bind, hgap]
      dsimp only
      rw [Checked.ok_bind, Checked.add_eq (by omega), Checked.ok_bind,
        show front.length + 4 = front.length + 2 + 2 from rfl, hsize]
      dsimp only
      rw [Checked.ok_bind, show front.length + 2 + 2 = front.length + (2 + 2) from rfl, hrest,
        Checked.ok_bind, u16FromLe_leBytes, u16FromLe_leBytes]
      rfl

/-- **Object-id lists go there and back.**  No arithmetic of the compression overflows, the runs
are those ids in that order, and a client that strips the message type reads them. -/
theorem object_ids_round_trip (ids : List UInt16) (h : ids.Pairwise (· < ·)) :
    checkedCompress ids = .ok (compress ids) ∧ decompress 0 (compress ids) = ids
      ∧ parseObjectIds ((buildObjectIds ids).drop 4) = .ok (some ids) := by
  refine ⟨checkedCompress_eq h, decompress_compress h, ?_⟩
  have hlength := length_compress h
  obtain ⟨entries, hentries⟩ : ∃ entries, entries = compress ids := ⟨_, rfl⟩
  rw [← hentries] at hlength
  have hpayload : (buildObjectIds ids).drop 4
      = leBytes 2 (UInt16.ofNat entries.length).toNat ++ entries.flatMap entryBytes := by
    rw [buildObjectIds, ← hentries, List.append_assoc, List.drop_left' (length_leBytes _ _)]
    rfl
  have hhead : (leBytes 2 (UInt16.ofNat entries.length).toNat).length = 2 := length_leBytes _ _
  have hcount : (UInt16.ofNat entries.length).toNat = entries.length := by
    refine UInt16.toNat_ofNat_of_lt' ?_
    unfold UInt16.size
    omega
  have hbytes : (entries.flatMap entryBytes).length = entries.length * 4 := by
    rw [List.length_flatMap]
    simp [entryBytes]
  have hread := readEntries_flatMap entries (leBytes 2 (UInt16.ofNat entries.length).toNat) (by
    unfold Checked.words
    rw [List.length_append, length_leBytes, hbytes]
    omega)
  have hback := decompress_compress h
  rw [hhead, hcount] at hread
  rw [hcount] at hhead hpayload
  rw [hpayload, parseObjectIds, if_neg (by rw [List.length_append, hhead]; omega),
    Checked.slice_eq (by decide) (by rw [List.length_append, hhead]; omega),
    Checked.ok_bind, List.drop_zero, List.take_left' hhead, ← hcount, u16FromLe_leBytes,
    hcount, hread, Checked.ok_bind, hentries, Option.map_some, hback]
  rfl

/-- The ids at both ends of the range, and a run. -/
theorem ends_round_trip : checkedCompress [0, 7, 8, 65535] = .ok (compress [0, 7, 8, 65535])
    ∧ decompress 0 (compress [0, 7, 8, 65535]) = [0, 7, 8, 65535]
    ∧ parseObjectIds ((buildObjectIds [0, 7, 8, 65535]).drop 4) = .ok (some [0, 7, 8, 65535]) :=
  object_ids_round_trip _ (by decide)

end Baston.Rage.ObjectIds
