/-
The bytes of a packfile.

Names and contents are appended, and the table is written into.  Each turn of either loop writes
into the record of its own entry, so what an earlier turn wrote stays, and what a turn appends
stands where the record says.
-/
import Baston.Proofs.Downlink
import Baston.Zone.Packfile

namespace Baston.Zone.Packfile

open Layout Baston.Rage

/-! ### Padding -/

/-- A length after padding. -/
def padded (n : Nat) : Nat := if n % ALIGNMENT ≠ 0 then n + (ALIGNMENT - n % ALIGNMENT) else n

theorem padded_mod (n : Nat) : padded n % ALIGNMENT = 0 := by
  unfold padded ALIGNMENT
  split
  · omega
  · omega

theorem le_padded (n : Nat) : n ≤ padded n := by
  unfold padded
  split
  · omega
  · omega

theorem length_padTo (buf : List UInt8) : (padTo buf ALIGNMENT).length = padded buf.length := by
  unfold padTo padded
  dsimp only
  split
  · rw [List.length_append, List.length_replicate]
  · rfl

theorem at_padTo {buf part : List UInt8} {off : Nat} (h : At buf off part) :
    At (padTo buf ALIGNMENT) off part := by
  unfold padTo
  dsimp only
  split
  · exact h.append _
  · exact h

/-! ### Records -/

/-- Where the record of entry `i` is. -/
def recordAt (i : Nat) : Nat := ALIGNMENT + i * 16

theorem length_header (n : Nat) : (header n).length = ALIGNMENT := by
  unfold header
  rw [length_padTo]
  simp only [List.length_append, length_leBytes]
  rfl

theorem length_record (e : TocEntry) : (record e).length = 16 := by
  cases e with
  | dir name c f => simp only [record, List.length_append, length_leBytes]
  | file name data => simp only [record, List.length_append, length_leBytes]

theorem length_records (entries : List TocEntry) :
    (entries.flatMap record).length = entries.length * 16 := by
  induction entries with
  | nil => rfl
  | cons e rest ih =>
      rw [List.flatMap_cons, List.length_append, length_record, ih, List.length_cons]
      omega

/-- The record of an entry in the table. -/
theorem at_records : ∀ {entries : List TocEntry} {front : List UInt8} {i : Nat} {e : TocEntry},
    entries[i]? = some e → At (front ++ entries.flatMap record) (front.length + i * 16) (record e) := by
  intro entries
  induction entries with
  | nil => exact fun h => by cases h
  | cons e rest ih =>
      intro front i e' h
      cases i with
      | zero =>
          obtain rfl := Option.some.inj h
          rw [List.flatMap_cons, ← List.append_assoc, Nat.zero_mul]
          exact at_append.append _
      | succ i =>
          have hrest : At ((front ++ record e) ++ rest.flatMap record)
              ((front ++ record e).length + i * 16) (record e') :=
            ih (show rest[i]? = some e' from h)
          rw [List.length_append, length_record] at hrest
          rw [List.flatMap_cons, ← List.append_assoc]
          rw [show front.length + (i + 1) * 16 = front.length + 16 + i * 16 by omega]
          exact hrest

/-! ### The loop that writes the names -/

/-- What the loop has done for entry `i`. -/
structure Named (base : Nat) (buf : List UInt8) (i : Nat) (e : TocEntry) (off : Nat) : Prop where
  behind : base ≤ off
  inside : off + e.name.length + 1 ≤ buf.length
  field : At buf (recordAt i) (leBytes 4 (UInt32.ofNat (off - base)).toNat)
  name : At buf off (e.name ++ [0])

/-- What lies outside the fields that are written stays. -/
def Frames (written : Nat → Prop) (lo hi : Nat) (buf buf' : List UInt8) : Prop :=
  ∀ off part, At buf off part →
    (∀ i, written i → off + part.length ≤ recordAt i + lo ∨ recordAt i + hi ≤ off) →
      At buf' off part

theorem writeName_spec {base k : Nat} {e : TocEntry} {buf : List UInt8} (hk : 0 < k)
    (hbase : recordAt k + 4 ≤ base) (hbuf : base ≤ buf.length) :
    Named base (writeName ALIGNMENT base buf (e, k)) k e buf.length
      ∧ Frames (· = k) 0 4 buf (writeName ALIGNMENT base buf (e, k))
      ∧ buf.length ≤ (writeName ALIGNMENT base buf (e, k)).length := by
  have hin : recordAt k + (leBytes 4 (UInt32.ofNat (buf.length - base)).toNat).length
      ≤ buf.length := by
    rw [length_leBytes]
    omega
  have heq : writeName ALIGNMENT base buf (e, k)
      = patch buf (recordAt k) (leBytes 4 (UInt32.ofNat (buf.length - base)).toNat)
        ++ (e.name ++ [0]) := by
    unfold writeName
    dsimp only
    have hne : k ≠ 0 := by omega
    rw [if_neg hne, if_pos hne, List.append_assoc]
    rfl
  rw [heq]
  have hlen := length_patch hin
  refine ⟨⟨hbuf, ?_, (at_patch (by omega)).append _, ?_⟩, ?_, ?_⟩
  · rw [List.length_append, hlen, List.length_append]
    exact Nat.le_refl _
  · have hend : At (patch buf (recordAt k) (leBytes 4 (UInt32.ofNat (buf.length - base)).toNat)
        ++ (e.name ++ [0])) _ (e.name ++ [0]) := at_append
    rw [hlen] at hend
    exact hend
  · intro off part hpart hbeside
    refine (hpart.patch hin ?_).append _
    rw [length_leBytes]
    have := hbeside k rfl
    omega
  · rw [List.length_append, hlen]
    omega

theorem Named.frame {base i lo hi : Nat} {e : TocEntry} {off : Nat} {buf buf' : List UInt8}
    {written : Nat → Prop} (h : Named base buf i e off) (hframe : Frames written lo hi buf buf')
    (hlonger : buf.length ≤ buf'.length) (hbase : ∀ j, written j → recordAt j + hi ≤ base)
    (hother : ∀ j, written j → recordAt i + 4 ≤ recordAt j + lo ∨ recordAt j + hi ≤ recordAt i) :
    Named base buf' i e off := by
  have hbehind := h.behind
  have hinside := h.inside
  refine ⟨h.behind, by omega, hframe _ _ h.field fun j hj => ?_, hframe _ _ h.name fun j hj => ?_⟩
  · rw [length_leBytes]
    exact hother j hj
  · have := hbase j hj
    omega

theorem Frames.trans {w w' : Nat → Prop} {lo hi : Nat} {buf buf' buf'' : List UInt8}
    (h : Frames w lo hi buf buf') (h' : Frames w' lo hi buf' buf'') :
    Frames (fun i => w i ∨ w' i) lo hi buf buf'' := fun off part hpart hbeside =>
  h' off part (h off part hpart fun i hi => hbeside i (.inl hi)) fun i hi => hbeside i (.inr hi)

theorem Frames.mono {w w' : Nat → Prop} {lo hi : Nat} {buf buf' : List UInt8}
    (h : Frames w lo hi buf buf') (hw : ∀ i, w i → w' i) : Frames w' lo hi buf buf' :=
  fun off part hpart hbeside => h off part hpart fun i hi => hbeside i (hw i hi)

/-- **The names** are all there, and the rest of the table is as it was. -/
theorem writeNames_spec {base : Nat} : ∀ (rest : List TocEntry) (k : Nat) (buf : List UInt8),
    0 < k → recordAt (k + rest.length) ≤ base → base ≤ buf.length →
      (∀ i e, rest[i]? = some e → ∃ off,
          Named base ((rest.zipIdx k).foldl (writeName ALIGNMENT base) buf) (k + i) e off)
        ∧ Frames (fun j => k ≤ j ∧ j < k + rest.length) 0 4 buf
          ((rest.zipIdx k).foldl (writeName ALIGNMENT base) buf)
        ∧ buf.length ≤ ((rest.zipIdx k).foldl (writeName ALIGNMENT base) buf).length := by
  intro rest
  induction rest with
  | nil =>
      intro k buf _ _ _
      exact ⟨fun i e h => absurd h (by simp), fun off part h _ => h, Nat.le_refl _⟩
  | cons e rest ih =>
      intro k buf hk hbase hbuf
      unfold recordAt at hbase
      rw [List.length_cons] at hbase
      obtain ⟨hnamed, hframe, hlonger⟩ := writeName_spec (e := e) hk
        (by unfold recordAt; omega : recordAt k + 4 ≤ base) hbuf
      obtain ⟨hrest, hframes, hlongest⟩ := ih (k + 1) (writeName ALIGNMENT base buf (e, k))
        (by omega) (by unfold recordAt; omega) (by omega)
      rw [List.zipIdx_cons, List.foldl_cons]
      refine ⟨fun i e' hi => ?_, (hframe.trans hframes).mono fun j hj => ?_, by omega⟩
      · cases i with
        | zero =>
            obtain rfl := Option.some.inj hi
            refine ⟨_, hnamed.frame hframes hlongest (fun j hj => ?_) fun j hj => ?_⟩
            · unfold recordAt
              omega
            · unfold recordAt
              omega
        | succ i =>
            obtain ⟨off, hoff⟩ := hrest i e' hi
            rw [show k + 1 + i = k + (i + 1) by omega] at hoff
            exact ⟨off, hoff⟩
      · rw [List.length_cons]
        omega

/-! ### The loop that writes the contents -/

/-- Where the contents of entry `i` start, if those before it start at `pos`. -/
def dataSpot : Nat → List TocEntry → Nat → Nat
  | pos, [], _ => pos
  | pos, _ :: _, 0 => pos
  | pos, .dir _ _ _ :: rest, i + 1 => dataSpot pos rest i
  | pos, .file _ data :: rest, i + 1 => dataSpot (padded (pos + data.length)) rest i

/-- What the loop has done for a file. -/
structure Filled (buf : List UInt8) (i : Nat) (data : List UInt8) (off : Nat) : Prop where
  inside : off + data.length ≤ buf.length
  fields : At buf (recordAt i + 4) (leBytes 4 (UInt32.ofNat data.length).toNat
    ++ leBytes 4 (UInt32.ofNat off).toNat ++ leBytes 4 (UInt32.ofNat data.length).toNat)
  data : At buf off data

theorem dataSpot_mod : ∀ (entries : List TocEntry) (pos i : Nat), pos % ALIGNMENT = 0 →
    dataSpot pos entries i % ALIGNMENT = 0 := by
  intro entries
  induction entries with
  | nil =>
      intro pos i h
      rw [dataSpot]
      exact h
  | cons e rest ih =>
      intro pos i h
      cases i with
      | zero => exact h
      | succ i =>
          cases e with
          | dir name c f => exact ih pos i h
          | file name data => exact ih _ i (padded_mod _)

theorem le_dataSpot : ∀ (entries : List TocEntry) (pos i : Nat), pos ≤ dataSpot pos entries i := by
  intro entries
  induction entries with
  | nil =>
      intro pos i
      rw [dataSpot]
  | cons e rest ih =>
      intro pos i
      cases i with
      | zero => exact Nat.le_refl _
      | succ i =>
          cases e with
          | dir name c f => exact ih pos i
          | file name data =>
              exact ((Nat.le_add_right _ _).trans (le_padded _)).trans (ih _ i)

/-- **The contents do not overlap.** -/
theorem dataSpot_disjoint : ∀ {entries : List TocEntry} {pos i j : Nat} {name : Name}
    {data : List UInt8}, entries[i]? = some (.file name data) → i < j →
      dataSpot pos entries i + data.length ≤ dataSpot pos entries j := by
  intro entries
  induction entries with
  | nil => exact fun h _ => by cases h
  | cons e rest ih =>
      intro pos i j name data h hij
      obtain ⟨j, rfl⟩ : ∃ j', j = j' + 1 := ⟨j - 1, by omega⟩
      cases i with
      | zero =>
          obtain rfl := Option.some.inj h
          exact (le_padded _).trans (le_dataSpot rest _ j)
      | succ i =>
          cases e with
          | dir name' c f => exact ih h (by omega)
          | file name' data' => exact ih h (by omega)

theorem writeData_file {k : Nat} (name : Name) (data : List UInt8) {buf : List UInt8}
    (hbuf : recordAt k + 16 ≤ buf.length) :
    Filled (writeData ALIGNMENT buf (.file name data, k)) k data buf.length
      ∧ Frames (· = k) 4 16 buf (writeData ALIGNMENT buf (.file name data, k))
      ∧ (writeData ALIGNMENT buf (.file name data, k)).length = padded (buf.length + data.length) := by
  have hfour : ∀ v : UInt32, (leBytes 4 v.toNat).length = 4 := fun v => length_leBytes _ _
  have heq : writeData ALIGNMENT buf (.file name data, k)
      = padTo (patch buf (recordAt k + 4) (leBytes 4 (UInt32.ofNat data.length).toNat
          ++ leBytes 4 (UInt32.ofNat buf.length).toNat
          ++ leBytes 4 (UInt32.ofNat data.length).toNat) ++ data) ALIGNMENT := by
    rw [← patch_patch (by omega), ← patch_patch (by omega)]
    simp only [List.length_append, hfour]
    rfl
  have hfields : ∀ l o : UInt32, (leBytes 4 l.toNat ++ leBytes 4 o.toNat
      ++ leBytes 4 l.toNat).length = 12 := by
    intro l o
    simp only [List.length_append, hfour]
  have hin : recordAt k + 4 + (leBytes 4 (UInt32.ofNat data.length).toNat
      ++ leBytes 4 (UInt32.ofNat buf.length).toNat
      ++ leBytes 4 (UInt32.ofNat data.length).toNat).length ≤ buf.length := by
    rw [hfields]
    omega
  have hlen := length_patch hin
  have hwritten : At (patch buf (recordAt k + 4) _) (recordAt k + 4) _ :=
    at_patch (a := leBytes 4 (UInt32.ofNat data.length).toNat
      ++ leBytes 4 (UInt32.ofNat buf.length).toNat ++ leBytes 4 (UInt32.ofNat data.length).toNat)
      (by omega : recordAt k + 4 ≤ buf.length)
  rw [heq]
  have htotal : (padTo (patch buf (recordAt k + 4) (leBytes 4 (UInt32.ofNat data.length).toNat
          ++ leBytes 4 (UInt32.ofNat buf.length).toNat
          ++ leBytes 4 (UInt32.ofNat data.length).toNat) ++ data) ALIGNMENT).length
      = padded (buf.length + data.length) := by
    rw [length_padTo, List.length_append, hlen]
  refine ⟨⟨?_, at_padTo (hwritten.append _), at_padTo ?_⟩, ?_, htotal⟩
  · rw [htotal]
    exact le_padded _
  · have hend : At (patch buf (recordAt k + 4) (leBytes 4 (UInt32.ofNat data.length).toNat
          ++ leBytes 4 (UInt32.ofNat buf.length).toNat
          ++ leBytes 4 (UInt32.ofNat data.length).toNat) ++ data) _ data := at_append
    rw [hlen] at hend
    exact hend
  · intro off part hpart hbeside
    refine at_padTo ((hpart.patch hin ?_).append _)
    rw [hfields]
    have := hbeside k rfl
    omega

theorem Filled.frame {i : Nat} {data : List UInt8} {off : Nat} {buf buf' : List UInt8}
    {written : Nat → Prop} (h : Filled buf i data off) (hframe : Frames written 4 16 buf buf')
    (hlonger : buf.length ≤ buf'.length) (hbase : ∀ j, written j → recordAt j + 16 ≤ off)
    (hother : ∀ j, written j → i < j) : Filled buf' i data off := by
  have hinside := h.inside
  refine ⟨by omega, hframe _ _ h.fields fun j hj => .inl ?_, hframe _ _ h.data fun j hj =>
    .inr (hbase j hj)⟩
  have := hother j hj
  unfold recordAt
  simp only [List.length_append, length_leBytes]
  omega

/-- An entry is a file. -/
def IsFile (entries : List TocEntry) (i : Nat) : Prop :=
  ∃ name data, entries[i]? = some (.file name data)

/-- **The contents** are all there, where they should be, and only records of files are
written into. -/
theorem writeContents_spec : ∀ (rest : List TocEntry) (k : Nat) (buf : List UInt8),
    recordAt (k + rest.length) ≤ buf.length →
      (∀ (i : Nat) name data, rest[i]? = some (TocEntry.file name data) →
          Filled ((rest.zipIdx k).foldl (writeData ALIGNMENT) buf) (k + i) data
            (dataSpot buf.length rest i))
        ∧ Frames (fun j => ∃ i, j = k + i ∧ IsFile rest i) 4 16 buf
          ((rest.zipIdx k).foldl (writeData ALIGNMENT) buf)
        ∧ ((rest.zipIdx k).foldl (writeData ALIGNMENT) buf).length
          = dataSpot buf.length rest rest.length := by
  intro rest
  induction rest with
  | nil =>
      intro k buf _
      refine ⟨fun i name data h => absurd h (by simp), fun off part h _ => h, ?_⟩
      rw [dataSpot]
      rfl
  | cons e rest ih =>
      intro k buf hbuf
      unfold recordAt at hbuf
      rw [List.length_cons] at hbuf
      rw [List.zipIdx_cons, List.foldl_cons]
      cases e with
      | dir dirName c f =>
          obtain ⟨hfilled, hframes, hlength⟩ := ih (k + 1) buf (by unfold recordAt; omega)
          have hsame : writeData ALIGNMENT buf (.dir dirName c f, k) = buf := rfl
          rw [hsame]
          refine ⟨fun i name data h => ?_, hframes.mono fun j hj => ?_, hlength⟩
          · cases i with
            | zero => cases h
            | succ i =>
                have hi := hfilled i name data h
                rw [show k + 1 + i = k + (i + 1) by omega] at hi
                exact hi
          · obtain ⟨i, rfl, name, data, hi⟩ := hj
            exact ⟨i + 1, by omega, name, data, hi⟩
      | file fileName contents =>
          obtain ⟨hfirst, hframe, hlonger⟩ := writeData_file fileName contents
            (by unfold recordAt; omega : recordAt k + 16 ≤ buf.length)
          have hmore := (Nat.le_add_right _ _).trans (le_padded (buf.length + contents.length))
          obtain ⟨hfilled, hframes, hlength⟩ := ih (k + 1) _
            (by rw [hlonger]; unfold recordAt; omega)
          rw [hlonger] at hfilled hlength
          have hrest := le_dataSpot rest (padded (buf.length + contents.length)) rest.length
          refine ⟨fun i name data h => ?_, (hframe.trans hframes).mono fun j hj => ?_, hlength⟩
          · cases i with
            | zero =>
                obtain ⟨rfl, rfl⟩ := TocEntry.file.inj (Option.some.inj h)
                refine hfirst.frame hframes (by rw [hlength, hlonger]; exact hrest)
                  (fun j hj => ?_) fun j hj => ?_
                · obtain ⟨i, rfl, name, data, hi⟩ := hj
                  have := (List.getElem?_eq_some_iff.mp hi).1
                  unfold recordAt
                  omega
                · obtain ⟨i, rfl, -⟩ := hj
                  omega
            | succ i =>
                have hi := hfilled i name data h
                rw [show k + 1 + i = k + (i + 1) by omega] at hi
                exact hi
          · rcases hj with rfl | ⟨i, rfl, name, data, hi⟩
            · exact ⟨0, by omega, fileName, contents, rfl⟩
            · exact ⟨i + 1, by omega, name, data, hi⟩

/-! ### The archive of a table -/

/-- Every part of the archive of a table in its place. -/
structure Stored (entries : List TocEntry) (archive : List UInt8) : Prop where
  count : At archive 8 (leBytes 4 (UInt32.ofNat entries.length).toNat)
  rootField : At archive (recordAt 0) (leBytes 4 (0 : UInt32).toNat)
  rootName : At archive (recordAt entries.length) [slash, 0]
  named : ∀ (i : Nat) e, 0 < i → entries[i]? = some e →
    ∃ off, Named (recordAt entries.length) archive i e off
  dirs : ∀ (i : Nat) name c f, entries[i]? = some (TocEntry.dir name c f) →
    At archive (recordAt i + 4) (leBytes 4 c.toNat ++ leBytes 4 (f ||| DIRECTORY_FLAG).toNat
      ++ leBytes 4 c.toNat)
  files : ∀ (i : Nat) name data, entries[i]? = some (TocEntry.file name data) →
    Filled archive i data (dataSpot (tocOf entries).length entries i)
  length : archive.length = dataSpot (tocOf entries).length entries entries.length
  room : recordAt entries.length ≤ archive.length

/-- The parts in front of the contents. -/
structure Tabled (entries : List TocEntry) (toc : List UInt8) : Prop where
  count : At toc 8 (leBytes 4 (UInt32.ofNat entries.length).toNat)
  rootField : At toc (recordAt 0) (leBytes 4 (0 : UInt32).toNat)
  rootName : At toc (recordAt entries.length) [slash, 0]
  named : ∀ (i : Nat) e, 0 < i → entries[i]? = some e →
    ∃ off, Named (recordAt entries.length) toc i e off
  dirs : ∀ (i : Nat) name c f, entries[i]? = some (TocEntry.dir name c f) →
    At toc (recordAt i + 4) (leBytes 4 c.toNat ++ leBytes 4 (f ||| DIRECTORY_FLAG).toNat
      ++ leBytes 4 c.toNat)
  room : recordAt entries.length ≤ toc.length
  aligned : toc.length % ALIGNMENT = 0

/-! ### How long the table is -/

/-- What the name of an entry takes behind the table. -/
def nameRoom (p : TocEntry × Nat) : Nat := if p.2 = 0 then 0 else p.1.name.length + 1

theorem length_writeName (base : Nat) {k : Nat} (e : TocEntry) {buf : List UInt8}
    (hin : recordAt k + 4 ≤ buf.length) :
    (writeName ALIGNMENT base buf (e, k)).length = buf.length + nameRoom (e, k) := by
  have hpatch : ∀ nameOff : UInt32,
      (patch buf (recordAt k) (leBytes 4 nameOff.toNat)).length = buf.length := by
    intro nameOff
    exact length_patch (by rw [length_leBytes]; exact hin)
  unfold recordAt at hpatch
  unfold writeName
  dsimp only
  by_cases hk : k = 0
  · have hroom : nameRoom (e, k) = 0 := if_pos hk
    rw [if_neg (not_not_intro hk), hpatch, hroom]
    rfl
  · have hroom : nameRoom (e, k) = e.name.length + 1 := if_neg hk
    rw [if_pos hk, List.length_append, List.length_append, hpatch, hroom]
    rfl

theorem length_writeNames (base : Nat) (entries : List TocEntry) : ∀ (k : Nat) (buf : List UInt8),
    recordAt (k + entries.length) ≤ buf.length →
      ((entries.zipIdx k).foldl (writeName ALIGNMENT base) buf).length
        = buf.length + ((entries.zipIdx k).map nameRoom).sum := by
  induction entries with
  | nil => exact fun k buf _ => rfl
  | cons e rest ih =>
      intro k buf hin
      rw [List.length_cons] at hin
      have hfirst : recordAt k + 4 ≤ buf.length := by
        unfold recordAt at hin ⊢
        omega
      have hlength := length_writeName base e hfirst
      rw [List.zipIdx_cons, List.foldl_cons, List.map_cons, List.sum_cons, ih]
      · rw [hlength]
        omega
      · unfold recordAt at hin ⊢
        omega

theorem length_tocOf (entries : List TocEntry) : (tocOf entries).length
    = padded (recordAt entries.length + 2 + (entries.zipIdx.map nameRoom).sum) := by
  have hbase : (header entries.length ++ entries.flatMap record).length
      = recordAt entries.length := by
    rw [List.length_append, length_header, length_records]
    rfl
  have hstart : (header entries.length ++ entries.flatMap record ++ [slash, 0]).length
      = recordAt entries.length + 2 := by
    rw [List.length_append, hbase]
    rfl
  have hnamed := length_writeNames (recordAt entries.length) entries 0
    (header entries.length ++ entries.flatMap record ++ [slash, 0])
    (by rw [hstart, Nat.zero_add]; omega)
  rw [hstart] at hnamed
  have hpadded := le_padded (recordAt entries.length + 2 + (entries.zipIdx.map nameRoom).sum)
  have hheader : 8 ≤ recordAt entries.length := by
    unfold recordAt ALIGNMENT
    omega
  unfold tocOf
  dsimp only
  rw [hbase, length_header, length_patch, length_padTo, hnamed]
  rw [length_leBytes, length_padTo, hnamed]
  omega

/-- The header says how many entries there are. -/
theorem at_header_count (n : Nat) (more : List UInt8) :
    At (header n ++ more) 8 (leBytes 4 (UInt32.ofNat n).toNat) := by
  have hend : At ((leBytes 4 RPF2_MAGIC.toNat ++ leBytes 4 0)
      ++ leBytes 4 (UInt32.ofNat n).toNat) _ (leBytes 4 (UInt32.ofNat n).toNat) := at_append
  rw [List.length_append, length_leBytes, length_leBytes] at hend
  exact (at_padTo ((hend.append _).append _)).append _

/-- The size of the table is all that is written into the header. -/
theorem at_sized {buf part : List UInt8} {off : Nat} (h : At buf off part) (hoff : 8 ≤ off)
    (hbuf : 8 ≤ buf.length) (size : UInt32) :
    At (patch (padTo buf ALIGNMENT) 4 (leBytes 4 size.toNat)) off part := by
  have hlonger := le_padded buf.length
  refine (at_padTo h).patch ?_ (.inr ?_)
  · rw [length_leBytes, length_padTo]
    omega
  · rw [length_leBytes]
    exact hoff

/-- **The table** with its header and its names. -/
theorem tocOf_spec {e : TocEntry} {rest : List TocEntry} :
    Tabled (e :: rest) (tocOf (e :: rest)) := by
  have hbase : (header (e :: rest).length ++ (e :: rest).flatMap record).length
      = recordAt (e :: rest).length := by
    rw [List.length_append, length_header, length_records]
    rfl
  have hpos : recordAt (e :: rest).length = recordAt 0 + 16 + rest.length * 16 := by
    unfold recordAt
    rw [List.length_cons]
    omega
  have hheader : 8 ≤ recordAt 0 := by decide
  have hzero : (leBytes 4 (0 : UInt32).toNat).length = 4 := length_leBytes _ _
  obtain ⟨start, hstart⟩ : ∃ start,
      start = header (e :: rest).length ++ (e :: rest).flatMap record ++ [slash, 0] := ⟨_, rfl⟩
  have hlen : start.length = recordAt (e :: rest).length + 2 := by
    rw [hstart, List.length_append, hbase]
    rfl
  have hroot : At start (recordAt (e :: rest).length) [slash, 0] := by
    rw [hstart, ← hbase]
    exact at_append
  have hcount : At start 8 (leBytes 4 (UInt32.ofNat (e :: rest).length).toNat) := by
    rw [hstart, List.append_assoc]
    exact at_header_count _ _
  have hrecord : ∀ (i : Nat) e', (e :: rest)[i]? = some e' → At start (recordAt i) (record e') := by
    intro i e' hi
    have hin : At (header (e :: rest).length ++ (e :: rest).flatMap record) _ (record e') :=
      at_records hi
    rw [length_header] at hin
    rw [hstart]
    exact hin.append [slash, 0]
  -- The first turn writes the zero of the root, and appends no name.
  have hpatch : (patch start (recordAt 0) (leBytes 4 (0 : UInt32).toNat)).length = start.length :=
    length_patch (by omega)
  have hnames : recordAt (1 + rest.length) ≤ recordAt (e :: rest).length := by
    rw [Nat.add_comm]
    exact Nat.le_refl _
  obtain ⟨hnamed, hframe, hlonger⟩ := writeNames_spec rest 1
    (patch start (recordAt 0) (leBytes 4 (0 : UInt32).toNat)) Nat.one_pos hnames (by omega)
  obtain ⟨named, hn⟩ : ∃ named, named = (rest.zipIdx 1).foldl
      (writeName ALIGNMENT (recordAt (e :: rest).length))
      (patch start (recordAt 0) (leBytes 4 (0 : UInt32).toNat)) := ⟨_, rfl⟩
  rw [← hn] at hnamed hframe hlonger
  have htoc : tocOf (e :: rest) = patch (padTo named ALIGNMENT) 4
      (leBytes 4 (UInt32.ofNat (padTo named ALIGNMENT).length).toNat) := by
    unfold tocOf
    dsimp only
    rw [hbase, length_header, ← hstart, List.zipIdx_cons, List.foldl_cons, hn]
    rfl
  have hfinal : ∀ off part, At named off part → 8 ≤ off → At (tocOf (e :: rest)) off part := by
    intro off part h hoff
    rw [htoc]
    exact at_sized h hoff (by omega) _
  have hfield : At named (recordAt 0) (leBytes 4 (0 : UInt32).toNat) := by
    refine hframe _ _ (at_patch (by omega)) fun j hj => .inl ?_
    unfold recordAt
    omega
  have hkeep : ∀ off part, At start off part → 8 ≤ off →
      (∀ j, j < (e :: rest).length → off + part.length ≤ recordAt j ∨ recordAt j + 4 ≤ off) →
      At (tocOf (e :: rest)) off part := by
    intro off part h hoff hbeside
    have hfirst := hbeside 0 (Nat.succ_pos _)
    refine hfinal _ _ (hframe _ _ (h.patch (by omega) (by omega)) fun j hj => ?_) hoff
    refine hbeside j ?_
    rw [List.length_cons]
    omega
  have htotal : (tocOf (e :: rest)).length = padded named.length := by
    rw [htoc, length_patch, length_padTo]
    rw [length_leBytes, length_padTo]
    have := le_padded named.length
    omega
  have hroom : named.length ≤ (tocOf (e :: rest)).length := htotal ▸ le_padded _
  refine ⟨hkeep _ _ hcount (Nat.le_refl _) fun j _ => .inl ?_, hfinal _ _ hfield hheader,
    hkeep _ _ hroot (by omega) fun j hj => .inr ?_, ?_, ?_, by omega, by rw [htotal]; exact padded_mod _⟩
  · rw [length_leBytes]
    unfold recordAt ALIGNMENT
    omega
  · unfold recordAt
    omega
  · intro i e' hi hget
    obtain ⟨i, rfl⟩ : ∃ k, i = k + 1 := ⟨i - 1, by omega⟩
    obtain ⟨off, hoff⟩ := hnamed i e' hget
    rw [Nat.add_comm 1 i] at hoff
    have hbehind := hoff.behind
    have hinside := hoff.inside
    refine ⟨off, hbehind, by omega, hfinal _ _ hoff.field ?_, hfinal _ _ hoff.name (by omega)⟩
    unfold recordAt ALIGNMENT
    omega
  · intro i name c f hi
    have hin : At start (recordAt i + 4) _ :=
      At.right (a := leBytes 4 0) (by
        have := hrecord i _ hi
        simp only [record, List.append_assoc] at this ⊢
        exact this)
    refine hkeep _ _ hin ?_ fun j hj => ?_
    · unfold recordAt ALIGNMENT
      omega
    · simp only [List.length_append, length_leBytes]
      unfold recordAt
      omega

/-- **The archive** of a table stores all of it. -/
theorem layOut_spec {e : TocEntry} {rest : List TocEntry} :
    Stored (e :: rest) (layOut (e :: rest)) := by
  have htabled : Tabled (e :: rest) (tocOf (e :: rest)) := tocOf_spec
  obtain ⟨hcount, hfield, hname, hnamed, hdirs, hroom, -⟩ := htabled
  obtain ⟨hfilled, hframe, hlength⟩ := writeContents_spec (e :: rest) 0 (tocOf (e :: rest))
    (by rw [Nat.zero_add]; exact hroom)
  have harchive : layOut (e :: rest)
      = ((e :: rest).zipIdx 0).foldl (writeData ALIGNMENT) (tocOf (e :: rest)) := by
    unfold layOut
    rw [length_header]
  rw [← harchive] at hfilled hframe hlength
  have hwritten : ∀ j, (∃ i, j = 0 + i ∧ IsFile (e :: rest) i) →
      j < (e :: rest).length ∧ IsFile (e :: rest) j := by
    intro j hj
    obtain ⟨i, rfl, hi⟩ := hj
    rw [Nat.zero_add]
    obtain ⟨name, data, hget⟩ := hi
    exact ⟨(List.getElem?_eq_some_iff.mp hget).1, name, data, hget⟩
  have hlonger := le_dataSpot (e :: rest) (tocOf (e :: rest)).length (e :: rest).length
  rw [← hlength] at hlonger
  refine ⟨hframe _ _ hcount fun j _ => .inl ?_, hframe _ _ hfield fun j _ => .inl ?_,
    hframe _ _ hname fun j hj => .inr ?_, ?_, ?_, ?_, hlength, hroom.trans hlonger⟩
  · rw [length_leBytes]
    unfold recordAt ALIGNMENT
    omega
  · rw [length_leBytes]
    unfold recordAt
    omega
  · have hlt := (hwritten j hj).1
    unfold recordAt
    omega
  · intro i e' hi hget
    obtain ⟨off, hoff⟩ := hnamed i e' hi hget
    refine ⟨off, hoff.frame hframe hlonger (fun j hj => ?_) fun j hj => ?_⟩
    · have hlt := (hwritten j hj).1
      unfold recordAt
      omega
    · unfold recordAt
      omega
  · intro i name c f hi
    refine hframe _ _ (hdirs i name c f hi) fun j hj => ?_
    obtain ⟨-, fileName, data, hget⟩ := hwritten j hj
    have hne : i ≠ j := by
      intro heq
      rw [heq, hget] at hi
      cases hi
    simp only [List.length_append, length_leBytes]
    unfold recordAt
    omega
  · intro i name data hi
    have hi' := hfilled i name data hi
    rw [Nat.zero_add] at hi'
    exact hi'

/-- The table says how long each file is. -/
theorem length_of_layOut_eq {e e' : TocEntry} {rest rest' : List TocEntry} {i : Nat}
    {name name' : Name} {data data' : List UInt8} (h : layOut (e :: rest) = layOut (e' :: rest'))
    (hi : (e :: rest)[i]? = some (.file name data))
    (hi' : (e' :: rest')[i]? = some (.file name' data')) :
    UInt32.ofNat data.length = UInt32.ofNat data'.length := by
  have hfields := ((layOut_spec.files i name data hi).fields).left.left
  have hfields' := ((layOut_spec.files i name' data' hi').fields).left.left
  rw [← h] at hfields'
  have hbytes := hfields.unique hfields' (by rw [length_leBytes, length_leBytes])
  have hwords := congrArg u32FromLe hbytes
  rwa [u32FromLe_leBytes, u32FromLe_leBytes] at hwords

end Baston.Zone.Packfile
