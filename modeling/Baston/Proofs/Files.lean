/-
A range request gets the slice it asks for.

A range that is parsed lies inside the file, so its length and the ends of its slice are numbers.
A body from disk is the slice, chunk by chunk: what has been sent and what remains are together
always the whole of it.
-/
import Baston.Gateway.Files

namespace Baston.Gateway

/-! ### Ranges -/

/-- The range lies inside a file of the size. -/
structure ByteRange.Within (r : ByteRange) (size : Nat) : Prop where
  ordered : r.start ≤ r.endInclusive
  inside : r.endInclusive < size

variable {toStr : List UInt8 → Option (List Char)} {size : Nat} {r : ByteRange}

theorem ByteRange.Within.len (h : r.Within size) (hsize : size < Checked.words) :
    r.len = .ok (r.endInclusive + 1 - r.start) := by
  have hordered := h.ordered
  have hinside := h.inside
  unfold ByteRange.len
  rw [Checked.sub_eq hordered, Checked.ok_bind, Checked.add_eq (by omega)]
  congr 1
  omega

/-- What is parsed lies inside the file, and parsing comes to an end. -/
theorem parseRange_within (value : List Char) (size : Nat) :
    ∃ r, parseRange value size = .ok r ∧ ∀ range ∈ r, range.Within size := by
  have hnone : ∀ range ∈ (none : Option ByteRange), range.Within size :=
    fun range h => absurd h (by simp)
  unfold parseRange
  split
  · exact ⟨none, rfl, hnone⟩
  · split
    · exact ⟨none, rfl, hnone⟩
    · split
      · exact ⟨none, rfl, hnone⟩
      · next start stop _ =>
          split
          · exact ⟨none, rfl, hnone⟩
          · next hpos =>
              have hlast : Checked.sub size 1 = .ok (size - 1) := Checked.sub_eq (by omega)
              split
              · -- both ends are given
                split
                · next start stop _ _ =>
                    split
                    · exact ⟨none, rfl, hnone⟩
                    · next hin =>
                        rw [not_or, gt_iff_lt, UInt64.lt_iff_toNat_lt] at hin
                        rw [hlast]
                        refine ⟨some ⟨start.toNat, min stop.toNat (size - 1)⟩, rfl, ?_⟩
                        rintro _ ⟨⟩
                        exact ⟨by simp only; omega, by simp only; omega⟩
                · exact ⟨none, rfl, hnone⟩
              · -- from an offset on
                split
                · next start _ =>
                    split
                    · exact ⟨none, rfl, hnone⟩
                    · next hin =>
                        rw [hlast]
                        refine ⟨some ⟨start.toNat, size - 1⟩, rfl, ?_⟩
                        rintro _ ⟨⟩
                        exact ⟨by simp only; omega, by simp only; omega⟩
                · exact ⟨none, rfl, hnone⟩
              · -- the last bytes
                split
                · next suffix _ =>
                    split
                    · exact ⟨none, rfl, hnone⟩
                    · next hsuffix =>
                        have hsome : suffix.toNat ≠ 0 := fun h => hsuffix (UInt64.toNat_inj.mp h)
                        rw [Checked.sub_eq (Nat.min_le_right _ _), hlast]
                        refine ⟨some ⟨size - min suffix.toNat size, size - 1⟩, rfl, ?_⟩
                        rintro _ ⟨⟩
                        exact ⟨by simp only; omega, by simp only; omega⟩
                · exact ⟨none, rfl, hnone⟩
              · exact ⟨none, rfl, hnone⟩

/-- A range that a request asks for lies inside the file. -/
theorem requestedRange_within {header : Option (List UInt8)} {range : Option ByteRange}
    (h : requestedRange toStr header size = .ok (some range)) : ∀ r ∈ range, r.Within size := by
  unfold requestedRange at h
  split at h
  · obtain rfl := Option.some.inj (Except.ok.inj h)
    exact fun r hr => absurd hr (by simp)
  · split at h
    · exact absurd (Except.ok.inj h) (by simp)
    · next text _ =>
        obtain ⟨parsed, hparsed, hwithin⟩ := parseRange_within text size
        rw [hparsed] at h
        obtain ⟨r, hr, rfl⟩ := Option.map_eq_some_iff.mp (Except.ok.inj h)
        rintro _ ⟨⟩
        exact hwithin r hr

/-! ### Bodies -/

/-- The bytes that are asked for. -/
def selected (file : List UInt8) : Option ByteRange → List UInt8
  | some r => (file.drop r.start).take (r.endInclusive + 1 - r.start)
  | none => file

/-- Where they begin. -/
def offset (range : Option ByteRange) : Nat := (range.map ByteRange.start).getD 0

variable {file : List UInt8} {range : Option ByteRange}

theorem selected_eq (h : ∀ r ∈ range, r.Within file.length) :
    selected file range = (file.drop (offset range)).take (selected file range).length
      ∧ offset range + (selected file range).length ≤ file.length := by
  cases range with
  | none => exact ⟨by simp [selected, offset], by simp [selected, offset]⟩
  | some r =>
      obtain ⟨hordered, hinside⟩ := h r rfl
      have hlen : (selected file (some r)).length = r.endInclusive + 1 - r.start := by
        simp only [selected, List.length_take, List.length_drop]
        omega
      rw [hlen]
      exact ⟨rfl, by simp only [offset, Option.map_some, Option.getD_some]; omega⟩

/-- The length that is advertised. -/
theorem rangeLen_eq (h : ∀ r ∈ range, r.Within file.length) (hsize : file.length < Checked.words) :
    rangeLen file.length range = .ok (selected file range).length := by
  cases range with
  | none => rfl
  | some r =>
      have hwithin := h r rfl
      have hinside := hwithin.inside
      refine (hwithin.len hsize).trans ?_
      simp only [selected, List.length_take, List.length_drop]
      congr 1
      omega

/-- What a read hands back, if it hands back something. -/
def ReadOutcome.Gives : ReadOutcome → Prop
  | .read most => 1 ≤ most
  | _ => False

/-- **A stream sends what remains**, however much each read hands back. -/
theorem diskBody_spec (file : List UInt8) : ∀ (reads : List ReadOutcome) (s : DiskStream),
    s.position + s.remaining ≤ file.length → ∃ body, diskBody file s reads = .ok body
      ∧ (body.ending = some .normal →
        body.chunks.flatten = (file.drop s.position).take s.remaining)
      ∧ (1 ≤ s.chunkSize → (∀ r ∈ reads, r.Gives) → s.remaining ≤ reads.length →
        body.ending = some .normal) := by
  intro reads
  induction reads with
  | nil =>
      intro s _
      refine ⟨_, rfl, fun hend => ?_, fun _ _ hshort => ?_⟩
      · have hdone : s.remaining = 0 := by
          by_contra hne
          simp [hne] at hend
        rw [hdone, List.take_zero]
        rfl
      · rw [List.length_nil] at hshort
        exact if_pos (Nat.le_zero.mp hshort)
  | cons outcome rest ih =>
      intro s hfits
      unfold diskBody
      by_cases hdone : s.remaining = 0
      · rw [if_pos hdone]
        refine ⟨_, rfl, fun _ => ?_, fun _ _ _ => rfl⟩
        rw [hdone, List.take_zero]
        rfl
      · rw [if_neg hdone]
        cases outcome with
        | failed =>
            exact ⟨_, rfl, fun hend => absurd hend (by simp),
              fun _ hgives _ => absurd (hgives _ List.mem_cons_self) id⟩
        | timedOut =>
            exact ⟨_, rfl, fun hend => absurd hend (by simp),
              fun _ hgives _ => absurd (hgives _ List.mem_cons_self) id⟩
        | read most =>
            simp only
            generalize hn : min most (min s.remaining s.chunkSize) = n
            have hlen : ((file.drop s.position).take n).length = n := by
              rw [List.length_take, List.length_drop]
              omega
            rw [hlen]
            by_cases hnothing : n = 0
            · rw [if_pos hnothing]
              refine ⟨_, rfl, fun hend => absurd hend (by simp), fun hchunk hgives _ => ?_⟩
              have hmost : 1 ≤ most := hgives _ List.mem_cons_self
              omega
            · rw [if_neg hnothing, Checked.sub_eq (by omega), Checked.ok_bind]
              obtain ⟨body, hbody, hnormal, hends⟩ :=
                ih ⟨s.position + n, s.remaining - n, s.chunkSize⟩ (by simp only; omega)
              rw [hbody, Checked.ok_bind]
              refine ⟨_, rfl, fun hend => ?_, fun hchunk hgives hshort => ?_⟩
              · -- this chunk and the rest of the stream
                have hall : n + (s.remaining - n) = s.remaining := by omega
                rw [List.flatten_cons, hnormal hend, ← List.drop_drop, ← List.take_add, hall]
              · refine hends hchunk (fun r hr => hgives r (List.mem_cons_of_mem _ hr)) ?_
                simp only [List.length_cons] at hshort ⊢
                omega

/-! ### Serving -/

theorem responseHeaders_length {length : Nat} (hlen : rangeLen size range = .ok length)
    (status : StatusCode) (contentType : String) (body : Body) :
    ∃ response, responseHeaders status contentType size range body = .ok response
      ∧ response.contentLength = some (toString length) ∧ response.body = body := by
  unfold responseHeaders
  rw [hlen]
  exact ⟨_, rfl, rfl, rfl⟩

theorem serveMemory_get {header : Option (List UInt8)}
    (hrange : requestedRange toStr header file.length = .ok (some range))
    (hsize : file.length < Checked.words) :
    ∃ response, serveMemory toStr .get header true file = .ok response
      ∧ response.contentLength = some (toString (selected file range).length)
      ∧ response.body = ⟨[selected file range], some .normal⟩ := by
  have hwithin := requestedRange_within hrange
  obtain ⟨response, hresponse, hlength, hbody⟩ := responseHeaders_length
    (rangeLen_eq hwithin hsize) (statusOf range) "application/octet-stream"
    ⟨[selected file range], some .normal⟩
  refine ⟨response, ?_, hlength, hbody⟩
  unfold serveMemory
  simp only
  rw [hrange, Checked.ok_bind, ← hresponse]
  cases range with
  | none => rfl
  | some r =>
      obtain ⟨hordered, hinside⟩ := hwithin r rfl
      have hslice : Checked.slice file r.start (r.endInclusive + 1)
          = .ok (selected file (some r)) := Checked.slice_eq (by omega) (by omega)
      simp only [if_true]
      rw [Checked.add_eq (by omega), Checked.ok_bind, hslice, Checked.ok_bind]

theorem serveDisk_get {header : Option (List UInt8)}
    (hrange : requestedRange toStr header file.length = .ok (some range))
    (hsize : file.length < Checked.words) (contentType : String) {chunkSize : Nat}
    (hchunk : 1 ≤ chunkSize) (reads : List ReadOutcome) :
    ∃ response, serveDisk toStr .get header contentType true .done .done chunkSize reads file
        = .ok response
      ∧ response.contentLength = some (toString (selected file range).length)
      ∧ (response.body.ending = some .normal →
        response.body.chunks.flatten = selected file range)
      ∧ ((∀ r ∈ reads, r.Gives) → (selected file range).length ≤ reads.length →
        response.body.ending = some .normal) := by
  have hwithin := requestedRange_within hrange
  have hlen := rangeLen_eq hwithin hsize
  obtain ⟨hselected, hfits⟩ := selected_eq hwithin
  obtain ⟨body, hbody, hnormal, hends⟩ := diskBody_spec file reads
    ⟨offset range, (selected file range).length, chunkSize⟩ hfits
  obtain ⟨response, hresponse, hlength, rfl⟩ :=
    responseHeaders_length hlen (statusOf range) contentType body
  refine ⟨response, ?_, hlength, fun hend => (hnormal hend).trans hselected.symm, hends hchunk⟩
  unfold serveDisk
  simp only
  rw [hrange, Checked.ok_bind, ← hresponse]
  simp only [ite_self, if_true]
  rw [hlen, Checked.ok_bind]
  unfold offset at hbody
  rw [hbody, Checked.ok_bind]

/-- **A range request serves the slice it asks for**, from memory and from disk alike, and
advertises its length, whatever texts a header's bytes are read as. -/
theorem ranges_serve_their_slice :
    (∀ value size, size < Checked.words → ∃ r, parseRange value size = .ok r
      ∧ ∀ range ∈ r, range.start ≤ range.endInclusive ∧ range.endInclusive < size
        ∧ range.len = .ok (range.endInclusive + 1 - range.start))
      ∧ ∀ toStr (file : List UInt8) header range contentType chunkSize reads,
        file.length < Checked.words →
        requestedRange toStr header file.length = .ok (some range) → 1 ≤ chunkSize →
          ∃ memory disk, serveMemory toStr .get header true file = .ok memory
            ∧ serveDisk toStr .get header contentType true .done .done chunkSize reads file
              = .ok disk
            ∧ memory.body = ⟨[selected file range], some .normal⟩
            ∧ (disk.body.ending = some .normal →
              disk.body.chunks.flatten = selected file range)
            ∧ ((∀ r ∈ reads, r.Gives) → (selected file range).length ≤ reads.length →
              disk.body.ending = some .normal)
            ∧ memory.contentLength = some (toString (selected file range).length)
            ∧ disk.contentLength = some (toString (selected file range).length) := by
  refine ⟨fun value size hsize => ?_, ?_⟩
  · obtain ⟨r, hr, hwithin⟩ := parseRange_within value size
    refine ⟨r, hr, fun range hrange => ?_⟩
    have h := hwithin range hrange
    exact ⟨h.ordered, h.inside, h.len hsize⟩
  · intro toStr file header range contentType chunkSize reads hsize hrange hchunk
    obtain ⟨memory, hmemory, hmemoryLength, hmemoryBody⟩ := serveMemory_get hrange hsize
    obtain ⟨disk, hdisk, hdiskLength, hdiskBody, hends⟩ :=
      serveDisk_get hrange hsize contentType hchunk reads
    exact ⟨memory, disk, hmemory, hdisk, hmemoryBody, hdiskBody, hends, hmemoryLength, hdiskLength⟩

/-- The text of a header of visible ASCII and tabs. -/
def visibleText (value : List UInt8) : Option (List Char) :=
  if value.all fun b => b = 9 ∨ (32 ≤ b ∧ b < 127) then
    some (value.map fun b => Char.ofNat b.toNat)
  else none

/-- The last three bytes of a file, in reads of one byte at most. -/
theorem last_three_bytes :
    ∃ memory disk, serveMemory visibleText .get (some "bytes=-3".toUTF8.toList) true
        [1, 2, 3, 4, 5] = .ok memory
      ∧ serveDisk visibleText .get (some "bytes=-3".toUTF8.toList) "text/html" true .done .done 2
        [.read 1, .read 1, .read 1] [1, 2, 3, 4, 5] = .ok disk
      ∧ memory.body = ⟨[[3, 4, 5]], some .normal⟩
      ∧ disk.body.chunks.flatten = [3, 4, 5] := by
  obtain ⟨memory, disk, hmemory, hdisk, hbody, hflat, hends, -, -⟩ :=
    ranges_serve_their_slice.2 visibleText [1, 2, 3, 4, 5] (some "bytes=-3".toUTF8.toList)
      (some ⟨2, 4⟩) "text/html" 2 [.read 1, .read 1, .read 1] (by decide) (by decide +kernel)
      (by decide)
  refine ⟨memory, disk, hmemory, hdisk, hbody, hflat (hends ?_ (by decide))⟩
  simp [ReadOutcome.Gives]

end Baston.Gateway
