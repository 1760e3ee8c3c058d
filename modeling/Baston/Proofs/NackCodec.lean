/-
What a client reports missing goes there and back.

A reader reads a value from its bytes if it does so whatever stands before and behind them, and
if it gives up on every part of them that is cut short.  Both hold of a byte and of a word, and
are handed on by a sequence of readers and by a counted loop of one.  So they hold of the packet,
whichever of its sections the flags select.
-/
import Baston.Proofs.ObjectIdList

namespace Baston.Rage

namespace Reader

variable {α β : Type}

/-! ### Readers and their bytes -/

/-- The reader reads `a` from `bytes`, and from nothing less. -/
structure Reads (m : ReadM α) (a : α) (bytes : List UInt8) : Prop where
  whole : ∀ front rest, (front ++ (bytes ++ rest)).length + 8 < Checked.words →
    m.run ⟨front ++ (bytes ++ rest), front.length⟩
      = .ok (some a, ⟨front ++ (bytes ++ rest), (front ++ bytes).length⟩)
  cut : ∀ front part more, bytes = part ++ more → more ≠ [] →
    (front ++ part).length + 8 < Checked.words →
      ∃ r, m.run ⟨front ++ part, front.length⟩ = .ok (none, r)

theorem Reads.pure (a : α) : Reads (Pure.pure a) a [] := by
  refine ⟨fun front rest _ => ?_, fun front part more h hne _ => ?_⟩
  · rw [List.append_nil]
    rfl
  · exact absurd (List.append_eq_nil_iff.mp h.symm).2 hne

theorem Reads.bind {m : ReadM α} {f : α → ReadM β} {a : α} {b : β} {bytes more : List UInt8}
    (h : Reads m a bytes) (hf : Reads (f a) b more) : Reads (m >>= f) b (bytes ++ more) := by
  refine ⟨fun front rest hwords => ?_, fun front part tail hsplit hne hwords => ?_⟩
  · have hfirst := h.whole front (more ++ rest) (by simpa using hwords)
    have hthen := hf.whole (front ++ bytes) rest (by simpa using hwords)
    rw [List.append_assoc] at hthen
    rw [OptionT.run_bind, List.append_assoc]
    show (m.run _ >>= _) = _
    rw [hfirst, Checked.ok_bind]
    refine hthen.trans ?_
    rw [List.append_assoc]
  · rw [OptionT.run_bind]
    show ∃ r, (m.run _ >>= _) = _
    rcases List.append_eq_append_iff.mp hsplit with ⟨beyond, rfl, hmore⟩ | ⟨short, rfl, htail⟩
    · -- the first reader finds all of its bytes
      obtain ⟨r, hr⟩ := hf.cut (front ++ bytes) beyond tail hmore hne (by simpa using hwords)
      rw [h.whole front beyond hwords, Checked.ok_bind]
      rw [List.append_assoc] at hr
      exact ⟨r, hr⟩
    · by_cases hshort : short = []
      · subst hshort
        rw [List.append_nil] at h
        obtain ⟨r, hr⟩ := hf.cut (front ++ part) [] tail (by simpa using htail.symm) hne
          (by simpa using hwords)
        have hfirst := h.whole front [] (by simpa using hwords)
        rw [List.append_nil] at hfirst hr
        rw [hfirst, Checked.ok_bind]
        exact ⟨r, hr⟩
      · obtain ⟨r, hr⟩ := h.cut front part short rfl hshort hwords
        rw [hr, Checked.ok_bind]
        exact ⟨r, rfl⟩

/-- Reading a value for what is made of it. -/
theorem Reads.map {m : ReadM α} {a : α} {bytes : List UInt8} (h : Reads m a bytes) (f : α → β) :
    Reads (m >>= fun a => Pure.pure (f a)) (f a) bytes := by
  have hbind : Reads (m >>= fun a => Pure.pure (f a)) (f a) (bytes ++ []) := h.bind (.pure (f a))
  rwa [List.append_nil] at hbind

theorem reads_u8 (v : UInt8) : Reads u8 v [v] := by
  refine ⟨fun front rest hwords => ?_, fun front part more hsplit hne _ => ?_⟩
  · have hat : (front ++ ([v] ++ rest))[front.length]? = some v := by simp
    rw [run_u8_some hat (by simp only [List.length_append] at hwords ⊢; omega), List.length_append]
    rfl
  · cases part with
    | nil =>
        have hnone : (front ++ [])[front.length]? = none := by simp
        exact ⟨⟨front ++ [], front.length⟩, run_u8_none hnone⟩
    | cons b rest =>
        have hlen := congrArg List.length hsplit
        have hpos := List.length_pos_iff.mpr hne
        simp only [List.length_append, List.length_cons, List.length_nil] at hlen
        omega

theorem reads_take {bytes : List UInt8} (hn : bytes.length ≤ 8) :
    Reads (take bytes.length) bytes bytes := by
  refine ⟨fun front rest hwords => ?_, fun front part more hsplit hne hwords => ?_⟩
  · simp only [List.length_append] at hwords
    rw [run_take_some (by simp only; omega) (Checked.get_append ..), List.length_append]
  · have hlen := congrArg List.length hsplit
    have hpos := List.length_pos_iff.mpr hne
    simp only [List.length_append] at hlen hwords
    have hnone : Checked.get (front ++ part) front.length (front.length + bytes.length) = none :=
      if_neg (by simp only [List.length_append]; omega)
    exact ⟨⟨front ++ part, front.length⟩, run_take_none (by simp only; omega) hnone⟩

theorem reads_u16 (v : UInt16) : Reads u16 v (leBytes 2 v.toNat) := by
  have hlen := length_leBytes 2 v.toNat
  have htake : Reads (take (leBytes 2 v.toNat).length) _ _ := reads_take (by omega)
  have hword := htake.map u16FromLe
  rw [hlen, ObjectIds.u16FromLe_leBytes] at hword
  exact hword

theorem reads_u64 (v : UInt64) : Reads u64 v (leBytes 8 v.toNat) := by
  have hlen := length_leBytes 8 v.toNat
  have htake : Reads (take (leBytes 8 v.toNat).length) _ _ := reads_take (by omega)
  have hword := htake.map u64FromLe
  rw [hlen, u64FromLe_leBytes] at hword
  exact hword

/-- A counted loop of one reader. -/
theorem Reads.times {m : ReadM α} {enc : α → List UInt8} (h : ∀ a, Reads m a (enc a)) :
    ∀ l : List α, Reads (times l.length m) l (l.flatMap enc) := by
  intro l
  induction l with
  | nil => exact .pure []
  | cons a rest ih => exact (h a).bind (ih.map (a :: ·))

/-- A list behind its length. -/
theorem reads_counted {m : ReadM α} {enc : α → List UInt8} (h : ∀ a, Reads m a (enc a))
    {l : List α} (hl : l.length ≤ 255) :
    Reads (do let count ← u8; Reader.times count.toNat m) l
      (UInt8.ofNat l.length :: l.flatMap enc) := by
  have hcount : (UInt8.ofNat l.length).toNat = l.length := by
    rw [UInt8.toNat_ofNat']
    omega
  have hloop := Reads.times h l
  refine (reads_u8 (UInt8.ofNat l.length)).bind ?_
  rw [hcount]
  exact hloop

theorem reads_ignoreList {l : List IgnoreEntry} (hl : l.length ≤ 255) :
    Reads ignoreList l (UInt8.ofNat l.length :: l.flatMap IgnoreEntry.bytes) := by
  refine reads_counted (fun e => ?_) hl
  exact (reads_u16 e.objectId).bind ((reads_u64 e.lastFrame).map (IgnoreEntry.mk e.objectId))

theorem reads_recreateList {l : List UInt16} (hl : l.length ≤ 255) :
    Reads recreateList l (UInt8.ofNat l.length :: l.flatMap fun id => leBytes 2 id.toNat) :=
  reads_counted reads_u16 hl

/-- The whole of the bytes is parsed. -/
theorem Reads.parse {m : ReadM α} {a : α} {bytes : List UInt8} (h : Reads m a bytes)
    (hwords : bytes.length + 8 < Checked.words) : Reader.parse m bytes = .ok (some a) := by
  have hrun := h.whole [] [] (by simpa using hwords)
  simp only [List.nil_append, List.append_nil, List.length_nil] at hrun
  unfold Reader.parse
  rw [hrun]
  rfl

/-- Less than the whole of the bytes is not. -/
theorem Reads.parse_cut {m : ReadM α} {a : α} {bytes part more : List UInt8}
    (h : Reads m a bytes) (hsplit : bytes = part ++ more) (hne : more ≠ [])
    (hwords : part.length + 8 < Checked.words) : Reader.parse m part = .ok none := by
  obtain ⟨r, hrun⟩ := h.cut [] part more hsplit hne (by simpa using hwords)
  rw [List.nil_append, List.length_nil] at hrun
  unfold Reader.parse
  rw [hrun]
  rfl

end Reader

/-! ### The packet -/

namespace GameStateNAck

/-- The flags say which sections there are, and the lists fit their counts. -/
structure Consistent (n : GameStateNAck) : Prop where
  missing : n.missingFrames.isSome = true ↔ n.flags &&& isMissingFrames ≠ 0
  ignored : n.flags &&& hasIgnoreList = 0 → n.ignoreList = []
  recreated : n.flags &&& hasRecreateList = 0 → n.recreateList = []
  ignoredFit : n.ignoreList.length ≤ 255
  recreatedFit : n.recreateList.length ≤ 255

end GameStateNAck

open GameStateNAck Reader

variable {n : GameStateNAck}

/-- The bytes of the missing frames. -/
def missingBytes (n : GameStateNAck) : List UInt8 :=
  match n.missingFrames with
  | some (first, last) => leBytes 8 first.toNat ++ leBytes 8 last.toNat
  | none => []

/-- The bytes of a list, if its flag is set. -/
def sectionBytes {α : Type} (flagged : Prop) [Decidable flagged] (enc : α → List UInt8)
    (l : List α) : List UInt8 :=
  if flagged then UInt8.ofNat l.length :: l.flatMap enc else []

theorem buildNack_eq (n : GameStateNAck) :
    buildNack n = [n.flags] ++ (leBytes 8 n.frameIndex.toNat ++ (missingBytes n
      ++ (sectionBytes (n.flags &&& hasIgnoreList ≠ 0) IgnoreEntry.bytes n.ignoreList
        ++ sectionBytes (n.flags &&& hasRecreateList ≠ 0) (fun id => leBytes 2 id.toNat)
          n.recreateList))) := by
  simp only [buildNack, List.append_assoc]
  rfl

/-- A section that the flags select, and the rest of the packet. -/
theorem reads_section {α β : Type} {flagged : Prop} [Decidable flagged] {m : ReadM (List α)}
    {f : List α → ReadM β} {enc : α → List UInt8} {l : List α} {b : β} {more : List UInt8}
    (hm : Reads m l (UInt8.ofNat l.length :: l.flatMap enc)) (hl : ¬ flagged → l = [])
    (hf : Reads (f l) b more) :
    Reads (if flagged then m >>= f else pure [] >>= f) b (sectionBytes flagged enc l ++ more) := by
  unfold sectionBytes
  by_cases h : flagged
  · rw [if_pos h, if_pos h]
    exact hm.bind hf
  · rw [if_neg h, if_neg h]
    rw [hl h] at hf
    exact (Reads.pure []).bind hf

/-- The parser reads a packet from what was built of it. -/
theorem reads_nack (h : n.Consistent) :
    ∃ m, parseNack = Reader.parse m ∧ Reads m n (buildNack n) := by
  refine ⟨_, rfl, ?_⟩
  rw [buildNack_eq]
  refine (reads_u8 n.flags).bind ((reads_u64 n.frameIndex).bind ?_)
  extract_lets -underBinder jp
  have hjp : Reads (jp n.missingFrames) n
      (sectionBytes (n.flags &&& hasIgnoreList ≠ 0) IgnoreEntry.bytes n.ignoreList
        ++ sectionBytes (n.flags &&& hasRecreateList ≠ 0) (fun id => leBytes 2 id.toNat)
          n.recreateList) := by
    refine reads_section (reads_ignoreList h.ignoredFit) (fun hf => h.ignored (not_not.mp hf)) ?_
    have hlast := reads_section (reads_recreateList h.recreatedFit)
      (fun hf => h.recreated (not_not.mp hf)) (f := fun recreateList => pure
        (GameStateNAck.mk n.flags n.frameIndex n.missingFrames n.ignoreList recreateList))
      (.pure n)
    rw [List.append_nil] at hlast
    exact hlast
  unfold missingBytes
  have hmissing := h.missing
  cases hframes : n.missingFrames with
  | none =>
      rw [hframes] at hmissing hjp
      rw [if_neg fun hf => by simpa using hmissing.mpr hf]
      exact (Reads.pure none).bind hjp
  | some frames =>
      obtain ⟨first, last⟩ := frames
      rw [hframes] at hmissing hjp
      rw [if_pos (hmissing.mp rfl), List.append_assoc]
      refine (reads_u64 first).bind ((reads_u64 last).bind ?_)
      exact (Reads.pure (some (first, last))).bind hjp

theorem length_flatMap_le {α : Type} (enc : α → List UInt8) (width : Nat)
    (h : ∀ a, (enc a).length ≤ width) :
    ∀ l : List α, (l.flatMap enc).length ≤ l.length * width := by
  intro l
  induction l with
  | nil => simp
  | cons a rest ih =>
      have := h a
      rw [List.flatMap_cons, List.length_append, List.length_cons, Nat.add_mul]
      omega

/-- A packet is far from the end of memory. -/
theorem length_buildNack (h : n.Consistent) : (buildNack n).length ≤ 3087 := by
  have hignored := length_flatMap_le IgnoreEntry.bytes 10
    (fun e => by simp [IgnoreEntry.bytes]) n.ignoreList
  have hrecreated := length_flatMap_le (fun id : UInt16 => leBytes 2 id.toNat) 2
    (fun id => by simp) n.recreateList
  have hmissing : (missingBytes n).length ≤ 16 := by
    unfold missingBytes
    split <;> simp
  have hsection : ∀ {α : Type} (flagged : Prop) [Decidable flagged] (enc : α → List UInt8)
      (l : List α), (sectionBytes flagged enc l).length ≤ 1 + (l.flatMap enc).length := by
    intro α flagged _ enc l
    unfold sectionBytes
    split
    · rw [List.length_cons]
      omega
    · exact Nat.zero_le _
  have hignoredSection := hsection (n.flags &&& hasIgnoreList ≠ 0) IgnoreEntry.bytes n.ignoreList
  have hrecreatedSection := hsection (n.flags &&& hasRecreateList ≠ 0)
    (fun id : UInt16 => leBytes 2 id.toNat) n.recreateList
  have := h.ignoredFit
  have := h.recreatedFit
  rw [buildNack_eq]
  simp only [List.length_append, List.length_singleton, length_leBytes]
  omega

/-- **A report goes there and back**, and nothing less than all of it is one. -/
theorem nack_round_trip (n : GameStateNAck) (h : n.Consistent) :
    parseNack (buildNack n) = .ok (some n)
      ∧ ∀ part, part <+: buildNack n → part ≠ buildNack n → parseNack part = .ok none := by
  obtain ⟨m, hm, hreads⟩ := reads_nack h
  have hlength := length_buildNack h
  have hsmall : (buildNack n).length + 8 < Checked.words := by
    unfold Checked.words
    omega
  rw [hm]
  refine ⟨hreads.parse hsmall, ?_⟩
  rintro part ⟨more, hmore⟩ hne
  refine hreads.parse_cut hmore.symm ?_ ?_
  · rintro rfl
    exact hne (by rw [← hmore, List.append_nil])
  · have := congrArg List.length hmore
    rw [List.length_append] at this
    omega

/-- A report with every section. -/
theorem full_nack_round_trip :
    parseNack (buildNack ⟨15, 1, some (2, 3), [⟨4, 5⟩], [6, 7]⟩)
        = .ok (some ⟨15, 1, some (2, 3), [⟨4, 5⟩], [6, 7]⟩)
      ∧ ∀ part, part <+: buildNack ⟨15, 1, some (2, 3), [⟨4, 5⟩], [6, 7]⟩ →
        part ≠ buildNack ⟨15, 1, some (2, 3), [⟨4, 5⟩], [6, 7]⟩ → parseNack part = .ok none :=
  nack_round_trip _ ⟨by decide, by decide, by decide, by decide, by decide⟩

end Baston.Rage
