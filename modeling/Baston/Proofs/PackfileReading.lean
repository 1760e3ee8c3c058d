/-
Reading a packfile back.

An archive that stores a table shows it: every record is read as the entry it was written for.  A
directory is told from a file by the top bit of its third field, which for a file is the place of
its contents.  So a file whose contents start in the upper half of the range of that field is
read as a directory, and every other one as itself.
-/
import Baston.Proofs.PackfileBytes
import Baston.Proofs.PackfileTable

namespace Baston.Zone.Packfile

open Layout DirNode Baston.Rage

attribute [local instance] byteOrder

/-! ### Fields and names -/

theorem u32At_of_at {buf : List UInt8} {off : Nat} {v : UInt32}
    (h : At buf off (leBytes 4 v.toNat)) : u32At buf off = v := by
  have htake := h.take_drop
  rw [length_leBytes] at htake
  rw [u32At, htake, u32FromLe_leBytes]

theorem takeWhile_of_at {buf : List UInt8} {off : Nat} {name : Name} (h : At buf off (name ++ [0]))
    (hname : 0 ∉ name) : (buf.drop off).takeWhile (· ≠ 0) = name := by
  have htake := h.take_drop
  rw [← List.take_append_drop (name ++ [0]).length (buf.drop off), htake, List.append_assoc,
    List.takeWhile_append_of_pos]
  · simp
  · intro b hb
    have hne : b ≠ 0 := fun heq => hname (heq ▸ hb)
    simpa using hne

/-- The top bit of a field. -/
theorem flag_iff (v : UInt32) : v &&& DIRECTORY_FLAG ≠ 0 ↔ 2 ^ 31 ≤ v.toNat := by
  have hflag : DIRECTORY_FLAG.toNat = 2 ^ 31 := by decide
  have hzero : (v &&& DIRECTORY_FLAG = 0) ↔ v.toNat.testBit 31 = false := by
    rw [← UInt32.toNat_inj, UInt32.toNat_and, hflag, Nat.and_two_pow]
    cases v.toNat.testBit 31 with
    | true => simp
    | false => simp
  rw [ne_eq, hzero, Bool.not_eq_false]
  constructor
  · intro h
    by_contra hlt
    rw [Nat.testBit_lt_two_pow (Nat.lt_of_not_le hlt)] at h
    cases h
  · intro h
    have hlt := v.toNat_lt
    rw [Nat.testBit_eq_decide_div_mod_eq, decide_eq_true_iff]
    omega

/-- A field that carries the bit, and what it carries besides. -/
theorem flagged {f : UInt32} (h : f.toNat < 2 ^ 31) : (f ||| DIRECTORY_FLAG) &&& DIRECTORY_FLAG ≠ 0
    ∧ ((f ||| DIRECTORY_FLAG) &&& 0x7FFFFFFF).toNat = f.toNat := by
  have hflag : DIRECTORY_FLAG.toNat = 2 ^ 31 := by decide
  have hmask : (0x7FFFFFFF : UInt32).toNat = 2 ^ 31 - 1 := by decide
  constructor
  · rw [flag_iff, UInt32.toNat_or, hflag]
    exact Nat.right_le_or
  · rw [UInt32.toNat_and, UInt32.toNat_or, hflag, hmask, Nat.and_two_pow_sub_one_eq_mod,
      Nat.or_mod_two_pow, Nat.mod_self, Nat.or_zero, Nat.mod_eq_of_lt h]

/-! ### Entries -/

section Reading

variable {entries : List TocEntry} {archive : List UInt8}

theorem Stored.count_le (h : Stored entries archive) : ALIGNMENT + entries.length * 16
    ≤ archive.length := h.room

theorem entryCount_eq (h : Stored entries archive) (hsize : archive.length < 2 ^ 32) :
    entryCount archive = entries.length := by
  have hroom := h.count_le
  unfold entryCount
  rw [u32At_of_at h.count, UInt32.toNat_ofNat_of_lt']
  exact Nat.lt_of_le_of_lt (by omega) hsize

/-- The name of entry `i` as it is read. -/
def readName (archive : List UInt8) (i : Nat) : Name :=
  (archive.drop (ALIGNMENT + entryCount archive * 16
    + (u32At archive (recordAt i)).toNat)).takeWhile (· ≠ 0)

theorem readName_child (h : Stored entries archive) (hsize : archive.length < 2 ^ 32) {i : Nat}
    {e : TocEntry} (hi : 0 < i) (hget : entries[i]? = some e) (hname : 0 ∉ e.name) :
    readName archive i = e.name := by
  obtain ⟨off, hoff⟩ := h.named i e hi hget
  have hbehind := hoff.behind
  have hinside := hoff.inside
  have hplace : (UInt32.ofNat (off - recordAt entries.length)).toNat
      = off - recordAt entries.length := UInt32.toNat_ofNat_of_lt' (by
    exact Nat.lt_of_le_of_lt (by omega : off - recordAt entries.length ≤ archive.length) hsize)
  unfold readName
  rw [u32At_of_at hoff.field, entryCount_eq h hsize, hplace]
  have hsum : ALIGNMENT + entries.length * 16 + (off - recordAt entries.length) = off := by
    unfold recordAt at hbehind ⊢
    omega
  rw [hsum]
  exact takeWhile_of_at hoff.name hname

theorem readItem_dir (h : Stored entries archive) {i : Nat} {name : Name} {c f : UInt32}
    (hget : entries[i]? = some (.dir name c f)) (hf : f.toNat < 2 ^ 31) :
    readItem archive i = .dir (readName archive i) c.toNat f.toNat := by
  have hfields := h.dirs i name c f hget
  have hcount : u32At archive (recordAt i + 4) = c := u32At_of_at hfields.left.left
  have hplace : u32At archive (recordAt i + 8) = f ||| DIRECTORY_FLAG := by
    have hmiddle := hfields.left.right
    rw [length_leBytes] at hmiddle
    exact u32At_of_at hmiddle
  obtain ⟨hflag, hfirst⟩ := flagged hf
  unfold readItem
  dsimp only
  rw [show ALIGNMENT + i * 16 = recordAt i from rfl, hcount, hplace, if_pos hflag, hfirst]
  rfl

/-! ### Contents -/

/-- Where the contents of entry `i` start: how long the archive is when they are appended. -/
def contentsStart (entries : List TocEntry) (i : Nat) : Nat :=
  ((entries.take i).zipIdx.foldl (writeData (header entries.length).length) (tocOf entries)).length

theorem dataSpot_take : ∀ (entries : List TocEntry) (pos i : Nat),
    dataSpot pos (entries.take i) (entries.take i).length = dataSpot pos entries i := by
  intro entries
  induction entries with
  | nil =>
      intro pos i
      rw [List.take_nil, dataSpot, dataSpot]
  | cons e rest ih =>
      intro pos i
      cases i with
      | zero => rfl
      | succ i =>
          cases e with
          | dir name c f => exact ih pos i
          | file name data => exact ih _ i

theorem contentsStart_eq (e : TocEntry) (rest : List TocEntry) (i : Nat) :
    contentsStart (e :: rest) i = dataSpot (tocOf (e :: rest)).length (e :: rest) i := by
  have htake : ((e :: rest).take i).length ≤ (e :: rest).length := by
    rw [List.length_take]
    omega
  have htabled : Tabled (e :: rest) (tocOf (e :: rest)) := tocOf_spec
  have hroom := htabled.room
  obtain ⟨-, -, hlength⟩ := writeContents_spec ((e :: rest).take i) 0 (tocOf (e :: rest)) (by
    unfold recordAt at hroom ⊢
    omega)
  unfold contentsStart
  rw [length_header, hlength, dataSpot_take]

section Contents

variable {e : TocEntry} {rest : List TocEntry} {i : Nat} {name : Name} {data : List UInt8}

/-- The contents of a file are in the archive. -/
theorem contents_inside (hget : (e :: rest)[i]? = some (.file name data)) :
    contentsStart (e :: rest) i + data.length ≤ (layOut (e :: rest)).length := by
  rw [contentsStart_eq]
  exact (layOut_spec.files i name data hget).inside

theorem contentsStart_mod (i : Nat) : contentsStart (e :: rest) i % ALIGNMENT = 0 := by
  rw [contentsStart_eq]
  exact dataSpot_mod _ _ _ tocOf_spec.aligned

/-- What is read where a file says its contents are. -/
theorem contents_read (hget : (e :: rest)[i]? = some (.file name data)) :
    ((layOut (e :: rest)).drop (contentsStart (e :: rest) i)).take data.length = data := by
  rw [contentsStart_eq]
  exact (layOut_spec.files i name data hget).data.take_drop

/-- The fields of the record of a file. -/
theorem file_fields (hget : (e :: rest)[i]? = some (.file name data))
    (hsize : (layOut (e :: rest)).length < 2 ^ 32) :
    (u32At (layOut (e :: rest)) (recordAt i + 4)).toNat = data.length
      ∧ (u32At (layOut (e :: rest)) (recordAt i + 8)).toNat = contentsStart (e :: rest) i := by
  have hfilled := layOut_spec.files i name data hget
  have hinside := hfilled.inside
  have hfields := hfilled.fields
  have hmiddle := hfields.left.right
  rw [length_leBytes] at hmiddle
  rw [contentsStart_eq, u32At_of_at hfields.left.left,
    show recordAt i + 8 = recordAt i + 4 + 4 from rfl, u32At_of_at hmiddle]
  exact ⟨UInt32.toNat_ofNat_of_lt' (Nat.lt_of_le_of_lt (by omega) hsize),
    UInt32.toNat_ofNat_of_lt' (Nat.lt_of_le_of_lt (by omega) hsize)⟩

/-- A file is read as one if its contents start low enough. -/
theorem readItem_file (hget : (e :: rest)[i]? = some (.file name data))
    (hsize : (layOut (e :: rest)).length < 2 ^ 32) (hlow : contentsStart (e :: rest) i < 2 ^ 31) :
    readItem (layOut (e :: rest)) i
      = .file (readName (layOut (e :: rest)) i) (contentsStart (e :: rest) i) data.length := by
  obtain ⟨hlength, hplace⟩ := file_fields hget hsize
  have hflag := (flag_iff (u32At (layOut (e :: rest)) (recordAt i + 8))).not
  rw [hplace, Nat.not_le] at hflag
  unfold readItem
  dsimp only
  rw [show ALIGNMENT + i * 16 = recordAt i from rfl, if_neg (hflag.mpr hlow), hlength, hplace]
  rfl

/-- It is read as a directory if they do not. -/
theorem readItem_high (hget : (e :: rest)[i]? = some (.file name data))
    (hsize : (layOut (e :: rest)).length < 2 ^ 32) (hhigh : 2 ^ 31 ≤ contentsStart (e :: rest) i) :
    ∃ firstChild, readItem (layOut (e :: rest)) i
      = .dir (readName (layOut (e :: rest)) i) data.length firstChild := by
  obtain ⟨hlength, hplace⟩ := file_fields hget hsize
  have hflag := flag_iff (u32At (layOut (e :: rest)) (recordAt i + 8))
  rw [hplace] at hflag
  unfold readItem
  dsimp only
  rw [show ALIGNMENT + i * 16 = recordAt i from rfl, if_pos (hflag.mpr hhigh), hlength]
  exact ⟨_, rfl⟩

end Contents

end Reading

/-! ### The walk -/

/-- What a child contributes to the contents of its directory. -/
def Holds (child : Child) (path : Name) (data : List UInt8) : Prop :=
  match child with
  | (name, .inl below) => ∃ p, path = name ++ slash :: p ∧ (p, data) ∈ below.contents
  | (name, .inr x) => path = name ∧ data = x

theorem mem_contents_children {node : DirNode} {path : Name} {data : List UInt8} :
    (path, data) ∈ node.contents ↔ ∃ child ∈ node.children, Holds child path data := by
  rw [mem_contents]
  constructor
  · rintro (⟨name, below, hin, p, hpath⟩ | hfile)
    · exact ⟨(name, .inl below), mem_children_dir.mpr hin, p, hpath⟩
    · exact ⟨(path, .inr data), mem_children_file.mpr hfile, rfl, rfl⟩
  · rintro ⟨⟨name, below | x⟩, hin, hholds⟩
    · exact .inl ⟨name, below, mem_children_dir.mp hin, hholds⟩
    · obtain ⟨rfl, rfl⟩ := hholds
      exact .inr (mem_children_file.mp hin)

/-- A loop of steps that all succeed. -/
theorem mapM_range' {β : Type} {f : Nat → Option β} {P : Nat → β → Prop} : ∀ (n first : Nat),
    (∀ k, k < n → ∃ y, f (first + k) = some y ∧ P k y) →
      ∃ ys, (List.range' first n).mapM f = some ys
        ∧ ys.length = n ∧ ∀ (k : Nat) y, ys[k]? = some y → P k y := by
  intro n
  induction n generalizing P with
  | zero => exact fun first _ => ⟨[], rfl, rfl, fun k y h => by cases h⟩
  | succ n ih =>
      intro first h
      obtain ⟨y, hy, hP⟩ := h 0 (Nat.succ_pos n)
      obtain ⟨ys, hys, hlen, hall⟩ := ih (P := fun k => P (k + 1)) (first + 1) fun k hk => by
        obtain ⟨y, hy, hP⟩ := h (k + 1) (Nat.succ_lt_succ hk)
        exact ⟨y, by rw [Nat.add_right_comm]; exact hy, hP⟩
      rw [Nat.add_zero] at hy
      refine ⟨y :: ys, ?_, congrArg Nat.succ hlen, fun k y' hk => ?_⟩
      · rw [List.range'_succ, List.mapM_cons, hy, hys]
        rfl
      · cases k with
        | zero =>
            obtain rfl := Option.some.inj hk
            exact hP
        | succ k => exact hall k y' hk

/-- The table is small, since it fits into the archive. -/
theorem length_table_lt {entries : List TocEntry} {archive : List UInt8}
    (h : Stored entries archive) (hsize : archive.length < 2 ^ 32) : entries.length < 2 ^ 28 := by
  have hroom := h.count_le
  omega

/-- What a walk finds at a child. -/
def part (archive : List UInt8) (depth child : Nat) : Option (List (Name × List UInt8)) :=
  match readItem archive child with
  | .file name offset length => some [(name, (archive.drop offset).take length)]
  | .dir name _ _ => do
    let below ← walk archive depth child
    return below.map fun p => (name ++ slash :: p.1, p.2)

theorem walk_dir {archive : List UInt8} {depth i : Nat} {name : Name} {childCount firstChild : Nat}
    (h : readItem archive i = .dir name childCount firstChild) :
    walk archive (depth + 1) i = do
      let parts ← (List.range' firstChild childCount).mapM (part archive depth)
      return parts.flatten := by
  rw [walk, h]
  rfl

section Walk

variable {e : TocEntry} {rest : List TocEntry}
  (hsize : (layOut (e :: rest)).length < 2 ^ 32)
  (hlow : ∀ i, IsFile (e :: rest) i → contentsStart (e :: rest) i < 2 ^ 31)

/-- A directory as it is read: its children are a block of the table. -/
structure Shown (entries : List TocEntry) (archive : List UInt8) (node : DirNode)
    (i first : Nat) : Prop where
  item : readItem archive i = .dir (readName archive i) node.children.length first
  later : i < first
  block : first + node.children.length ≤ entries.length
  names : ∀ (k : Nat) child, node.children[k]? = some child →
    readName archive (first + k) = child.1
  files : ∀ (k : Nat) name data, node.children[k]? = some (name, .inr data) →
    entries[first + k]? = some (.file name data)
  below : ∀ (k : Nat) name below, node.children[k]? = some (name, .inl below) →
    Represents entries (first + k) below

include hsize

theorem shown_of_represents {i : Nat} {node : DirNode} (h : Represents (e :: rest) i node)
    (hclean : Clean node) : ∃ first, Shown (e :: rest) (layOut (e :: rest)) node i first := by
  cases h with
  | @mk _ first _ name entry later block files dirs below =>
      have hsmall := length_table_lt layOut_spec hsize
      have hfirst : (UInt32.ofNat first).toNat = first :=
        UInt32.toNat_ofNat_of_lt' (by unfold UInt32.size; omega)
      have hcount : (UInt32.ofNat node.children.length).toNat = node.children.length :=
        UInt32.toNat_ofNat_of_lt' (by unfold UInt32.size; omega)
      have hitem := readItem_dir layOut_spec entry (by rw [hfirst]; omega)
      rw [hfirst, hcount] at hitem
      refine ⟨first, hitem, later, block, fun k child hk => ?_, files, below⟩
      have hnul := (hclean.component (List.mem_of_getElem? hk)).noNul
      obtain ⟨name, below | data⟩ := child
      · obtain ⟨c, f, hentry⟩ := dirs k name below hk
        exact readName_child layOut_spec hsize (by omega) hentry hnul
      · exact readName_child layOut_spec hsize (by omega) (files k name data hk) hnul

include hlow

/-- **The walk** from a directory finds what the directory contains. -/
theorem walk_spec : ∀ (depth : Nat) {i : Nat} {node : DirNode}, Represents (e :: rest) i node →
    Clean node → (e :: rest).length ≤ depth + i →
      ∃ found, walk (layOut (e :: rest)) depth i = some found
        ∧ ∀ path data, (path, data) ∈ found ↔ (path, data) ∈ node.contents := by
  intro depth
  induction depth with
  | zero =>
      intro i node h hclean hdepth
      obtain ⟨first, hshown⟩ := shown_of_represents hsize h hclean
      have hlater := hshown.later
      have hblock := hshown.block
      omega
  | succ depth ih =>
      intro i node h hclean hdepth
      obtain ⟨first, hshown⟩ := shown_of_represents hsize h hclean
      have hlater := hshown.later
      have hparts : ∀ k, k < node.children.length →
          ∃ found, part (layOut (e :: rest)) depth (first + k) = some found
            ∧ ∀ child, node.children[k]? = some child →
              ∀ path data, (path, data) ∈ found ↔ Holds child path data := by
        intro k hk
        rcases hchild : node.children[k] with ⟨name, below | data⟩
        · have hget := List.getElem?_eq_some_iff.mpr ⟨hk, hchild⟩
          have hsub := hclean.sub (mem_children_dir.mp (List.mem_of_getElem? hget))
          have hrep := hshown.below k name below hget
          obtain ⟨found, hwalk, hfound⟩ := ih hrep hsub (by omega)
          obtain ⟨first', hshown'⟩ := shown_of_represents hsize hrep hsub
          refine ⟨found.map fun p => (name ++ slash :: p.1, p.2), ?_, ?_⟩
          · rw [part, hshown'.item, hshown.names k _ hget]
            dsimp only
            rw [hwalk]
            rfl
          · intro child hchild' path data
            obtain rfl := Option.some.inj (hget.symm.trans hchild')
            rw [List.mem_map]
            constructor
            · rintro ⟨⟨p, x⟩, hin, heq⟩
              obtain ⟨rfl, rfl⟩ := Prod.mk.inj heq
              exact ⟨p, rfl, (hfound p x).mp hin⟩
            · rintro ⟨p, rfl, hin⟩
              exact ⟨(p, data), (hfound p data).mpr hin, rfl⟩
        · have hget := List.getElem?_eq_some_iff.mpr ⟨hk, hchild⟩
          have hentry := hshown.files k name data hget
          refine ⟨[(name, data)], ?_, ?_⟩
          · rw [part, readItem_file hentry hsize (hlow _ ⟨name, data, hentry⟩)]
            dsimp only
            rw [contents_read hentry, hshown.names k _ hget]
          · intro child hchild' path data'
            obtain rfl := Option.some.inj (hget.symm.trans hchild')
            rw [List.mem_singleton]
            exact Prod.mk_inj
      obtain ⟨parts, hmap, hlen, hall⟩ := mapM_range' _ first hparts
      refine ⟨parts.flatten, by rw [walk_dir hshown.item, hmap]; rfl, fun path data => ?_⟩
      rw [mem_contents_children, List.mem_flatten]
      constructor
      · rintro ⟨found, hin, hpath⟩
        obtain ⟨k, hk⟩ := List.mem_iff_getElem?.mp hin
        have hlt := (List.getElem?_eq_some_iff.mp hk).1
        have hget := List.getElem?_eq_getElem (hlen ▸ hlt)
        exact ⟨_, List.getElem_mem _, (hall k found hk _ hget path data).mp hpath⟩
      · rintro ⟨child, hin, hholds⟩
        obtain ⟨k, hk⟩ := List.mem_iff_getElem?.mp hin
        have hlt := (List.getElem?_eq_some_iff.mp hk).1
        have hget := List.getElem?_eq_getElem (l := parts) (hlen.symm ▸ hlt)
        exact ⟨_, List.getElem_mem _, (hall k _ hget child hk path data).mpr hholds⟩

end Walk

end Baston.Zone.Packfile
