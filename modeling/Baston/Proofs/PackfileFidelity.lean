/-
An archive says what was packed.

The tree holds the contents that came last under each path, the table is the tree, and a walk over
the table reads the tree back.  What stands between is a field of 32 bits that holds the place of
a file's contents, and whose top bit means a directory.
-/
import Baston.Proofs.PackfileReading

namespace Baston.Zone.Packfile

open DirNode Baston.Rage

attribute [local instance] byteOrder

def Item.name : Item → Name
  | .dir name _ _ | .file name _ _ => name

theorem name_readItem (archive : List UInt8) (i : Nat) :
    (readItem archive i).name = readName archive i := by
  unfold readItem
  dsimp only
  split
  · rfl
  · rfl

/-- An archive that says what is in it. -/
structure Faithful (archive : List UInt8) (packed : Name → Option (List UInt8)) : Prop where
  files : ∃ found, readRpf archive = some found
    ∧ ∀ path data, (path, data) ∈ found ↔ packed path = some data
  children : ∀ i name childCount firstChild, i < entryCount archive →
    readItem archive i = .dir name childCount firstChild →
      firstChild + childCount ≤ entryCount archive
        ∧ ((List.range' firstChild childCount).map fun k => (readItem archive k).name).Pairwise
          (· ≤ ·)
  ranges : ∀ i name offset length, i < entryCount archive →
    readItem archive i = .file name offset length →
      offset % ALIGNMENT = 0 ∧ offset + length ≤ archive.length
  disjoint : ∀ i j name offset length name' offset' length', i < entryCount archive →
    j < entryCount archive → i ≠ j → readItem archive i = .file name offset length →
      readItem archive j = .file name' offset' length' →
        offset + length ≤ offset' ∨ offset' + length' ≤ offset

section Faithful

variable {e : TocEntry} {rest : List TocEntry}
  (hsize : (layOut (e :: rest)).length < 2 ^ 32)
  (hlow : ∀ i, IsFile (e :: rest) i → contentsStart (e :: rest) i < 2 ^ 31)
  (hdirs : ∀ (i : Nat) name c f, (e :: rest)[i]? = some (TocEntry.dir name c f) →
    ∃ node, Clean node ∧ Represents (e :: rest) i node)

include hsize hlow hdirs

/-- What is read as a directory is one. -/
theorem shown_of_dir {i : Nat} {name : Name} {childCount firstChild : Nat}
    (hi : i < entryCount (layOut (e :: rest)))
    (h : readItem (layOut (e :: rest)) i = .dir name childCount firstChild) :
    ∃ node, Clean node ∧ childCount = node.children.length
      ∧ Shown (e :: rest) (layOut (e :: rest)) node i firstChild := by
  rw [entryCount_eq layOut_spec hsize] at hi
  have hget := List.getElem?_eq_getElem hi
  rcases hentry : (e :: rest)[i] with ⟨dirName, c, f⟩ | ⟨fileName, data⟩
  · rw [hentry] at hget
    obtain ⟨node, hclean, hrep⟩ := hdirs i dirName c f hget
    obtain ⟨first, hshown⟩ := shown_of_represents hsize hrep hclean
    obtain ⟨-, rfl, rfl⟩ := Item.dir.inj (hshown.item.symm.trans h)
    exact ⟨node, hclean, rfl, hshown⟩
  · rw [hentry] at hget
    rw [readItem_file hget hsize (hlow i ⟨fileName, data, hget⟩)] at h
    cases h

/-- What is read as a file is one, and its contents are where the item says. -/
theorem file_of_item {i : Nat} {name : Name} {offset length : Nat}
    (hi : i < entryCount (layOut (e :: rest)))
    (h : readItem (layOut (e :: rest)) i = .file name offset length) :
    ∃ fileName data, (e :: rest)[i]? = some (.file fileName data)
      ∧ offset = contentsStart (e :: rest) i ∧ length = data.length := by
  rw [entryCount_eq layOut_spec hsize] at hi
  have hget := List.getElem?_eq_getElem hi
  rcases hentry : (e :: rest)[i] with ⟨dirName, c, f⟩ | ⟨fileName, data⟩
  · rw [hentry] at hget
    obtain ⟨node, hclean, hrep⟩ := hdirs i dirName c f hget
    obtain ⟨first, hshown⟩ := shown_of_represents hsize hrep hclean
    rw [hshown.item] at h
    cases h
  · rw [hentry] at hget
    rw [readItem_file hget hsize (hlow i ⟨fileName, data, hget⟩)] at h
    obtain ⟨-, rfl, rfl⟩ := Item.file.inj h
    exact ⟨fileName, data, hget, rfl, rfl⟩

/-- The archive of the table of a tree is faithful to the tree. -/
theorem faithful_layOut {root : DirNode} {packed : Name → Option (List UInt8)}
    (hroot : Represents (e :: rest) 0 root) (hmirrors : Mirrors root packed) :
    Faithful (layOut (e :: rest)) packed := by
  refine ⟨?_, ?_, ?_, ?_⟩
  · obtain ⟨found, hwalk, hfound⟩ := walk_spec hsize hlow (e :: rest).length hroot hmirrors.clean
      (Nat.le_refl _)
    refine ⟨found, ?_, fun path data => (hfound path data).trans (hmirrors.contents path data)⟩
    rw [readRpf, entryCount_eq layOut_spec hsize]
    exact hwalk
  · intro i name childCount firstChild hi h
    obtain ⟨node, hclean, rfl, hshown⟩ := shown_of_dir hsize hlow hdirs hi h
    rw [entryCount_eq layOut_spec hsize]
    refine ⟨hshown.block, ?_⟩
    have hnames : ((List.range' firstChild node.children.length).map fun k =>
        (readItem (layOut (e :: rest)) k).name) = node.children.map Prod.fst := by
      apply List.ext_getElem
      · rw [List.length_map, List.length_map, List.length_range']
      · intro k hk hk'
        rw [List.length_map] at hk'
        rw [List.getElem_map, List.getElem_map, List.getElem_range', Nat.one_mul, name_readItem]
        exact hshown.names k _ (List.getElem?_eq_getElem hk')
    rw [hnames]
    exact children_sorted node
  · intro i name offset length hi h
    obtain ⟨fileName, data, hget, rfl, rfl⟩ := file_of_item hsize hlow hdirs hi h
    exact ⟨contentsStart_mod i, contents_inside hget⟩
  · intro i j name offset length name' offset' length' hi hj hne h h'
    obtain ⟨fileName, data, hget, rfl, rfl⟩ := file_of_item hsize hlow hdirs hi h
    obtain ⟨fileName', data', hget', rfl, rfl⟩ := file_of_item hsize hlow hdirs hj h'
    simp only [contentsStart_eq]
    rcases Nat.lt_or_gt_of_ne hne with hlt | hgt
    · exact .inl (dataSpot_disjoint hget hlt)
    · exact .inr (dataSpot_disjoint hget' hgt)

end Faithful

/-- **Archive fidelity.**  Files whose paths can be told apart are packed, and an archive of less
than 4 GiB is faithful to them if the contents of each of its files start below 2 GiB. -/
theorem packfile_fidelity (files : List PackfileInput) (hfiles : AllPlain files) :
    ∃ entries, flatten (rootOf files) = some entries ∧ buildRpf files = some (layOut entries)
      ∧ ((layOut entries).length < 2 ^ 32 →
        (∀ i, IsFile entries i → contentsStart entries i < 2 ^ 31) →
          Faithful (layOut entries) (latest files)) := by
  have hmirrors := mirrors_rootOf hfiles
  obtain ⟨entries, hflatten, hroot, hdirs⟩ := flatten_spec hmirrors.clean
  refine ⟨entries, hflatten, by rw [buildRpf, hflatten]; rfl, fun hsize hlow => ?_⟩
  cases entries with
  | nil =>
      cases hroot with
      | mk entry _ _ _ _ _ => cases entry
  | cons e rest => exact faithful_layOut hsize hlow hdirs hroot hmirrors

/-! ### Two archives -/

/-- A directory with one file, packed twice, and a file beside it. -/
def sampleFiles : List PackfileInput :=
  [⟨[97, slash, 98], [1, 2]⟩, ⟨[99], [3]⟩, ⟨[slash, 97, backslash, 98], [4]⟩]

def sampleEntries : List TocEntry :=
  [.dir [] 2 1, .dir [97] 1 3, .file [99] [3], .file [98] [4]]

theorem flatten_sample : flatten (rootOf sampleFiles) = some sampleEntries := by
  decide +kernel

theorem length_tocOf_sample : (tocOf sampleEntries).length = 4096 := by
  rw [length_tocOf]
  rfl

theorem length_layOut_sample : (layOut sampleEntries).length = 8192 := by
  have hlength : (layOut sampleEntries).length
      = dataSpot (tocOf sampleEntries).length sampleEntries sampleEntries.length :=
    layOut_spec.length
  rw [hlength, length_tocOf_sample]
  rfl

theorem sample_faithful : ∃ archive, buildRpf sampleFiles = some archive
    ∧ Faithful archive (latest sampleFiles) := by
  have hplain : AllPlain sampleFiles := by
    unfold AllPlain Plain
    decide
  have hsize : (layOut sampleEntries).length < 2 ^ 31 := by
    rw [length_layOut_sample]
    decide
  obtain ⟨entries, hflatten, hbuild, hfaithful⟩ := packfile_fidelity sampleFiles hplain
  obtain rfl := Option.some.inj (flatten_sample.symm.trans hflatten)
  refine ⟨_, hbuild, hfaithful (by omega) fun i hi => ?_⟩
  obtain ⟨name, data, hget⟩ := hi
  exact Nat.lt_of_le_of_lt ((Nat.le_add_right _ _).trans (contents_inside hget)) hsize

/-- A file of 2 GiB, and one behind it. -/
def bigFile : List UInt8 := List.replicate (2 ^ 31) 0

def wideFiles : List PackfileInput := [⟨[97], bigFile⟩, ⟨[98], [1]⟩]

def wideEntries : List TocEntry := [.dir [] 2 1, .file [97] bigFile, .file [98] [1]]

theorem flatten_wide : flatten (rootOf wideFiles) = some wideEntries := by
  have hfirst : normalised [97] = [97] := by decide
  have hsecond : normalised [98] = [98] := by decide
  have hroot : rootOf wideFiles = .mk [] [([97], bigFile), ([98], [1])] := by
    unfold rootOf wideFiles
    rw [List.foldl_cons, List.foldl_cons, List.foldl_nil, addFile, addFile]
    dsimp only
    rw [hfirst, hsecond, if_neg (by decide), if_neg (by decide), insert_here (by decide),
      insert_here (by decide)]
    rfl
  rw [hroot]
  rfl

theorem length_tocOf_wide : (tocOf wideEntries).length = 4096 := by
  rw [length_tocOf]
  rfl

theorem length_bigFile : bigFile.length = 2 ^ 31 := List.length_replicate

theorem length_layOut_wide : (layOut wideEntries).length = 2 ^ 31 + 6144 := by
  have hlength : (layOut wideEntries).length
      = dataSpot (tocOf wideEntries).length wideEntries wideEntries.length := layOut_spec.length
  rw [hlength, length_tocOf_wide, wideEntries, List.length_cons, List.length_cons, List.length_cons,
    dataSpot, dataSpot, dataSpot, dataSpot, length_bigFile]
  decide

/-- **A file behind 2 GiB is lost**: its record says that it is a directory. -/
theorem high_file_lost : AllPlain wideFiles ∧ ∃ archive, buildRpf wideFiles = some archive
    ∧ archive.length < 2 ^ 32 ∧ latest wideFiles [98] = some [1]
    ∧ ∀ found, readRpf archive = some found → ([98], [1]) ∉ found := by
  have hplain : AllPlain wideFiles := by
    unfold AllPlain Plain
    decide
  have hsize : (layOut wideEntries).length < 2 ^ 32 := by
    rw [length_layOut_wide]
    decide
  refine ⟨hplain, layOut wideEntries, by rw [buildRpf, flatten_wide]; rfl, hsize, rfl, ?_⟩
  have hstored : Stored wideEntries (layOut wideEntries) := layOut_spec
  have hdir : wideEntries[0]? = some (.dir [] 2 1) := rfl
  have hbig : wideEntries[1]? = some (.file [97] bigFile) := rfl
  have hhighest : wideEntries[2]? = some (.file [98] [1]) := rfl
  have hroot := readItem_dir hstored hdir (by decide)
  have hlow : contentsStart wideEntries 1 < 2 ^ 31 := by
    rw [wideEntries, contentsStart_eq, ← wideEntries, length_tocOf_wide]
    decide
  have hhigh : 2 ^ 31 ≤ contentsStart wideEntries 2 := by
    rw [wideEntries, contentsStart_eq, ← wideEntries, length_tocOf_wide, wideEntries, dataSpot,
      dataSpot, dataSpot, length_bigFile]
    decide
  have hfirst : readItem (layOut wideEntries) 1 = .file (readName (layOut wideEntries) 1)
      (contentsStart wideEntries 1) bigFile.length := readItem_file hbig hsize hlow
  rw [readName_child hstored hsize Nat.one_pos hbig (by decide)] at hfirst
  obtain ⟨firstChild, hsecond⟩ : ∃ firstChild, readItem (layOut wideEntries) 2
      = .dir (readName (layOut wideEntries) 2) 1 firstChild := readItem_high hhighest hsize hhigh
  rw [readName_child hstored hsize Nat.two_pos hhighest (by decide)] at hsecond
  intro found hfound hin
  rw [readRpf, entryCount_eq hstored hsize] at hfound
  obtain ⟨parts, hparts, heq⟩ := Option.bind_eq_some_iff.mp ((walk_dir hroot).symm.trans hfound)
  obtain rfl := Option.some.inj heq
  have hrange : List.range' (UInt32.toNat 1) (UInt32.toNat 2) = [1, 2] := rfl
  rw [hrange, List.mapM_cons, List.mapM_cons, List.mapM_nil] at hparts
  obtain ⟨first, hpart, hparts⟩ := Option.bind_eq_some_iff.mp hparts
  obtain ⟨others, hothers, hparts⟩ := Option.bind_eq_some_iff.mp hparts
  obtain ⟨second, hpart', hothers⟩ := Option.bind_eq_some_iff.mp hothers
  obtain rfl := Option.some.inj hothers
  obtain rfl := Option.some.inj hparts
  rw [part, hfirst] at hpart
  obtain rfl := Option.some.inj hpart
  rw [part, hsecond] at hpart'
  obtain ⟨below, -, hbelow⟩ := Option.bind_eq_some_iff.mp hpart'
  obtain rfl := Option.some.inj hbelow
  rw [List.flatten_cons, List.flatten_cons, List.flatten_nil, List.append_nil, List.mem_append,
    List.mem_singleton, List.mem_map] at hin
  rcases hin with hsame | ⟨p, -, hbehind⟩
  · exact absurd (Prod.mk.inj hsame).1 (by decide)
  · have hlengths := congrArg (fun q : Name × List UInt8 => q.1.length) hbehind
    dsimp only at hlengths
    rw [List.length_append, List.length_cons] at hlengths
    have hone : 1 + (p.1.length + 1) = 1 := hlengths
    omega

end Baston.Zone.Packfile
