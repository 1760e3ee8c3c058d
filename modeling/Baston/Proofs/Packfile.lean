/-
The tree of a packfile.

A tree that paths were inserted into holds each path with the contents that were inserted last.
A path is cut where its first slash is, so two paths that are cut alike are alike, and inserting
one changes nothing about another.
-/
import Baston.Zone.Packfile

namespace Baston.Zone.Packfile

open Sorted

attribute [local instance] byteOrder

/-! ### Paths -/

/-- A path whose components can be told apart, and stored as names. -/
def Plain (path : Name) : Prop := ∀ component ∈ path.splitOn slash, component ≠ [] ∧ 0 ∉ component

/-- A name of an entry. -/
structure Component (name : Name) : Prop where
  nonempty : name ≠ []
  slashless : slash ∉ name
  noNul : 0 ∉ name

namespace DirNode

theorem splitOn_cons (b : UInt8) (rest : Name) : (b :: rest).splitOn slash
    = if b = slash then [] :: rest.splitOn slash
      else (rest.splitOn slash).modifyHead (List.cons b) := by
  unfold List.splitOn
  rw [List.splitOnP_cons_eq_if_modifyHead]
  simp only [beq_iff_eq]

/-- A path that is cut. -/
theorem splitOnce_some {path : Name} {p : Name × Name} (h : splitOnce path = some p) :
    path = p.1 ++ slash :: p.2 ∧ slash ∉ p.1
      ∧ path.splitOn slash = p.1 :: p.2.splitOn slash := by
  induction path generalizing p with
  | nil => cases h
  | cons b rest ih =>
      rw [splitOnce] at h
      rw [splitOn_cons]
      by_cases hb : b = slash
      · rw [if_pos hb] at h ⊢
        obtain rfl := Option.some.inj h
        exact ⟨by rw [hb]; rfl, List.not_mem_nil, rfl⟩
      · rw [if_neg hb] at h ⊢
        obtain ⟨q, hq, heq⟩ := Option.map_eq_some_iff.mp h
        obtain ⟨hpath, hnot, hsplit⟩ := ih hq
        rw [← heq, hsplit]
        refine ⟨congrArg (List.cons b) hpath, ?_, rfl⟩
        rw [List.mem_cons, not_or]
        exact ⟨Ne.symm hb, hnot⟩

/-- A path that is not. -/
theorem splitOnce_none {path : Name} (h : splitOnce path = none) :
    slash ∉ path ∧ path.splitOn slash = [path] := by
  induction path with
  | nil => exact ⟨List.not_mem_nil, rfl⟩
  | cons b rest ih =>
      rw [splitOnce] at h
      rw [splitOn_cons]
      by_cases hb : b = slash
      · rw [if_pos hb] at h
        cases h
      · rw [if_neg hb] at h ⊢
        obtain ⟨hnot, hsplit⟩ := ih (Option.map_eq_none_iff.mp h)
        rw [hsplit]
        refine ⟨?_, rfl⟩
        rw [List.mem_cons, not_or]
        exact ⟨Ne.symm hb, hnot⟩

/-- A path is cut in one way. -/
theorem cut_unique {a b p q : Name} (ha : slash ∉ a) (hb : slash ∉ b)
    (h : a ++ slash :: p = b ++ slash :: q) : a = b ∧ p = q := by
  induction a generalizing b with
  | nil =>
      cases b with
      | nil => exact ⟨rfl, (List.cons.inj h).2⟩
      | cons c b => exact absurd (List.cons.inj h).1 (fun heq => hb (by rw [heq]; exact List.mem_cons_self))
  | cons c a ih =>
      cases b with
      | nil => exact absurd (List.cons.inj h).1 (fun heq => ha (by rw [heq]; exact List.mem_cons_self))
      | cons d b =>
          obtain ⟨rfl, htail⟩ := List.cons.inj h
          obtain ⟨rfl, rfl⟩ := ih (fun hm => ha (List.mem_cons_of_mem _ hm))
            (fun hm => hb (List.mem_cons_of_mem _ hm)) htail
          exact ⟨rfl, rfl⟩

theorem component_of_plain {path : Name} (h : Plain path) (hone : splitOnce path = none) :
    Component path := by
  obtain ⟨hnot, hsplit⟩ := splitOnce_none hone
  obtain ⟨hne, hnul⟩ := h path (by rw [hsplit]; exact List.mem_singleton_self _)
  exact ⟨hne, hnot, hnul⟩

theorem cut_of_plain {path : Name} {p : Name × Name} (h : Plain path)
    (hcut : splitOnce path = some p) : Component p.1 ∧ Plain p.2 ∧ p.2 ≠ [] := by
  obtain ⟨-, hnot, hsplit⟩ := splitOnce_some hcut
  unfold Plain at h
  rw [hsplit] at h
  obtain ⟨hne, hnul⟩ := h p.1 List.mem_cons_self
  have hrest : Plain p.2 := fun c hc => h c (List.mem_cons_of_mem _ hc)
  refine ⟨⟨hne, hnot, hnul⟩, hrest, fun hnil => ?_⟩
  refine (hrest [] ?_).1 rfl
  rw [hnil]
  exact List.mem_singleton_self _

/-! ### What a tree holds -/

mutual

/-- The files below a directory, by their paths. -/
def contents : DirNode → List (Name × List UInt8)
  | .mk dirs files => contentsOf dirs ++ files

def contentsOf : List (Name × DirNode) → List (Name × List UInt8)
  | [] => []
  | (name, node) :: rest =>
    (contents node).map (fun p => (name ++ slash :: p.1, p.2)) ++ contentsOf rest

end

theorem mem_contentsOf {q : Name} {x : List UInt8} : ∀ {dirs : List (Name × DirNode)},
    (q, x) ∈ contentsOf dirs
      ↔ ∃ name node, (name, node) ∈ dirs ∧ ∃ p, q = name ++ slash :: p ∧ (p, x) ∈ node.contents := by
  intro dirs
  induction dirs with
  | nil => simp [contentsOf]
  | cons d rest ih =>
      obtain ⟨name, node⟩ := d
      rw [contentsOf, List.mem_append, ih, List.mem_map]
      constructor
      · rintro (⟨p, hp, heq⟩ | ⟨name', node', hmem, hbelow⟩)
        · obtain ⟨rfl, rfl⟩ := Prod.mk.inj heq
          exact ⟨name, node, List.mem_cons_self, p.1, rfl, hp⟩
        · exact ⟨name', node', List.mem_cons_of_mem _ hmem, hbelow⟩
      · rintro ⟨name', node', hmem, p, rfl, hp⟩
        rcases List.mem_cons.mp hmem with heq | hmem
        · obtain ⟨rfl, rfl⟩ := Prod.mk.inj heq
          exact .inl ⟨(p, x), hp, rfl⟩
        · exact .inr ⟨name', node', hmem, p, rfl, hp⟩

theorem mem_contents {q : Name} {x : List UInt8} {node : DirNode} : (q, x) ∈ node.contents
    ↔ (∃ name below, (name, below) ∈ node.dirs
        ∧ ∃ p, q = name ++ slash :: p ∧ (p, x) ∈ below.contents)
      ∨ (q, x) ∈ node.files := by
  obtain ⟨dirs, files⟩ := node
  rw [contents, List.mem_append, mem_contentsOf]
  rfl

/-- A tree in order, with names that can be stored. -/
inductive Clean : DirNode → Prop
  | mk {dirs : List (Name × DirNode)} {files : List (Name × List UInt8)} (dirKeys : Keys dirs)
      (fileKeys : Keys files) (dirNames : ∀ d ∈ dirs, Component d.1)
      (fileNames : ∀ f ∈ files, Component f.1) (below : ∀ d ∈ dirs, Clean d.2) :
      Clean (.mk dirs files)

theorem clean_empty : Clean empty :=
  .mk keys_nil keys_nil (fun _ h => absurd h List.not_mem_nil) (fun _ h => absurd h List.not_mem_nil)
    fun _ h => absurd h List.not_mem_nil

theorem insert_below {path dir rest : Name} (h : splitOnce path = some (dir, rest))
    (hne : rest ≠ []) (data : List UInt8) (node : DirNode) : insert path data node
      = .mk (alter dir (fun below => insert rest data (below.getD empty)) node.dirs) node.files := by
  rw [insert]
  split
  · rename_i dir' rest' h'
    obtain ⟨rfl, rfl⟩ := Prod.mk.inj (Option.some.inj (h'.symm.trans h))
    rw [if_pos hne]
  · rename_i h'
    rw [h] at h'
    cases h'

theorem insert_here {path : Name} (h : splitOnce path = none) (data : List UInt8)
    (node : DirNode) :
    insert path data node = .mk node.dirs (alter path (fun _ => data) node.files) := by
  rw [insert]
  split
  · rename_i h'
    rw [h] at h'
    cases h'
  · rfl

/-- What is below a name, if anything is. -/
theorem mem_contents_get {dirs : List (Name × DirNode)} (h : Keys dirs) {dir p : Name}
    {x : List UInt8} : (p, x) ∈ ((get dir dirs).getD empty).contents
      ↔ ∃ below, (dir, below) ∈ dirs ∧ (p, x) ∈ below.contents := by
  simp only [mem_iff_get h]
  cases get dir dirs with
  | none => simp [empty, contents, contentsOf]
  | some below => simp

theorem Clean.get {dirs : List (Name × DirNode)} (h : Keys dirs) (below : ∀ d ∈ dirs, Clean d.2)
    (dir : Name) : Clean ((Sorted.get dir dirs).getD empty) := by
  cases hget : Sorted.get dir dirs with
  | none => exact clean_empty
  | some node => exact below (dir, node) ((mem_iff_get h).mpr hget)

/-- **An insertion** keeps a tree clean, replaces what was at its path, and nothing else. -/
theorem insert_spec {path : Name} (data : List UInt8) {node : DirNode} (hpath : Plain path)
    (hclean : Clean node) : Clean (insert path data node) ∧ ∀ q x,
      (q, x) ∈ (insert path data node).contents
        ↔ q = path ∧ x = data ∨ q ≠ path ∧ (q, x) ∈ node.contents := by
  induction hlen : path.length using Nat.strong_induction_on generalizing path node with
  | _ n ih =>
  cases hclean with
  | @mk dirs files dirKeys fileKeys dirNames fileNames below =>
  cases hcut : splitOnce path with
  | none =>
      have hcomponent := component_of_plain hpath hcut
      have hmem := fun {p} => mem_alter (f := fun _ => data) (k := path) fileKeys (p := p)
      rw [insert_here hcut]
      refine ⟨.mk dirKeys (keys_alter fileKeys) dirNames ?_ below, fun q x => ?_⟩
      · intro f hf
        rcases hmem.mp hf with rfl | ⟨-, hold⟩
        · exact hcomponent
        · exact fileNames f hold
      · rw [mem_contents, mem_contents]
        constructor
        · rintro (⟨name, node, hnode, p, rfl, hp⟩ | hfile)
          · refine .inr ⟨fun heq => hcomponent.slashless ?_, .inl ⟨name, node, hnode, p, rfl, hp⟩⟩
            rw [← heq]
            exact List.mem_append_right _ List.mem_cons_self
          · rcases hmem.mp hfile with heq | ⟨hne, hold⟩
            · exact .inl (Prod.mk.inj heq)
            · exact .inr ⟨hne, .inr hold⟩
        · rintro (⟨rfl, rfl⟩ | ⟨hne, hdir | hfile⟩)
          · exact .inr (hmem.mpr (.inl rfl))
          · exact .inl hdir
          · exact .inr (hmem.mpr (.inr ⟨hne, hfile⟩))
  | some cut =>
      obtain ⟨dir, rest⟩ := cut
      obtain ⟨hdir, hrest, hne⟩ := cut_of_plain hpath hcut
      obtain ⟨heq, hslash, -⟩ := splitOnce_some hcut
      dsimp only at hdir hrest hne heq hslash
      have hmem := fun {p} => mem_alter (k := dir)
        (f := fun below : Option DirNode => insert rest data (below.getD empty)) dirKeys (p := p)
      obtain ⟨hnew, hcontents⟩ := ih rest.length (hlen ▸ splitOnce_shorter hcut) hrest
        (Clean.get dirKeys below dir) rfl
      have hother : ∀ name p, slash ∉ name → name ++ slash :: p = path → name = dir ∧ p = rest :=
        fun name p hname h => cut_unique hname hslash (h.trans heq)
      rw [insert_below hcut hne]
      refine ⟨.mk (keys_alter dirKeys) fileKeys ?_ fileNames ?_, fun q x => ?_⟩
      · intro d hd
        rcases hmem.mp hd with rfl | ⟨-, hold⟩
        · exact hdir
        · exact dirNames d hold
      · intro d hd
        rcases hmem.mp hd with rfl | ⟨-, hold⟩
        · exact hnew
        · exact below d hold
      · rw [mem_contents, mem_contents]
        constructor
        · rintro (⟨name, node, hnode, p, rfl, hp⟩ | hfile)
          · rcases hmem.mp hnode with hsame | ⟨hdiffers, hold⟩
            · obtain ⟨rfl, rfl⟩ := Prod.mk.inj hsame
              rcases (hcontents p x).mp hp with ⟨rfl, rfl⟩ | ⟨hdiffers, hp⟩
              · exact .inl ⟨heq.symm, rfl⟩
              · obtain ⟨node, hnode, hp⟩ := (mem_contents_get dirKeys).mp hp
                exact .inr ⟨fun h => hdiffers (hother _ p hslash h).2,
                  .inl ⟨_, node, hnode, p, rfl, hp⟩⟩
            · exact .inr ⟨fun h => hdiffers (hother name p (dirNames _ hold).slashless h).1,
                .inl ⟨name, node, hold, p, rfl, hp⟩⟩
          · refine .inr ⟨fun h => (fileNames _ hfile).slashless ?_, .inr hfile⟩
            show slash ∈ q
            rw [h, heq]
            exact List.mem_append_right _ List.mem_cons_self
        · rintro (⟨rfl, rfl⟩ | ⟨hdiffers, ⟨name, node, hnode, p, rfl, hp⟩ | hfile⟩)
          · exact .inl ⟨dir, _, hmem.mpr (.inl rfl), rest, heq, (hcontents _ _).mpr (.inl ⟨rfl, rfl⟩)⟩
          · by_cases hname : name = dir
            · subst hname
              refine .inl ⟨name, _, hmem.mpr (.inl rfl), p, rfl, (hcontents _ _).mpr (.inr ⟨?_, ?_⟩)⟩
              · exact fun h => hdiffers (by rw [h, heq])
              · exact (mem_contents_get dirKeys).mpr ⟨node, hnode, hp⟩
            · exact .inl ⟨name, node, hmem.mpr (.inr ⟨hname, hnode⟩), p, rfl, hp⟩
          · exact .inr hfile

end DirNode

/-! ### The paths of an archive -/

/-- A map from paths to contents, after one more file. -/
def supersede (found : Name → Option (List UInt8)) (file : PackfileInput) (path : Name) :
    Option (List UInt8) :=
  if normalised file.path = path ∧ path ≠ [] then some file.data else found path

/-- What is to be found under a path: the contents that came last. -/
def latest (files : List PackfileInput) : Name → Option (List UInt8) :=
  files.foldl supersede fun _ => none

/-- Every path can be told apart, or is empty and left out. -/
def AllPlain (files : List PackfileInput) : Prop :=
  ∀ file ∈ files, normalised file.path = [] ∨ Plain (normalised file.path)

/-- The tree holds what the map says. -/
structure Mirrors (root : DirNode) (found : Name → Option (List UInt8)) : Prop where
  clean : root.Clean
  contents : ∀ path data, (path, data) ∈ root.contents ↔ found path = some data

theorem Mirrors.addFile {root : DirNode} {found : Name → Option (List UInt8)}
    (h : Mirrors root found) {file : PackfileInput}
    (hfile : normalised file.path = [] ∨ Plain (normalised file.path)) :
    Mirrors (addFile root file) (supersede found file) := by
  unfold Packfile.addFile
  dsimp only
  rcases hfile with hempty | hpath
  · rw [if_pos hempty]
    refine ⟨h.clean, fun path data => ?_⟩
    unfold supersede
    rw [if_neg, h.contents]
    exact fun hboth => hboth.2 (hboth.1.symm.trans hempty)
  · have hne : normalised file.path ≠ [] := by
      intro hnil
      rw [hnil] at hpath
      exact (hpath [] (List.mem_singleton_self _)).1 rfl
    obtain ⟨hinserted, hcontents⟩ := DirNode.insert_spec file.data hpath h.clean
    rw [if_neg hne]
    refine ⟨hinserted, fun path data => ?_⟩
    rw [hcontents, h.contents]
    unfold supersede
    by_cases hsame : path = normalised file.path
    · subst hsame
      simp [hne, eq_comm]
    · simp [hsame, Ne.symm hsame]

/-- **The tree holds each path with what came last.** -/
theorem mirrors_rootOf {files : List PackfileInput} (h : AllPlain files) :
    Mirrors (rootOf files) (latest files) := by
  have hall : ∀ (files : List PackfileInput) (root : DirNode) found, AllPlain files →
      Mirrors root found → Mirrors (files.foldl addFile root) (files.foldl supersede found) := by
    intro files
    induction files with
    | nil => exact fun root found _ hroot => hroot
    | cons file rest ih =>
        intro root found hplain hroot
        exact ih _ _ (fun f hf => hplain f (List.mem_cons_of_mem _ hf))
          (hroot.addFile (hplain file List.mem_cons_self))
  refine hall files _ _ h ⟨DirNode.clean_empty, fun path data => ?_⟩
  simp [DirNode.empty, DirNode.contents, DirNode.contentsOf]

end Baston.Zone.Packfile
