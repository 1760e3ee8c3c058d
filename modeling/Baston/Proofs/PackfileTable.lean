/-
The table of a packfile.

The table grows at its end only, and a directory that is pending is changed once, when the block
of its children is appended.  So every directory of the final table says where its children
stand, and they stand behind it.
-/
import Baston.Proofs.Packfile

namespace Baston.Zone.Packfile

open DirNode

attribute [local instance] byteOrder

/-! ### Children -/

abbrev Child := Name × (DirNode ⊕ List UInt8)

theorem mem_children_dir {node below : DirNode} {name : Name} :
    (name, .inl below) ∈ node.children ↔ (name, below) ∈ node.dirs := by
  unfold children
  rw [List.mem_insertionSort, List.mem_append]
  simp

theorem mem_children_file {node : DirNode} {name : Name} {data : List UInt8} :
    (name, .inr data) ∈ node.children ↔ (name, data) ∈ node.files := by
  unfold children
  rw [List.mem_insertionSort, List.mem_append]
  simp

/-- Children stand in the order of their names. -/
theorem children_sorted (node : DirNode) : (node.children.map Prod.fst).Pairwise (· ≤ ·) := by
  have : Std.Total fun a b : Child => a.1 ≤ b.1 := ⟨fun a b => le_total a.1 b.1⟩
  have : IsTrans Child fun a b => a.1 ≤ b.1 := ⟨fun a b c => le_trans⟩
  rw [List.pairwise_map]
  exact List.pairwise_insertionSort _ _

theorem DirNode.Clean.sub {node below : DirNode} {name : Name} (h : Clean node)
    (hin : (name, below) ∈ node.dirs) : Clean below := by
  cases h with
  | mk _ _ _ _ hbelow => exact hbelow _ hin

/-- The name of a child is one that can be stored. -/
theorem DirNode.Clean.component {node : DirNode} {child : Child} (h : Clean node)
    (hin : child ∈ node.children) : Component child.1 := by
  obtain ⟨name, below | data⟩ := child
  · have hdir := mem_children_dir.mp hin
    cases h with
    | mk _ _ hdirs _ _ => exact hdirs _ hdir
  · have hfile := mem_children_file.mp hin
    cases h with
    | mk _ _ _ hfiles _ => exact hfiles _ hfile

/-! ### Directories among children -/

@[simp] theorem subDirs_nil (first : Nat) : subDirs first [] = [] := rfl

@[simp] theorem subDirs_dir (first : Nat) (name : Name) (node : DirNode) (rest : List Child) :
    subDirs first ((name, .inl node) :: rest) = (first, node) :: subDirs (first + 1) rest := rfl

@[simp] theorem subDirs_file (first : Nat) (name : Name) (data : List UInt8) (rest : List Child) :
    subDirs first ((name, .inr data) :: rest) = subDirs (first + 1) rest := rfl

theorem mem_subDirs {i : Nat} {node : DirNode} : ∀ {children : List Child} {first : Nat},
    (i, node) ∈ subDirs first children
      ↔ ∃ k name, i = first + k ∧ children[k]? = some (name, .inl node) := by
  intro children
  induction children with
  | nil => simp
  | cons child rest ih =>
      intro first
      have hsplit : (∃ k name, i = first + k ∧ (child :: rest)[k]? = some (name, .inl node))
          ↔ (i = first ∧ ∃ name, child = (name, .inl node))
            ∨ ∃ k name, i = first + 1 + k ∧ rest[k]? = some (name, .inl node) := by
        constructor
        · rintro ⟨k, name, hi, hk⟩
          cases k with
          | zero => exact .inl ⟨hi, name, Option.some.inj hk⟩
          | succ k => exact .inr ⟨k, name, by omega, hk⟩
        · rintro (⟨hi, name, rfl⟩ | ⟨k, name, hi, hk⟩)
          · exact ⟨0, name, hi, rfl⟩
          · exact ⟨k + 1, name, by omega, hk⟩
      rw [hsplit]
      obtain ⟨name, node' | data⟩ := child
      · rw [subDirs_dir, List.mem_cons, ih]
        refine or_congr_left ?_
        simp [eq_comm]
      · rw [subDirs_file, ih]
        simp

theorem subDirs_nodup : ∀ (children : List Child) (first : Nat),
    ((subDirs first children).map Prod.fst).Nodup := by
  intro children
  induction children with
  | nil => exact fun first => List.nodup_nil
  | cons child rest ih =>
      intro first
      obtain ⟨name, node | data⟩ := child
      · rw [subDirs_dir, List.map_cons, List.nodup_cons]
        refine ⟨fun hmem => ?_, ih _⟩
        obtain ⟨⟨i, below⟩, hin, heq⟩ := List.mem_map.mp hmem
        obtain ⟨k, name', hi, -⟩ := mem_subDirs.mp hin
        dsimp only at heq hi
        omega
      · rw [subDirs_file]
        exact ih _

/-- The directories that are pending, with those below them. -/
def pendingDirs (pending : List (Nat × DirNode)) : Nat := (pending.map fun p => p.2.dirCount).sum

/-- The directories that a child brings along. -/
def childDirs : Child → Nat
  | (_, .inl node) => node.dirCount
  | (_, .inr _) => 0

theorem dirCountList_eq (dirs : List (Name × DirNode)) :
    dirCountList dirs = (dirs.map fun d => d.2.dirCount).sum := by
  induction dirs with
  | nil => rfl
  | cons d rest ih =>
      rw [List.map_cons, List.sum_cons, ← ih]
      rfl

theorem pendingDirs_subDirs : ∀ (children : List Child) (first : Nat),
    pendingDirs (subDirs first children) = (children.map childDirs).sum := by
  intro children
  induction children with
  | nil => exact fun first => rfl
  | cons child rest ih =>
      intro first
      obtain ⟨name, node | data⟩ := child
      · rw [subDirs_dir, List.map_cons, List.sum_cons, ← ih (first + 1)]
        rfl
      · rw [subDirs_file, List.map_cons, List.sum_cons, ih]
        exact (Nat.zero_add _).symm

/-- A tree has its root and what its children bring along. -/
theorem dirCount_children (node : DirNode) :
    node.dirCount = 1 + (node.children.map childDirs).sum := by
  obtain ⟨dirs, files⟩ := node
  have hperm : (mk dirs files).children.Perm
      (dirs.map (fun d => (d.1, .inl d.2)) ++ files.map fun f => (f.1, .inr f.2)) :=
    List.perm_insertionSort _ _
  have hdirs : ((dirs.map fun d => ((d.1, .inl d.2) : Child)).map childDirs).sum
      = dirCountList dirs := by
    rw [dirCountList_eq, List.map_map]
    rfl
  have hfiles : ∀ files : List (Name × List UInt8),
      ((files.map fun f => ((f.1, .inr f.2) : Child)).map childDirs).sum = 0 := by
    intro files
    induction files with
    | nil => rfl
    | cons f rest ih =>
        rw [List.map_cons, List.map_cons, List.sum_cons, ih]
        rfl
  rw [(hperm.map childDirs).sum_nat, List.map_append, List.sum_append, hdirs, hfiles]
  rfl

/-! ### What the table says -/

/-- Entry `i` of the table and those it leads to are a tree. -/
inductive Represents (entries : List TocEntry) : Nat → DirNode → Prop
  | mk {i first : Nat} {node : DirNode} {name : Name}
      (entry : entries[i]? = some (.dir name (.ofNat node.children.length) (.ofNat first)))
      (later : i < first) (block : first + node.children.length ≤ entries.length)
      (files : ∀ k name data, node.children[k]? = some (name, .inr data) →
        entries[first + k]? = some (.file name data))
      (dirs : ∀ k name below, node.children[k]? = some (name, .inl below) →
        ∃ childCount firstChild, entries[first + k]? = some (.dir name childCount firstChild))
      (below : ∀ k name below, node.children[k]? = some (name, .inl below) →
        Represents entries (first + k) below) :
      Represents entries i node

/-- The directories that are pending are in the table, each once. -/
structure Awaits (entries : List TocEntry) (pending : List (Nat × DirNode)) : Prop where
  nodup : (pending.map Prod.fst).Nodup
  entry : ∀ p ∈ pending, ∃ name childCount firstChild,
    entries[p.1]? = some (.dir name childCount firstChild)

/-- What the loop makes of a table. -/
structure Completes (entries : List TocEntry) (pending : List (Nat × DirNode))
    (result : List TocEntry) : Prop where
  longer : entries.length ≤ result.length
  keeps : ∀ (j : Nat) e, entries[j]? = some e → j ∉ pending.map Prod.fst → result[j]? = some e
  names : ∀ (j : Nat) name c f, entries[j]? = some (TocEntry.dir name c f) →
    ∃ c' f', result[j]? = some (TocEntry.dir name c' f')
  represents : ∀ p ∈ pending, Represents result p.1 p.2
  rest : (∀ p ∈ pending, Clean p.2) → ∀ (j : Nat) name c f, entries.length ≤ j →
    result[j]? = some (TocEntry.dir name c f) → ∃ node, Clean node ∧ Represents result j node

/-- The table of one turn. -/
def turnEntries (entries : List TocEntry) (dirIndex : Nat) (node : DirNode) : List TocEntry :=
  entries.modify dirIndex
    (.setChildren (.ofNat node.children.length) (.ofNat entries.length))
      ++ node.children.map .ofChild

theorem length_turnEntries (entries : List TocEntry) (dirIndex : Nat) (node : DirNode) :
    (turnEntries entries dirIndex node).length = entries.length + node.children.length := by
  unfold turnEntries
  rw [List.length_append, List.length_modify, List.length_map]

theorem turnEntries_child {entries : List TocEntry} {dirIndex k : Nat} {node : DirNode} :
    (turnEntries entries dirIndex node)[entries.length + k]?
      = (node.children[k]?).map .ofChild := by
  unfold turnEntries
  rw [List.getElem?_append_right (by rw [List.length_modify]; omega), List.length_modify,
    Nat.add_sub_cancel_left, List.getElem?_map]

theorem turnEntries_old {entries : List TocEntry} {dirIndex j : Nat} {node : DirNode}
    (h : j < entries.length) (hne : j ≠ dirIndex) :
    (turnEntries entries dirIndex node)[j]? = entries[j]? := by
  unfold turnEntries
  rw [List.getElem?_append_left (by rw [List.length_modify]; exact h),
    List.getElem?_modify_ne _ _ (Ne.symm hne)]

theorem turnEntries_self {entries : List TocEntry} {dirIndex : Nat} {node : DirNode} {name : Name}
    {c f : UInt32} (h : entries[dirIndex]? = some (.dir name c f)) :
    (turnEntries entries dirIndex node)[dirIndex]?
      = some (.dir name (.ofNat node.children.length) (.ofNat entries.length)) := by
  have hlt := (List.getElem?_eq_some_iff.mp h).1
  unfold turnEntries
  rw [List.getElem?_append_left (by rw [List.length_modify]; exact hlt),
    List.getElem?_modify_eq, h]
  rfl

/-- After one turn the children that are directories are pending too. -/
theorem Awaits.turn {entries : List TocEntry} {dirIndex : Nat} {node : DirNode}
    {pending : List (Nat × DirNode)} (h : Awaits entries ((dirIndex, node) :: pending)) :
    Awaits (turnEntries entries dirIndex node)
      (subDirs entries.length node.children ++ pending) := by
  have hlt : ∀ p ∈ (dirIndex, node) :: pending, p.1 < entries.length := by
    intro p hp
    obtain ⟨name, c, f, hentry⟩ := h.entry p hp
    exact (List.getElem?_eq_some_iff.mp hentry).1
  obtain ⟨hfresh, hnodup⟩ := List.nodup_cons.mp
    (show (dirIndex :: pending.map Prod.fst).Nodup from h.nodup)
  refine ⟨?_, ?_⟩
  · rw [List.map_append, List.nodup_append']
    refine ⟨subDirs_nodup _ _, hnodup, fun i hi hi' => ?_⟩
    obtain ⟨⟨i', below⟩, hin, rfl⟩ := List.mem_map.mp hi
    obtain ⟨k, name, heq, -⟩ := mem_subDirs.mp hin
    obtain ⟨p, hp, hpi⟩ := List.mem_map.mp hi'
    have := hlt p (List.mem_cons_of_mem _ hp)
    dsimp only at hpi heq
    omega
  · intro p hp
    rcases List.mem_append.mp hp with hp | hp
    · obtain ⟨i, below⟩ := p
      obtain ⟨k, name, rfl, hk⟩ := mem_subDirs.mp hp
      exact ⟨name, 0, 0, by rw [turnEntries_child, hk]; rfl⟩
    · obtain ⟨name, c, f, hentry⟩ := h.entry p (List.mem_cons_of_mem _ hp)
      refine ⟨name, c, f, ?_⟩
      rw [turnEntries_old (hlt p (List.mem_cons_of_mem _ hp)), hentry]
      exact fun heq => hfresh (heq ▸ List.mem_map_of_mem hp)

/-- **One turn.**  What the rest of the loop makes of the table after it, the loop makes of the
table before it. -/
theorem Completes.turn {entries result : List TocEntry} {dirIndex : Nat} {node : DirNode}
    {pending : List (Nat × DirNode)} (hawaits : Awaits entries ((dirIndex, node) :: pending))
    (h : Completes (turnEntries entries dirIndex node)
      (subDirs entries.length node.children ++ pending) result) :
    Completes entries ((dirIndex, node) :: pending) result := by
  obtain ⟨name, c, f, hself⟩ := hawaits.entry _ List.mem_cons_self
  have hlt := (List.getElem?_eq_some_iff.mp hself).1
  have hfresh := (List.nodup_cons.mp
    (show (dirIndex :: pending.map Prod.fst).Nodup from hawaits.nodup)).1
  have hlonger := h.longer
  rw [length_turnEntries] at hlonger
  have hpending : ∀ i ∈ pending.map Prod.fst, i < entries.length := by
    intro i hi
    obtain ⟨p, hp, rfl⟩ := List.mem_map.mp hi
    obtain ⟨name, c, f, hentry⟩ := hawaits.entry p (List.mem_cons_of_mem _ hp)
    exact (List.getElem?_eq_some_iff.mp hentry).1
  have hsub : ∀ i ∈ (subDirs entries.length node.children).map Prod.fst,
      ∃ k name below, i = entries.length + k ∧ node.children[k]? = some (name, .inl below) := by
    intro i hi
    obtain ⟨⟨i', below⟩, hin, rfl⟩ := List.mem_map.mp hi
    obtain ⟨k, name, heq, hk⟩ := mem_subDirs.mp hin
    exact ⟨k, name, below, heq, hk⟩
  have hold : ∀ j e, entries[j]? = some e → j ∉ pending.map Prod.fst →
      j ∉ (subDirs entries.length node.children ++ pending).map Prod.fst := by
    intro j e hj hnot hmem
    have hjlt := (List.getElem?_eq_some_iff.mp hj).1
    rw [List.map_append] at hmem
    rcases List.mem_append.mp hmem with hmem | hmem
    · obtain ⟨k, -, -, heq, -⟩ := hsub j hmem
      omega
    · exact hnot hmem
  have hfile : ∀ k name data, node.children[k]? = some (name, .inr data) →
      result[entries.length + k]? = some (.file name data) := by
    intro k name data hk
    refine h.keeps _ _ (by rw [turnEntries_child, hk]; rfl) fun hmem => ?_
    rw [List.map_append] at hmem
    rcases List.mem_append.mp hmem with hmem | hmem
    · obtain ⟨k', name', below, heq, hk'⟩ := hsub _ hmem
      obtain rfl : k = k' := by omega
      rw [hk] at hk'
      cases hk'
    · have := hpending _ hmem
      omega
  have hbelow : ∀ k name below, node.children[k]? = some (name, .inl below) →
      Represents result (entries.length + k) below := fun k name below hk =>
    h.represents (entries.length + k, below)
      (List.mem_append_left _ (mem_subDirs.mpr ⟨k, name, rfl, hk⟩))
  refine ⟨by omega, ?_, ?_, ?_, ?_⟩
  · intro j e hj hnot
    rw [List.map_cons, List.mem_cons, not_or] at hnot
    refine h.keeps j e ?_ (hold j e hj hnot.2)
    rw [turnEntries_old (List.getElem?_eq_some_iff.mp hj).1 hnot.1, hj]
  · intro j name' c' f' hj
    by_cases hsame : j = dirIndex
    · subst hsame
      exact h.names j _ _ _ (turnEntries_self hj)
    · refine h.names j _ c' f' ?_
      rw [turnEntries_old (List.getElem?_eq_some_iff.mp hj).1 hsame, hj]
  · intro p hp
    rcases List.mem_cons.mp hp with rfl | hp
    · refine .mk (h.keeps _ _ (turnEntries_self hself) (hold dirIndex _ hself hfresh)) hlt
        hlonger hfile ?_ hbelow
      intro k name' below hk
      exact h.names _ name' 0 0 (by rw [turnEntries_child, hk]; rfl)
    · exact h.represents p (List.mem_append_right _ hp)
  · intro hclean j name' c' f' hj hdir
    have hsubclean : ∀ (k : Nat) name below, node.children[k]? = some (name, Sum.inl below) →
        Clean below := fun k name below hk =>
      (hclean _ List.mem_cons_self).sub (mem_children_dir.mp (List.mem_of_getElem? hk))
    by_cases hnew : j < entries.length + node.children.length
    · obtain ⟨k, rfl⟩ := Nat.exists_eq_add_of_le hj
      have hk : k < node.children.length := by omega
      rcases hchild : node.children[k] with ⟨childName, below | data⟩
      · have hget := List.getElem?_eq_some_iff.mpr ⟨hk, hchild⟩
        exact ⟨below, hsubclean k childName below hget, hbelow k childName below hget⟩
      · rw [hfile k childName data (List.getElem?_eq_some_iff.mpr ⟨hk, hchild⟩)] at hdir
        cases hdir
    · refine h.rest (fun p hp => ?_) j name' c' f' (by rw [length_turnEntries]; omega) hdir
      rcases List.mem_append.mp hp with hp | hp
      · obtain ⟨k, name'', -, hk⟩ := mem_subDirs.mp (show (p.1, p.2) ∈ _ from hp)
        exact hsubclean k name'' p.2 hk
      · exact hclean p (List.mem_cons_of_mem _ hp)

theorem flattenLoop_completes : ∀ {turns : Nat} {entries result : List TocEntry}
    {pending : List (Nat × DirNode)}, flattenLoop turns entries pending = some result →
      Awaits entries pending → Completes entries pending result := by
  intro turns
  induction turns with
  | zero =>
      intro entries result pending h hawaits
      cases pending with
      | nil =>
          obtain rfl := Option.some.inj h
          exact ⟨Nat.le_refl _, fun j e hj _ => hj, fun j name c f hj => ⟨c, f, hj⟩,
            fun p hp => absurd hp List.not_mem_nil, fun _ j name c f hj hdir =>
              absurd (List.getElem?_eq_some_iff.mp hdir).1 (Nat.not_lt.mpr hj)⟩
      | cons p pending => cases h
  | succ turns ih =>
      intro entries result pending h hawaits
      cases pending with
      | nil =>
          obtain rfl := Option.some.inj h
          exact ⟨Nat.le_refl _, fun j e hj _ => hj, fun j name c f hj => ⟨c, f, hj⟩,
            fun p hp => absurd hp List.not_mem_nil, fun _ j name c f hj hdir =>
              absurd (List.getElem?_eq_some_iff.mp hdir).1 (Nat.not_lt.mpr hj)⟩
      | cons p pending => exact (ih h hawaits.turn).turn hawaits

/-- A turn for every directory is enough. -/
theorem flattenLoop_total : ∀ (turns : Nat) (entries : List TocEntry)
    (pending : List (Nat × DirNode)), pendingDirs pending ≤ turns →
      ∃ result, flattenLoop turns entries pending = some result := by
  intro turns
  induction turns with
  | zero =>
      intro entries pending h
      cases pending with
      | nil => exact ⟨entries, rfl⟩
      | cons p pending =>
          unfold pendingDirs at h
          rw [List.map_cons, List.sum_cons, dirCount_children] at h
          omega
  | succ turns ih =>
      intro entries pending h
      cases pending with
      | nil => exact ⟨entries, rfl⟩
      | cons p pending =>
          refine ih _ _ ?_
          have hsub := pendingDirs_subDirs p.2.children entries.length
          unfold pendingDirs at h hsub ⊢
          rw [List.map_cons, List.sum_cons, dirCount_children] at h
          rw [List.map_append, List.sum_append, hsub]
          omega

/-- **The table is the tree**, and every directory of it is one of the tree's. -/
theorem flatten_spec {root : DirNode} (hclean : Clean root) : ∃ entries,
    flatten root = some entries ∧ Represents entries 0 root
      ∧ ∀ (j : Nat) name c f, entries[j]? = some (TocEntry.dir name c f) →
        ∃ node, Clean node ∧ Represents entries j node := by
  obtain ⟨entries, h⟩ := flattenLoop_total root.dirCount [.dir [] 0 0] [(0, root)] (by
    unfold pendingDirs
    simp)
  have hdone := flattenLoop_completes h ⟨List.nodup_singleton 0, fun p hp => by
    obtain rfl := List.mem_singleton.mp hp
    exact ⟨[], 0, 0, rfl⟩⟩
  have hroot := hdone.represents _ (List.mem_singleton_self _)
  refine ⟨entries, h, hroot, fun j name c f hj => ?_⟩
  cases j with
  | zero => exact ⟨root, hclean, hroot⟩
  | succ j =>
      refine hdone.rest (fun p hp => ?_) (j + 1) name c f (by simp) hj
      obtain rfl := List.mem_singleton.mp hp
      exact hclean

end Baston.Zone.Packfile
