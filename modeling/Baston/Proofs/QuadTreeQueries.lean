/-
The spatial index against a list.

An item below a node fits the box of every child it is below, since it only ever went down into
children it fitted.  So a query that skips a child skips nothing it should find, and the index
answers as a search through all the boxes would.
-/
import Baston.Proofs.QuadTree
import Baston.Rage.Exact

namespace Baston.Gateway

open Baston.Rage Baston.Zone

/-! ### Where an item may be -/

section Placement

variable {F : Type} [Scalar F]

namespace Node

/-- Whatever is below a child fits it. -/
def Placed : {room : Nat} → Node F room → Prop
  | _, .leaf _ _ => True
  | _, .branch _ _ children => ∀ i, Placed (children i)
    ∧ ∀ item ∈ (children i).entries, fits item.2 (children i).bounds = true

variable {room : Nat}

theorem sink_bounds {insertBelow : ZoneId → Aabb F → Node F room → Node F room}
    (item : ZoneId × Aabb F) (n : Node F (room + 1)) : (sink insertBelow item n).bounds = n.bounds := by
  cases n with
  | leaf b items => rfl
  | branch b items children =>
      rw [sink]
      split
      · rfl
      · rfl

theorem foldl_sink_bounds {insertBelow : ZoneId → Aabb F → Node F room → Node F room} :
    ∀ (items : List (ZoneId × Aabb F)) (n : Node F (room + 1)),
      (items.foldl (fun n item => sink insertBelow item n) n).bounds = n.bounds := by
  intro items
  induction items with
  | nil => exact fun n => rfl
  | cons item rest ih => exact fun n => (ih _).trans (sink_bounds item n)

theorem insert_bounds (id : ZoneId) (box : Aabb F) (n : Node F room) :
    (n.insert id box).bounds = n.bounds := by
  cases n with
  | leaf b items =>
      cases room with
      | zero => rfl
      | succ room =>
          rw [insert]
          split
          · exact (sink_bounds _ _).trans (foldl_sink_bounds _ _)
          · rfl
  | branch b items children => exact sink_bounds _ _

theorem sink_placed {insertBelow : ZoneId → Aabb F → Node F room → Node F room}
    (hperm : ∀ id box n, (insertBelow id box n).entries.Perm ((id, box) :: n.entries))
    (hbounds : ∀ id box n, (insertBelow id box n).bounds = n.bounds)
    (hplaced : ∀ id box n, Placed n → Placed (insertBelow id box n))
    (item : ZoneId × Aabb F) {n : Node F (room + 1)} (h : n.Placed) :
    (sink insertBelow item n).Placed := by
  cases n with
  | leaf b items => trivial
  | branch b items children =>
      rw [sink]
      split
      · rename_i i hfind
        have hfits := List.find?_some
          (p := fun i => fits item.2 (children i).bounds) hfind
        intro j
        obtain ⟨hj, hall⟩ := h j
        by_cases hji : j = i
        · subst hji
          dsimp only
          rw [if_pos rfl]
          refine ⟨hplaced _ _ _ hj, ?_⟩
          intro other hother
          rw [hbounds]
          rcases List.mem_cons.mp ((hperm _ _ _).subset hother) with rfl | hold
          · exact hfits
          · exact hall other hold
        · dsimp only
          rw [if_neg hji]
          exact ⟨hj, hall⟩
      · exact h

theorem foldl_sink_placed {insertBelow : ZoneId → Aabb F → Node F room → Node F room}
    (hperm : ∀ id box n, (insertBelow id box n).entries.Perm ((id, box) :: n.entries))
    (hbounds : ∀ id box n, (insertBelow id box n).bounds = n.bounds)
    (hplaced : ∀ id box n, Placed n → Placed (insertBelow id box n)) :
    ∀ (items : List (ZoneId × Aabb F)) (n : Node F (room + 1)), n.Placed →
      (items.foldl (fun n item => sink insertBelow item n) n).Placed := by
  intro items
  induction items with
  | nil => exact fun n h => h
  | cons item rest ih => exact fun n h => ih _ (sink_placed hperm hbounds hplaced item h)

/-- **An insertion puts its item where it fits**, and sinks the others only into children they
fit. -/
theorem insert_placed : ∀ {room : Nat} (id : ZoneId) (box : Aabb F) (n : Node F room), n.Placed →
    (n.insert id box).Placed := by
  intro room
  induction room with
  | zero =>
      intro id box n _
      cases n with
      | leaf b items => trivial
  | succ room ih =>
      intro id box n h
      have hsink := fun {n : Node F (room + 1)} (hn : n.Placed) =>
        sink_placed insert_entries insert_bounds ih (id, box) hn
      cases n with
      | leaf b items =>
          rw [insert]
          split
          · refine hsink (foldl_sink_placed insert_entries insert_bounds ih items _ ?_)
            exact fun i => ⟨trivial, fun item hitem => absurd hitem List.not_mem_nil⟩
          · trivial
      | branch b items children => exact hsink h

omit [Scalar F] in
theorem remove_bounds (id : ZoneId) (n : Node F room) : (n.remove id).1.bounds = n.bounds := by
  cases n with
  | leaf b items =>
      unfold remove
      split
      · rfl
      · rfl
  | branch b items children =>
      unfold remove
      split
      · rfl
      · split
        · rfl
        · rfl

omit [Scalar F] in
theorem remove_subset (id : ZoneId) (n : Node F room) :
    ∀ item ∈ (n.remove id).1.entries, item ∈ n.entries := by
  intro item hitem
  by_cases hhas : n.Has id
  · obtain ⟨-, box, hperm⟩ := (remove_entries id n).1 hhas
    exact hperm.symm.subset (List.mem_cons_of_mem _ hitem)
  · rw [(remove_entries id n).2 hhas] at hitem
    exact hitem

theorem remove_placed (id : ZoneId) : ∀ {room : Nat} (n : Node F room), n.Placed →
    (n.remove id).1.Placed := by
  intro room n
  induction n with
  | leaf b items =>
      intro _
      unfold remove
      split
      · trivial
      · trivial
  | branch b items children ih =>
      intro h
      unfold remove
      split
      · exact h
      · split
        · rename_i i _
          intro j
          obtain ⟨hj, hall⟩ := h j
          by_cases hji : j = i
          · dsimp only
            rw [if_pos hji, remove_bounds]
            exact ⟨ih j hj, fun item hitem => hall item (remove_subset id _ item hitem)⟩
          · dsimp only
            rw [if_neg hji]
            exact ⟨hj, hall⟩
        · exact h

/-! ### Queries -/

/-- The search both queries are: the items that pass, and those of the children that do. -/
def search (p : Aabb F → Bool) : {room : Nat} → Node F room → List ZoneId
  | _, .leaf _ items => (items.filter fun item => p item.2).map Prod.fst
  | _, .branch _ items children => ((items.filter fun item => p item.2).map Prod.fst)
      ++ (List.finRange 4).flatMap fun i =>
        if p (children i).bounds then search p (children i) else []

theorem queryPoint_eq_search (x y : F) (n : Node F room) :
    n.queryPoint x y = n.search fun b => b.contains x y := by
  induction n with
  | leaf b items => rfl
  | branch b items children ih =>
      rw [queryPoint, search]
      simp only [ih]

theorem queryAabb_eq_search (area : Aabb F) (n : Node F room) :
    n.queryAabb area = n.search fun b => b.intersects area := by
  induction n with
  | leaf b items => rfl
  | branch b items children ih =>
      rw [queryAabb, search]
      simp only [ih]

/-- **A search finds all that passes**, if no box passes but what is around it passes too. -/
theorem search_eq {p : Aabb F → Bool}
    (hp : ∀ box q : Aabb F, fits box q = true → p box = true → p q = true) :
    ∀ {room : Nat} (n : Node F room), n.Placed →
      n.search p = (n.entries.filter fun item => p item.2).map Prod.fst := by
  intro room n
  induction n with
  | leaf b items => exact fun _ => rfl
  | branch b items children ih =>
      intro h
      rw [search, entries_branch, List.filter_append, List.map_append]
      congr 1
      rw [List.filter_flatMap, List.map_flatMap]
      refine List.flatMap_congr fun i _ => ?_
      obtain ⟨hplaced, hfits⟩ := h i
      by_cases hpass : p (children i).bounds = true
      · rw [if_pos hpass]
        exact ih i hplaced
      · rw [if_neg hpass]
        refine (List.map_eq_nil_iff.mpr (List.filter_eq_nil_iff.mpr ?_)).symm
        exact fun item hitem hitem' => hpass (hp _ _ (hfits item hitem) hitem')

end Node

end Placement

/-! ### Exact coordinates -/

section Exact

variable {box q : Aabb ℝ}

theorem fits_iff : Node.fits box q = true ↔ q.xMin ≤ box.xMin ∧ box.xMax ≤ q.xMax
    ∧ q.yMin ≤ box.yMin ∧ box.yMax ≤ q.yMax := by
  simp only [Node.fits, Scalar.le, Bool.and_eq_true, decide_eq_true_eq, and_assoc]

/-- A point in a box is in every box around it. -/
theorem contains_of_fits {x y : ℝ} (h : Node.fits box q = true) (hbox : box.contains x y = true) :
    q.contains x y = true := by
  obtain ⟨hx, hx', hy, hy'⟩ := fits_iff.mp h
  simp only [Aabb.contains, Scalar.le, Scalar.lt, Bool.and_eq_true, decide_eq_true_eq]
    at hbox ⊢
  obtain ⟨⟨⟨hxm, hxM⟩, hym⟩, hyM⟩ := hbox
  exact ⟨⟨⟨hx.trans hxm, hxM.trans_le hx'⟩, hy.trans hym⟩, hyM.trans_le hy'⟩

/-- What meets a box meets every box around it. -/
theorem intersects_of_fits {area : Aabb ℝ} (h : Node.fits box q = true)
    (hbox : box.intersects area = true) : q.intersects area = true := by
  obtain ⟨hx, hx', hy, hy'⟩ := fits_iff.mp h
  simp only [Aabb.intersects, Scalar.lt, Bool.and_eq_true, decide_eq_true_eq] at hbox ⊢
  obtain ⟨⟨⟨hxm, hxM⟩, hym⟩, hyM⟩ := hbox
  exact ⟨⟨⟨hx.trans_lt hxm, hxM.trans_le hx'⟩, hy.trans_lt hym⟩, hyM.trans_le hy'⟩

end Exact

/-! ### The node as it is stored -/

section Raw

variable {F : Type}

/-- A node with its depth written down. -/
def Node.raw : {room : Nat} → Node F room → RawNode F
  | room, .leaf bounds items => .leaf bounds items (maxDepth - room)
  | room + 1, .branch bounds items children =>
    .branch bounds items (fun i => (children i).raw) (maxDepth - (room + 1))

/-- No node is deeper than this. -/
def RawNode.DepthAtMost (limit : Nat) : RawNode F → Prop
  | .leaf _ _ depth => depth ≤ limit
  | .branch _ _ children depth => depth ≤ limit ∧ ∀ i, (children i).DepthAtMost limit

theorem raw_depth {room : Nat} (n : Node F room) : n.raw.DepthAtMost maxDepth := by
  induction n with
  | leaf b items => exact Nat.sub_le _ _
  | branch b items children ih => exact ⟨Nat.sub_le _ _, ih⟩

theorem raw_bounds {room : Nat} (n : Node F room) : n.raw.bounds = n.bounds := by
  cases n with
  | leaf b items => rfl
  | branch b items children => rfl

variable [Scalar F]

/-- The turns that an insertion takes at most: two for every level. -/
def turnsFor (room : Nat) : Nat := 2 * room + 1

/-- One turn on a node that has children. -/
theorem insert_raw_branch {room turns : Nat}
    (ih : ∀ id box (n : Node F room), RawNode.insert turns id box n.raw
      = some (n.insert id box).raw)
    (item : ZoneId × Aabb F) (b : Aabb F) (items : List (ZoneId × Aabb F))
    (children : Fin 4 → Node F room) :
    RawNode.insert (turns + 1) item.1 item.2 (Node.branch b items children).raw
      = some (Node.sink Node.insert item (.branch b items children)).raw := by
  rw [Node.raw, RawNode.insert, Node.sink]
  simp only [Option.bind_eq_bind, Option.bind_some, raw_bounds]
  cases (List.finRange 4).find? fun i => Node.fits item.2 (children i).bounds with
  | none => rfl
  | some i =>
      dsimp only
      rw [ih, Option.bind_some, Node.raw]
      congr 2
      funext j
      by_cases hji : j = i
      · rw [if_pos hji, if_pos hji, hji]
      · rw [if_neg hji, if_neg hji]

omit [Scalar F] in
theorem sink_branch [Scalar F] {room : Nat} {f : ZoneId → Aabb F → Node F room → Node F room}
    (item : ZoneId × Aabb F) (b : Aabb F) (items : List (ZoneId × Aabb F))
    (children : Fin 4 → Node F room) : ∃ items' children',
      Node.sink f item (.branch b items children) = .branch b items' children' := by
  rw [Node.sink]
  split
  · exact ⟨_, _, rfl⟩
  · exact ⟨_, _, rfl⟩

/-- The loop that sinks the items of a full node again. -/
theorem resink_raw {room turns : Nat}
    (ih : ∀ id box (n : Node F room), RawNode.insert turns id box n.raw
      = some (n.insert id box).raw) :
    ∀ (todo : List (ZoneId × Aabb F)) (b : Aabb F) (items : List (ZoneId × Aabb F))
      (children : Fin 4 → Node F room), ∃ items' children',
        todo.foldl (fun n item => Node.sink Node.insert item n) (.branch b items children)
            = .branch b items' children'
          ∧ todo.foldlM (fun n item => RawNode.insert (turns + 1) item.1 item.2 n)
            (Node.branch b items children).raw
            = some (Node.branch b items' children' : Node F (room + 1)).raw := by
  intro todo
  induction todo with
  | nil => exact fun b items children => ⟨items, children, rfl, rfl⟩
  | cons item rest hrest =>
      intro b items children
      obtain ⟨items₁, children₁, hsink⟩ := sink_branch (f := Node.insert) item b items children
      obtain ⟨items', children', hfold, hfoldM⟩ := hrest b items₁ children₁
      refine ⟨items', children', ?_, ?_⟩
      · rw [List.foldl_cons, hsink]
        exact hfold
      · rw [List.foldlM_cons, insert_raw_branch ih, hsink]
        exact hfoldM

/-- **Enough turns** do what the insertion does, and as the types say, no deeper than they
allow. -/
theorem insert_raw : ∀ {room turns : Nat}, room ≤ maxDepth → turnsFor room ≤ turns →
    ∀ (id : ZoneId) (box : Aabb F) (n : Node F room),
      RawNode.insert turns id box n.raw = some (n.insert id box).raw := by
  intro room
  induction room with
  | zero =>
      intro turns _ hturns id box n
      cases n with
      | leaf b items =>
          obtain ⟨t, rfl⟩ : ∃ t, turns = t + 1 := ⟨turns - 1, by unfold turnsFor at hturns; omega⟩
          rw [Node.raw, RawNode.insert]
          dsimp only
          rw [if_neg (by omega)]
          rfl
  | succ room ih =>
      intro turns hroom hturns id box n
      unfold turnsFor at hturns
      obtain ⟨t, rfl⟩ : ∃ t, turns = t + 2 := ⟨turns - 2, by omega⟩
      have hbelow := fun {t'} (h : 2 * room + 1 ≤ t') => ih (by omega) h
      cases n with
      | branch b items children =>
          exact insert_raw_branch (hbelow (by omega)) (id, box) b items children
      | leaf b items =>
          rw [Node.raw, RawNode.insert, Node.insert]
          dsimp only
          by_cases hfull : nodeCapacity ≤ items.length
          · rw [if_pos ⟨hfull, by omega⟩, if_pos hfull]
            obtain ⟨items', children', hfold, hfoldM⟩ := resink_raw (hbelow (show 2 * room + 1 ≤ t by omega))
              items b [] fun i => .new (Node.quadrants b i)
            have hquads : (Node.branch b [] fun i => .new (Node.quadrants b i) :
                Node F (room + 1)).raw = .branch b []
                  (fun i => .leaf (Node.quadrants b i) [] (maxDepth - (room + 1) + 1))
                  (maxDepth - (room + 1)) := by
              unfold Node.new
              rw [Node.raw]
              congr 1
              funext i
              rw [Node.raw, show maxDepth - (room + 1) + 1 = maxDepth - room by omega]
            rw [hquads] at hfoldM
            rw [hfold, hfoldM]
            exact insert_raw_branch (hbelow (by omega)) (id, box) b items' children'
          · rw [if_neg fun h => hfull h.1, if_neg hfull]
            rfl

end Raw

/-! ### Over whole runs -/

inductive TreeOp (F : Type)
  | insert (zoneId : ZoneId) (bounds : Aabb F)
  | remove (zoneId : ZoneId)

namespace TreeOp

variable {F : Type}

def apply [Scalar F] (t : QuadTree F) : TreeOp F → QuadTree F
  | .insert zoneId bounds => t.insert zoneId bounds
  | .remove zoneId => (t.remove zoneId).1

/-- The index after some operations. -/
def run [Scalar F] (bounds : Aabb F) (ops : List (TreeOp F)) : QuadTree F :=
  ops.foldl apply (.new bounds)

/-- What a search through all the boxes would go by: the latest box of every zone. -/
def record (boxes : ZoneId → Option (Aabb F)) : TreeOp F → ZoneId → Option (Aabb F)
  | .insert zoneId bounds => Function.update boxes zoneId (some bounds)
  | .remove zoneId => Function.update boxes zoneId none

/-- The boxes that were inserted and not removed since. -/
def latest (ops : List (TreeOp F)) : ZoneId → Option (Aabb F) := ops.foldl record fun _ => none

end TreeOp

/-- The index holds these boxes, each once, and where queries look for them. -/
structure Indexes (t : QuadTree ℝ) (boxes : ZoneId → Option (Aabb ℝ)) : Prop where
  boxesOf : ∀ id, t.boxesOf id = (boxes id).toList
  placed : t.root.Placed

namespace Indexes

variable {t : QuadTree ℝ} {boxes : ZoneId → Option (Aabb ℝ)}

theorem single (h : Indexes t boxes) : t.Single := by
  intro id
  rw [h.boxesOf]
  exact Option.length_toList_le

theorem step (h : Indexes t boxes) (op : TreeOp ℝ) : Indexes (op.apply t) (op.record boxes) := by
  cases op with
  | insert zoneId bounds =>
      refine ⟨fun id => ?_, Node.insert_placed _ _ _ (Node.remove_placed _ _ h.placed)⟩
      rw [TreeOp.apply, QuadTree.boxesOf_insert h.single, TreeOp.record]
      by_cases hid : id = zoneId
      · rw [if_pos hid, hid, Function.update_self]
        rfl
      · rw [if_neg hid, Function.update_of_ne hid, h.boxesOf]
  | remove zoneId =>
      refine ⟨fun id => ?_, Node.remove_placed _ _ h.placed⟩
      rw [TreeOp.apply, QuadTree.boxesOf_remove h.single, TreeOp.record]
      by_cases hid : id = zoneId
      · rw [if_pos hid, hid, Function.update_self]
        rfl
      · rw [if_neg hid, Function.update_of_ne hid, h.boxesOf]

theorem mem_entries (h : Indexes t boxes) {id : ZoneId} {box : Aabb ℝ} :
    (id, box) ∈ t.root.entries ↔ boxes id = some box := by
  rw [← Option.mem_toList, ← h.boxesOf]
  unfold QuadTree.boxesOf
  simp

/-- No zone is found twice. -/
theorem nodup (h : Indexes t boxes) : (t.root.entries.map Prod.fst).Nodup := by
  rw [List.nodup_iff_count_le_one]
  intro id
  have hone := h.single id
  unfold QuadTree.boxesOf at hone
  rw [List.length_map] at hone
  rw [List.count_eq_countP, List.countP_map, List.countP_eq_length_filter]
  exact hone

/-- A search finds each zone whose box passes, once. -/
theorem search (h : Indexes t boxes) {p : Aabb ℝ → Bool}
    (hp : ∀ box q : Aabb ℝ, Node.fits box q = true → p box = true → p q = true) :
    (t.root.search p).Nodup
      ∧ ∀ id, id ∈ t.root.search p ↔ ∃ box, boxes id = some box ∧ p box = true := by
  rw [Node.search_eq hp _ h.placed]
  refine ⟨h.nodup.sublist (List.filter_sublist.map _), fun id => ?_⟩
  rw [List.mem_map]
  constructor
  · rintro ⟨⟨id', box⟩, hmem, rfl⟩
    obtain ⟨hentry, hpass⟩ := List.mem_filter.mp hmem
    exact ⟨box, h.mem_entries.mp hentry, hpass⟩
  · rintro ⟨box, hbox, hpass⟩
    exact ⟨(id, box), List.mem_filter.mpr ⟨h.mem_entries.mpr hbox, hpass⟩, rfl⟩

/-- A point finds a zone whose box holds it, if there is one. -/
theorem queryPoint (h : Indexes t boxes) (x y : ℝ) :
    (∀ id, t.queryPoint x y = some id → ∃ box, boxes id = some box ∧ box.contains x y = true)
      ∧ (t.queryPoint x y = none ↔ ∀ id box, boxes id = some box → box.contains x y = false) := by
  obtain ⟨-, hmem⟩ := h.search (p := fun b => b.contains x y) fun box q => contains_of_fits
  unfold QuadTree.queryPoint
  rw [Node.queryPoint_eq_search]
  refine ⟨fun id hid => (hmem id).mp (List.mem_of_mem_head? hid), ?_⟩
  rw [List.head?_eq_none_iff, List.eq_nil_iff_forall_not_mem]
  constructor
  · intro hnone id box hbox
    exact Bool.eq_false_iff.mpr fun hin => hnone id ((hmem id).mpr ⟨box, hbox, hin⟩)
  · intro hnone id hid
    obtain ⟨box, hbox, hin⟩ := (hmem id).mp hid
    rw [hnone id box hbox] at hin
    cases hin

theorem remove_answer (h : Indexes t boxes) (id : ZoneId) :
    (t.remove id).2 = (boxes id).isSome := by
  obtain ⟨hfound, hmissing⟩ := Node.remove_entries id t.root
  show (t.root.remove id).2 = _
  cases hbox : boxes id with
  | some box => exact (hfound ⟨box, h.mem_entries.mpr hbox⟩).1
  | none =>
      rw [hmissing]
      · rfl
      · rintro ⟨box, hmem⟩
        rw [h.mem_entries.mp hmem] at hbox
        cases hbox

end Indexes

theorem indexes_latest (bounds : Aabb ℝ) (ops : List (TreeOp ℝ)) :
    Indexes (TreeOp.run bounds ops) (TreeOp.latest ops) := by
  have hall : ∀ (ops : List (TreeOp ℝ)) (t : QuadTree ℝ) boxes, Indexes t boxes →
      Indexes (ops.foldl TreeOp.apply t) (ops.foldl TreeOp.record boxes) := by
    intro ops
    induction ops with
    | nil => exact fun t boxes h => h
    | cons op rest ih => exact fun t boxes h => ih _ _ (h.step op)
  exact hall ops _ _ ⟨fun _ => rfl, trivial⟩

/-- **The index answers as a search through all the boxes.**  After any insertions and removals,
each zone is stored as often as it has a box, once, with its latest; a rectangle finds exactly
the zones whose boxes meet it, each once; a point finds a zone whose box holds it, if there is
one; a removal says whether there was something to remove; and an insertion comes to its end,
with no node too deep. -/
theorem quadTree_brute_force (bounds : Aabb ℝ) (ops : List (TreeOp ℝ)) :
    (∀ id, (TreeOp.run bounds ops).boxesOf id = (TreeOp.latest ops id).toList)
      ∧ (∀ area, ((TreeOp.run bounds ops).queryAabb area).Nodup
        ∧ ∀ id, id ∈ (TreeOp.run bounds ops).queryAabb area
          ↔ ∃ box, TreeOp.latest ops id = some box ∧ box.intersects area = true)
      ∧ (∀ x y, (∀ id, (TreeOp.run bounds ops).queryPoint x y = some id →
            ∃ box, TreeOp.latest ops id = some box ∧ box.contains x y = true)
          ∧ ((TreeOp.run bounds ops).queryPoint x y = none
            ↔ ∀ id box, TreeOp.latest ops id = some box → box.contains x y = false))
      ∧ (∀ id, ((TreeOp.run bounds ops).remove id).2 = (TreeOp.latest ops id).isSome)
      ∧ (TreeOp.run bounds ops).root.raw.DepthAtMost maxDepth
      ∧ ∀ id box turns, turnsFor maxDepth ≤ turns →
        RawNode.insert turns id box ((TreeOp.run bounds ops).remove id).1.root.raw
          = some ((TreeOp.run bounds ops).insert id box).root.raw := by
  have h := indexes_latest bounds ops
  generalize TreeOp.run bounds ops = t at h ⊢
  generalize TreeOp.latest ops = boxes at h ⊢
  refine ⟨h.boxesOf, ?_, ?_, ?_, raw_depth _, ?_⟩
  · intro area
    unfold QuadTree.queryAabb
    rw [Node.queryAabb_eq_search]
    exact h.search fun box q => intersects_of_fits
  · exact h.queryPoint
  · exact h.remove_answer
  · intro id box turns hturns
    exact insert_raw (Nat.le_refl _) hturns id box _

end Baston.Gateway
