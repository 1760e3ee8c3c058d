/-
Which leaves a written tree holds.

The trees are flat, so who is below whom is a matter of depths.  A leaf is admitted when no
gate on the way down to it is closed, its own included; the plan of a tree holds exactly the
authored leaves that are admitted, in the order of the tree, and of the others at most an
empty frame.
-/
import Baston.Proofs.SyncAgree

namespace Baston.Rage

open MessageBuffer SyncParse

namespace SyncWrite

/-! ### Gates on the way down -/

/-- The depth of a node. -/
def depthAt (tree : List FlatNode) (i : Nat) : Nat :=
  (tree[i]?.map fun node => node.depth.toNat).getD 0

/-- Node `i` is node `j` or below it: everything after `j` up to `i` is deeper than `j`. -/
def under (tree : List FlatNode) (j i : Nat) : Bool :=
  (List.range' (j + 1) (i - j)).all fun k => depthAt tree j < depthAt tree k

/-- No gate closes node `i`. -/
def isOpen (ctx : WriteContext) (i : Nat) : Bool := ctx.tree[i]?.all fun node => !gated ctx node

/-- No gate from node `a` on closes node `i`. -/
def admitsFrom (ctx : WriteContext) (a i : Nat) : Bool :=
  (List.range' a (i + 1 - a)).all fun j => !under ctx.tree j i || isOpen ctx j

/-- **No gate on the way down closes node `i`.** -/
def admits (ctx : WriteContext) (i : Nat) : Bool := admitsFrom ctx 0 i

/-- The frame of node `i`, if it is a leaf that was authored. -/
def authoredLeaf (ctx : WriteContext) (i : Nat) : Option (Event (List Bool)) :=
  match ctx.tree[i]?.map FlatNode.kind with
  | some (.data name _) =>
    if contains ctx.nodes name then some (.leaf i name (payloadBits ctx.nodes name)) else none
  | _ => none

/-- The event is the frame of an authored leaf. -/
def isAuthored {β : Type} (nodes : AuthoredNodes) : Event β → Bool
  | .flag _ _ => false
  | .leaf _ name _ => contains nodes name

/-- The authored leaves of the nodes from `a` up to `b` that no gate from `a` on closes. -/
def admittedLeaves (ctx : WriteContext) (a b : Nat) : List (Event (List Bool)) :=
  (List.range' a (b - a)).filterMap fun i =>
    if admitsFrom ctx a i then authoredLeaf ctx i else none

variable {ctx : WriteContext} {tree : List FlatNode}

theorem under_iff {j i : Nat} : under tree j i = true ↔
    ∀ k, j < k → k ≤ i → depthAt tree j < depthAt tree k := by
  unfold under
  simp only [List.all_eq_true, List.mem_range'_1, decide_eq_true_eq]
  constructor
  · intro h k hj hi
    exact h k (by omega)
  · intro h k hk
    exact h k (by omega) (by omega)

theorem admitsFrom_iff {a i : Nat} : admitsFrom ctx a i = true ↔
    ∀ j, a ≤ j → j ≤ i → under ctx.tree j i = true → isOpen ctx j = true := by
  unfold admitsFrom
  simp only [List.all_eq_true, List.mem_range'_1, Bool.or_eq_true, Bool.not_eq_true']
  constructor
  · intro h j ha hi hunder
    rcases h j (by omega) with hnot | hopen
    · rw [hunder] at hnot
      exact absurd hnot (by simp)
    · exact hopen
  · intro h j hj
    cases hunder : under ctx.tree j i with
    | true => exact .inr (h j (by omega) (by omega) hunder)
    | false => exact .inl rfl

theorem under_self (i : Nat) : under tree i i = true := by
  rw [under_iff]
  intro k h1 h2
  omega

/-- A start further on makes no difference when the nodes left out are open or elsewhere. -/
theorem admitsFrom_congr {a b i : Nat} (hab : a ≤ b)
    (h : ∀ j, a ≤ j → j < b → under ctx.tree j i = true → isOpen ctx j = true) :
    admitsFrom ctx a i = admitsFrom ctx b i := by
  rw [Bool.eq_iff_iff, admitsFrom_iff, admitsFrom_iff]
  constructor
  · intro hall j hj
    exact hall j (by omega)
  · intro hall j hj hi hunder
    by_cases hb : b ≤ j
    · exact hall j hb hi hunder
    · exact h j hj (by omega) hunder

theorem depthAt_eq {i : Nat} {node : FlatNode} (h : tree[i]? = some node) :
    depthAt tree i = node.depth.toNat := by
  unfold depthAt
  rw [h]
  rfl

theorem isOpen_eq {i : Nat} {node : FlatNode} (h : ctx.tree[i]? = some node) :
    isOpen ctx i = !gated ctx node := by
  unfold isOpen
  rw [h]
  rfl

/-- The subtree of a node: everything up to its end is below it, and what is at its end is not. -/
structure Subtree (tree : List FlatNode) (depth : Nat) (start stop : Nat) : Prop where
  le : start ≤ stop
  below : ∀ k, start ≤ k → k < stop → depth < depthAt tree k
  stops : stop < tree.length → depthAt tree stop ≤ depth

/-- Where `takeWhile` stops, and what it passes. -/
theorem takeWhile_stops {α : Type} (p : α → Bool) : ∀ l : List α,
    (∀ k x, k < (l.takeWhile p).length → l[k]? = some x → p x = true)
      ∧ ∀ x, l[(l.takeWhile p).length]? = some x → p x = false := by
  intro l
  induction l with
  | nil => exact ⟨fun k x hk => absurd hk (by simp), fun x hx => absurd hx (by simp)⟩
  | cons a rest ih =>
      by_cases ha : p a = true
      · rw [List.takeWhile_cons_of_pos ha, List.length_cons]
        refine ⟨?_, fun x hx => ih.2 x (by simpa using hx)⟩
        intro k x hk hx
        rcases k with _ | k
        · rw [← Option.some.inj (show some a = some x by simpa using hx)]
          exact ha
        · exact ih.1 k x (by omega) (by simpa using hx)
      · rw [List.takeWhile_cons_of_neg ha]
        refine ⟨fun k x hk => absurd hk (by simp), ?_⟩
        intro x hx
        rw [← Option.some.inj (show some a = some x by simpa using hx)]
        simpa using ha

theorem skipSubtree_subtree (tree : List FlatNode) (start : Nat) (depth : UInt8)
    (hle : start ≤ tree.length) :
    Subtree tree depth.toNat start (skipSubtree tree start depth)
      ∧ skipSubtree tree start depth ≤ tree.length := by
  obtain ⟨hpass, hstop⟩ := takeWhile_stops (fun child : FlatNode => decide (child.depth > depth))
    (tree.drop start)
  have hlen := (List.takeWhile_prefix (fun child : FlatNode => decide (child.depth > depth))
    (l := tree.drop start)).length_le
  rw [List.length_drop] at hlen
  unfold skipSubtree
  generalize (tree.drop start).takeWhile (fun child => decide (child.depth > depth)) = run at *
  refine ⟨⟨by omega, ?_, ?_⟩, by omega⟩
  · intro k hk hend
    have hnode := List.getElem?_eq_getElem (show k < tree.length by omega)
    have hdeep := hpass (k - start) _ (by omega)
      (by rw [List.getElem?_drop, show start + (k - start) = k by omega]; exact hnode)
    rw [depthAt_eq hnode]
    exact UInt8.lt_iff_toNat_lt.mp (of_decide_eq_true hdeep)
  · intro hend
    have hnode := List.getElem?_eq_getElem hend
    have hshallow := hstop _ (by rw [List.getElem?_drop]; exact hnode)
    rw [depthAt_eq hnode]
    have hnot := of_decide_eq_false hshallow
    rw [gt_iff_lt, UInt8.lt_iff_toNat_lt] at hnot
    omega

/-- Where the events of a node and of its children end. -/
theorem planNode_subtree (hleaves : LeavesClosed ctx.tree) : ∀ fuel : Nat,
    (∀ {cursor cursor' : Nat} {events : List (Event (List Bool))},
      planNode ctx fuel cursor = some (events, cursor') →
        cursor < ctx.tree.length ∧ Subtree ctx.tree (depthAt ctx.tree cursor) (cursor + 1) cursor')
    ∧ ∀ {depth : UInt8} {cursor cursor' : Nat} {events : List (Event (List Bool))},
      planChildren ctx fuel depth cursor = some (events, cursor') →
        Subtree ctx.tree depth.toNat cursor cursor' := by
  intro fuel
  induction fuel with
  | zero =>
      refine ⟨?_, ?_⟩
      · intro cursor cursor' events hplan
        rw [planNode] at hplan
        exact absurd hplan (by simp)
      · intro depth cursor cursor' events hplan
        rw [planChildren] at hplan
        exact absurd hplan (by simp)
  | succ fuel ih =>
      obtain ⟨ihNode, ihChildren⟩ := ih
      constructor
      · intro cursor cursor' events hplan
        obtain ⟨node, hnode, hcase⟩ := planNode_cases hplan
        have hlt := (List.getElem?_eq_some_iff.mp hnode).1
        refine ⟨hlt, ?_⟩
        rw [depthAt_eq hnode]
        have hskip := (skipSubtree_subtree ctx.tree (cursor + 1) node.depth (by omega)).1
        cases hcase with
        | closed hgate => exact hskip
        | absent hopen hflag habsent => exact hskip
        | parent hopen hpresent hkind hchildren => exact ihChildren hchildren
        | leaf hopen hpresent hkind =>
            rwa [hleaves cursor node hnode (by rw [hkind]; simp)] at hskip
      · intro depth cursor cursor' events hplan
        rcases planChildren_cases hplan with ⟨-, rfl, hend⟩
          | ⟨child, first, mid, rest, hnode, hdeep, hfirst, hrest, -⟩
        · refine ⟨Nat.le_refl _, fun k h1 h2 => by omega, ?_⟩
          intro hlt
          have hnode := List.getElem?_eq_getElem hlt
          have hnot := hend _ hnode
          rw [gt_iff_lt, UInt8.lt_iff_toNat_lt] at hnot
          rw [depthAt_eq hnode]
          omega
        · obtain ⟨-, hsub⟩ := ihNode hfirst
          have hrest' := ihChildren hrest
          have hle := hsub.le
          have hle' := hrest'.le
          have hchild : depth.toNat < depthAt ctx.tree cursor := by
            rw [depthAt_eq hnode]
            exact UInt8.lt_iff_toNat_lt.mp hdeep
          refine ⟨by omega, ?_, hrest'.stops⟩
          intro k hk hend
          by_cases hmid : mid ≤ k
          · exact hrest'.below k hmid hend
          · by_cases hself : k = cursor
            · rw [hself]
              exact hchild
            · have := hsub.below k (by omega) (by omega)
              omega

/-! ### The plan holds the admitted leaves -/

theorem admittedLeaves_eq_nil {a b : Nat}
    (h : ∀ i, a ≤ i → i < b → admitsFrom ctx a i = true → authoredLeaf ctx i = none) :
    admittedLeaves ctx a b = [] := by
  unfold admittedLeaves
  rw [List.filterMap_eq_nil_iff]
  intro i hi
  rw [List.mem_range'_1] at hi
  split
  · rename_i hadmits
    exact h i (by omega) (by omega) hadmits
  · rfl

/-- The first node, and the others, when it does not close them. -/
theorem admittedLeaves_cons {a b : Nat} (hab : a < b) (hopen : isOpen ctx a = true) :
    admittedLeaves ctx a b = (authoredLeaf ctx a).toList ++ admittedLeaves ctx (a + 1) b := by
  have hself : admitsFrom ctx a a = true := by
    rw [admitsFrom_iff]
    intro j h1 h2 _
    rw [show j = a by omega]
    exact hopen
  unfold admittedLeaves
  rw [show b - a = (b - (a + 1)) + 1 by omega, List.range'_succ, List.filterMap_cons, if_pos hself]
  have hrest : (List.range' (a + 1) (b - (a + 1))).filterMap
        (fun i => if admitsFrom ctx a i then authoredLeaf ctx i else none)
      = (List.range' (a + 1) (b - (a + 1))).filterMap
        (fun i => if admitsFrom ctx (a + 1) i then authoredLeaf ctx i else none) := by
    apply List.filterMap_congr
    intro i hi
    rw [List.mem_range'_1] at hi
    have hsame : admitsFrom ctx a i = admitsFrom ctx (a + 1) i := by
      refine admitsFrom_congr (by omega) ?_
      intro j h1 h2 _
      rw [show j = a by omega]
      exact hopen
    rw [hsame]
  rw [hrest]
  rcases authoredLeaf ctx a with _ | e
  · rfl
  · rfl

/-- The leaves of a node's subtree, then those behind it. -/
theorem admittedLeaves_append {a m b : Nat}
    (hsub : Subtree ctx.tree (depthAt ctx.tree a) (a + 1) m) (hmb : m ≤ b)
    (hb : b ≤ ctx.tree.length) :
    admittedLeaves ctx a b = admittedLeaves ctx a m ++ admittedLeaves ctx m b := by
  have hle := hsub.le
  unfold admittedLeaves
  rw [show b - a = (m - a) + (b - m) by omega, ← List.range'_append_1, List.filterMap_append,
    show a + (m - a) = m by omega]
  congr 1
  apply List.filterMap_congr
  intro i hi
  rw [List.mem_range'_1] at hi
  have hsame : admitsFrom ctx a i = admitsFrom ctx m i := by
    refine admitsFrom_congr (by omega) ?_
    intro j h1 h2 hunder
    -- nothing of the subtree is above what comes behind it
    have hmid := under_iff.mp hunder m h2 (by omega)
    have hstop := hsub.stops (by omega)
    by_cases hj : j = a
    · rw [hj] at hmid
      omega
    · have := hsub.below j (by omega) h2
      omega
  rw [hsame]

/-- Every node of a closed node's subtree is closed with it. -/
theorem admitsFrom_closed {a i stop : Nat} (hsub : Subtree ctx.tree (depthAt ctx.tree a) (a + 1) stop)
    (hclosed : isOpen ctx a = false) (ha : a ≤ i) (hi : i < stop) :
    admitsFrom ctx a i = false := by
  by_contra h
  rw [Bool.not_eq_false, admitsFrom_iff] at h
  have hunder : under ctx.tree a i = true := by
    rw [under_iff]
    intro k h1 h2
    exact hsub.below k (by omega) (by omega)
  rw [h a (Nat.le_refl _) ha hunder] at hclosed
  exact absurd hclosed (by simp)

/-- A parent without an authored leaf below it has none among the admitted ones. -/
theorem authoredLeaf_of_absent {node : FlatNode} {start i : Nat}
    (habsent : subtreeHasPayload ctx start node.depth = false) (hstart : start ≤ i)
    (hi : i < skipSubtree ctx.tree start node.depth) (hopen : isOpen ctx i = true) :
    authoredLeaf ctx i = none := by
  unfold subtreeHasPayload at habsent
  unfold skipSubtree at hi
  have hprefix := List.takeWhile_prefix (fun child : FlatNode => decide (child.depth > node.depth))
    (l := ctx.tree.drop start)
  generalize (ctx.tree.drop start).takeWhile (fun child => decide (child.depth > node.depth)) = run
    at habsent hi hprefix
  have hlen : i - start < run.length := by omega
  obtain ⟨rest, hrest⟩ := hprefix
  have hnode : ctx.tree[i]? = some (run.get ⟨i - start, hlen⟩) := by
    have hget : (ctx.tree.drop start)[i - start]? = some (run.get ⟨i - start, hlen⟩) := by
      rw [← hrest, List.getElem?_append_left hlen]
      exact List.getElem?_eq_getElem hlen
    rwa [List.getElem?_drop, show start + (i - start) = i by omega] at hget
  have hmem : run.get ⟨i - start, hlen⟩ ∈ run := List.get_mem _ _
  generalize run.get ⟨i - start, hlen⟩ = child at hnode hmem
  have hnone := List.any_eq_false.mp habsent child hmem
  rw [isOpen_eq hnode] at hopen
  unfold authoredLeaf
  rw [hnode, Option.map_some]
  rcases hkind : child.kind with _ | ⟨name, maxBytes⟩
  · rfl
  · simp only [hkind, hopen, Bool.true_and, Bool.not_eq_true] at hnone
    simp only [hnone]
    rfl

theorem filter_flagPlan (node : FlatNode) (cursor : Nat) (events : List (Event (List Bool))) :
    (flagPlan ctx node cursor ++ events).filter (isAuthored ctx.nodes)
      = events.filter (isAuthored ctx.nodes) := by
  unfold flagPlan
  split
  · rfl
  · rfl

/-- **The authored leaves of a plan** are the admitted ones, in the order of the tree. -/
theorem filter_plan (hleaves : LeavesClosed ctx.tree) : ∀ fuel : Nat,
    (∀ {cursor cursor' : Nat} {events : List (Event (List Bool))},
      planNode ctx fuel cursor = some (events, cursor') → cursor' ≤ ctx.tree.length
        ∧ events.filter (isAuthored ctx.nodes) = admittedLeaves ctx cursor cursor')
    ∧ ∀ {depth : UInt8} {cursor cursor' : Nat} {events : List (Event (List Bool))},
      cursor ≤ ctx.tree.length →
      planChildren ctx fuel depth cursor = some (events, cursor') → cursor' ≤ ctx.tree.length
        ∧ events.filter (isAuthored ctx.nodes) = admittedLeaves ctx cursor cursor' := by
  intro fuel
  induction fuel with
  | zero =>
      refine ⟨?_, ?_⟩
      · intro cursor cursor' events hplan
        rw [planNode] at hplan
        exact absurd hplan (by simp)
      · intro depth cursor cursor' events _ hplan
        rw [planChildren] at hplan
        exact absurd hplan (by simp)
  | succ fuel ih =>
      obtain ⟨ihNode, ihChildren⟩ := ih
      constructor
      · intro cursor cursor' events hplan
        obtain ⟨hlt, hsub⟩ := (planNode_subtree hleaves (fuel + 1)).1 hplan
        obtain ⟨node, hnode, hcase⟩ := planNode_cases hplan
        have hle := hsub.le
        have hpast := (skipSubtree_subtree ctx.tree (cursor + 1) node.depth (by omega)).2
        cases hcase with
        | closed hgate =>
            refine ⟨hpast, ?_⟩
            have hclosed : isOpen ctx cursor = false := by
              rw [isOpen_eq hnode, hgate]
              rfl
            rw [admittedLeaves_eq_nil]
            · rfl
            · intro i h1 h2 hadmits
              rw [admitsFrom_closed hsub hclosed h1 h2] at hadmits
              exact absurd hadmits (by simp)
        | absent hopen hflag habsent =>
            refine ⟨hpast, ?_⟩
            rw [admittedLeaves_eq_nil]
            · rfl
            · intro i h1 h2 hadmits
              have hself := admitsFrom_iff.mp hadmits i h1 (Nat.le_refl _) (under_self i)
              unfold present at habsent
              rcases hkind : node.kind with _ | ⟨name, maxBytes⟩
              · simp only [hkind] at habsent
                by_cases hi : i = cursor
                · unfold authoredLeaf
                  rw [hi, hnode, Option.map_some, hkind]
                · exact authoredLeaf_of_absent habsent (by omega) h2 hself
              · simp only [hkind] at habsent
                have hend := hleaves cursor node hnode (by rw [hkind]; simp)
                unfold past at h2
                obtain rfl : i = cursor := by omega
                unfold authoredLeaf
                rw [hnode, Option.map_some, hkind]
                simp only [habsent]
                rfl
        | parent hopen hpresent hkind hchildren =>
            obtain ⟨hend, hfilter⟩ := ihChildren (by omega) hchildren
            refine ⟨hend, ?_⟩
            have hopen' : isOpen ctx cursor = true := by
              rw [isOpen_eq hnode, hopen]
              rfl
            rw [filter_flagPlan, hfilter, admittedLeaves_cons (by omega) hopen']
            unfold authoredLeaf
            rw [hnode, Option.map_some, hkind]
            rfl
        | @leaf name _ hopen hpresent hkind =>
            refine ⟨by omega, ?_⟩
            have hopen' : isOpen ctx cursor = true := by
              rw [isOpen_eq hnode, hopen]
              rfl
            have hnone : admittedLeaves ctx (cursor + 1) (cursor + 1) = [] := by
              unfold admittedLeaves
              rw [Nat.sub_self]
              rfl
            rw [filter_flagPlan, admittedLeaves_cons (by omega) hopen', hnone, List.append_nil]
            unfold authoredLeaf
            rw [hnode, Option.map_some, hkind]
            cases hcontains : contains ctx.nodes name with
            | true => simp [isAuthored, hcontains]
            | false => simp [isAuthored, hcontains]
      · intro depth cursor cursor' events hcursor hplan
        rcases planChildren_cases hplan with ⟨rfl, rfl, -⟩
          | ⟨child, first, mid, rest, hnode, hdeep, hfirst, hrest, rfl⟩
        · refine ⟨hcursor, ?_⟩
          unfold admittedLeaves
          rw [Nat.sub_self]
          rfl
        · obtain ⟨hmid, hfilter⟩ := ihNode hfirst
          obtain ⟨hend, hfilter'⟩ := ihChildren hmid hrest
          obtain ⟨-, hsub⟩ := (planNode_subtree hleaves fuel).1 hfirst
          have hle := ((planNode_subtree hleaves fuel).2 hrest).le
          refine ⟨hend, ?_⟩
          rw [List.filter_append, hfilter, hfilter', ← admittedLeaves_append hsub hle hend]

/-- The node is a leaf of the given name. -/
def isLeaf (name : NodeName) (node : FlatNode) : Bool :=
  match node.kind with
  | .parent => false
  | .data other _ => other == name

/-- A leaf of the tree, with what was authored under its name. -/
structure PlannedLeaf (ctx : WriteContext) (i : Nat) (name : NodeName) (payload : List Bool) :
    Prop where
  node : ctx.tree[i]?.any (isLeaf name) = true
  payload : payload = payloadBits ctx.nodes name

/-- Every leaf of a plan is one of the tree, and carries what was authored under its name. -/
theorem plan_leaves : ∀ fuel : Nat,
    (∀ {cursor cursor' : Nat} {events : List (Event (List Bool))},
      planNode ctx fuel cursor = some (events, cursor') →
        ∀ i name payload, .leaf i name payload ∈ events → PlannedLeaf ctx i name payload)
    ∧ ∀ {depth : UInt8} {cursor cursor' : Nat} {events : List (Event (List Bool))},
      planChildren ctx fuel depth cursor = some (events, cursor') →
        ∀ i name payload, .leaf i name payload ∈ events → PlannedLeaf ctx i name payload := by
  have hflags : ∀ (node : FlatNode) (cursor i : Nat) (name : NodeName) (payload : List Bool),
      ¬ Event.leaf i name payload ∈ flagPlan ctx node cursor := by
    intro node cursor i name payload hmem
    unfold flagPlan at hmem
    split at hmem
    · exact absurd (List.mem_singleton.mp hmem) (by simp)
    · exact absurd hmem (by simp)
  intro fuel
  induction fuel with
  | zero =>
      refine ⟨?_, ?_⟩
      · intro cursor cursor' events hplan
        rw [planNode] at hplan
        exact absurd hplan (by simp)
      · intro depth cursor cursor' events hplan
        rw [planChildren] at hplan
        exact absurd hplan (by simp)
  | succ fuel ih =>
      obtain ⟨ihNode, ihChildren⟩ := ih
      constructor
      · intro cursor cursor' events hplan i name payload hmem
        obtain ⟨node, hnode, hcase⟩ := planNode_cases hplan
        cases hcase with
        | closed hgate => exact absurd hmem (by simp)
        | absent hopen hflag habsent => exact absurd (List.mem_singleton.mp hmem) (by simp)
        | parent hopen hpresent hkind hchildren =>
            rcases List.mem_append.mp hmem with hmem | hmem
            · exact absurd hmem (hflags node cursor i name payload)
            · exact ihChildren hchildren i name payload hmem
        | leaf hopen hpresent hkind =>
            rcases List.mem_append.mp hmem with hmem | hmem
            · exact absurd hmem (hflags node cursor i name payload)
            · obtain ⟨rfl, rfl, rfl⟩ := Event.leaf.inj (List.mem_singleton.mp hmem)
              refine ⟨?_, rfl⟩
              rw [hnode, Option.any_some, isLeaf, hkind]
              exact beq_self_eq_true _
      · intro depth cursor cursor' events hplan i name payload hmem
        rcases planChildren_cases hplan with ⟨rfl, -, -⟩
          | ⟨child, first, mid, rest, hnode, hdeep, hfirst, hrest, rfl⟩
        · exact absurd hmem (by simp)
        · rcases List.mem_append.mp hmem with hmem | hmem
          · exact ihNode hfirst i name payload hmem
          · exact ihChildren hrest i name payload hmem

/-- Nothing is carried under a name that was not authored. -/
theorem payloadBits_eq_nil {nodes : AuthoredNodes} {name : NodeName}
    (h : contains nodes name = false) : payloadBits nodes name = [] := by
  have hnone : payload nodes name = none := by
    unfold payload
    rw [Option.map_eq_none_iff, List.find?_eq_none]
    intro node hmem
    simpa using List.any_eq_false.mp h node hmem
  unfold payloadBits
  rw [hnone]

end SyncWrite

end Baston.Rage
