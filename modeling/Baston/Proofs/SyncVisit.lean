/-
The walk as a run of single visits.

Since the tree is flat, the nested loops of the walk come to one loop over the nodes: visit the
node at the cursor, and go on where that leaves off.  A visit says all a step of the walk does;
what holds of a whole walk is an induction over its visits.
-/
import Baston.Proofs.SyncBlob

namespace Baston.Rage

open MessageBuffer

namespace SyncParse

variable {F : Type} [Scalar F]

/-! ### One visit -/

/-- What the walk does at the node at its cursor: the events, whether it goes on, and where. -/
inductive Visit (ctx : WalkContext) (st : WalkState F) :
    List (Event LeafBody) → Bool → WalkState F → Prop
  | skip {node : FlatNode} {buf : MessageBuffer} (hnode : ctx.tree[st.cursor]? = some node)
      (hkind : node.kind = .parent)
      (hread : shouldRead node.ids ctx.syncType ctx.objType st.buf = (false, buf)) :
      Visit ctx st (flagLog ctx st.cursor node st.buf) true
        ⟨skipSubtree ctx.tree (st.cursor + 1) node.depth, buf, st.out⟩
  | enter {node : FlatNode} {buf : MessageBuffer} (hnode : ctx.tree[st.cursor]? = some node)
      (hkind : node.kind = .parent)
      (hread : shouldRead node.ids ctx.syncType ctx.objType st.buf = (true, buf)) :
      Visit ctx st (flagLog ctx st.cursor node st.buf) true ⟨st.cursor + 1, buf, st.out⟩
  | pass {node : FlatNode} {buf : MessageBuffer} (hnode : ctx.tree[st.cursor]? = some node)
      {name : NodeName} {maxBytes : UInt16} (hkind : node.kind = .data name maxBytes)
      (hread : shouldRead node.ids ctx.syncType ctx.objType st.buf = (false, buf)) :
      Visit ctx st (flagLog ctx st.cursor node st.buf) true ⟨st.cursor + 1, buf, st.out⟩
  | broken {node : FlatNode} {buf : MessageBuffer} (hnode : ctx.tree[st.cursor]? = some node)
      {name : NodeName} {maxBytes : UInt16} (hkind : node.kind = .data name maxBytes)
      (hread : shouldRead node.ids ctx.syncType ctx.objType st.buf = (true, buf))
      (hframe : frame buf = none) :
      Visit ctx st (flagLog ctx st.cursor node st.buf) false
        ⟨st.cursor + 1, buf.skipBits (lengthWidth buf), st.out⟩
  | leaf {node : FlatNode} {buf : MessageBuffer} (hnode : ctx.tree[st.cursor]? = some node)
      {name : NodeName} {maxBytes : UInt16} (hkind : node.kind = .data name maxBytes)
      (hread : shouldRead node.ids ctx.syncType ctx.objType st.buf = (true, buf))
      {body : LeafBody} (hframe : frame buf = some body) :
      Visit ctx st (flagLog ctx st.cursor node st.buf ++ [.leaf st.cursor name body]) true
        ⟨st.cursor + 1, buf.setCurrentBit (body.start + body.bits),
          applyEvent ctx.build st.out (.leaf st.cursor name body)⟩

/-- A run of visits, cut short or not. -/
inductive Visits (ctx : WalkContext) :
    WalkState F → List (Event LeafBody) → Bool → WalkState F → Prop
  | done (st : WalkState F) : Visits ctx st [] true st
  | stop {st st' : WalkState F} {events : List (Event LeafBody)}
      (hvisit : Visit ctx st events false st') : Visits ctx st events false st'
  | more {st mid st' : WalkState F} {events rest : List (Event LeafBody)} {going : Bool}
      (hvisit : Visit ctx st events true mid) (hrest : Visits ctx mid rest going st') :
      Visits ctx st (events ++ rest) going st'

variable {ctx : WalkContext} {st st' : WalkState F} {events : List (Event LeafBody)} {going : Bool}

/-- The visit as a function. -/
def visit (ctx : WalkContext) (st : WalkState F) :
    Option (List (Event LeafBody) × Bool × WalkState F) :=
  match ctx.tree[st.cursor]? with
  | none => none
  | some node =>
    let (read, buf) := shouldRead node.ids ctx.syncType ctx.objType st.buf
    let flags := flagLog ctx st.cursor node st.buf
    match node.kind with
    | .parent =>
      if read then some (flags, true, ⟨st.cursor + 1, buf, st.out⟩)
      else some (flags, true, ⟨skipSubtree ctx.tree (st.cursor + 1) node.depth, buf, st.out⟩)
    | .data name _ =>
      if read then
        match frame buf with
        | none => some (flags, false, ⟨st.cursor + 1, buf.skipBits (lengthWidth buf), st.out⟩)
        | some body =>
          some (flags ++ [.leaf st.cursor name body], true,
            ⟨st.cursor + 1, buf.setCurrentBit (body.start + body.bits),
              applyEvent ctx.build st.out (.leaf st.cursor name body)⟩)
      else some (flags, true, ⟨st.cursor + 1, buf, st.out⟩)

theorem Visit.eq (h : Visit ctx st events going st') :
    visit ctx st = some (events, going, st') := by
  unfold visit
  cases h with
  | skip hnode hkind hread => simp only [hnode, hread, hkind, Bool.false_eq_true, if_false]
  | enter hnode hkind hread => simp only [hnode, hread, hkind, if_true]
  | pass hnode hkind hread => simp only [hnode, hread, hkind, Bool.false_eq_true, if_false]
  | broken hnode hkind hread hframe => simp only [hnode, hread, hkind, if_true, hframe]
  | leaf hnode hkind hread hframe => simp only [hnode, hread, hkind, if_true, hframe]

/-- A visit is determined by the state. -/
theorem Visit.unique {events' : List (Event LeafBody)} {going' : Bool} {st'' : WalkState F}
    (h : Visit ctx st events going st') (h' : Visit ctx st events' going' st'') :
    events' = events ∧ going' = going ∧ st'' = st' := by
  obtain ⟨h1, h2⟩ := Prod.mk.inj (Option.some.inj (h'.eq.symm.trans h.eq))
  exact ⟨h1, Prod.mk.inj h2⟩

/-- A visit moves on in the tree. -/
theorem Visit.cursor_lt (h : Visit ctx st events going st') :
    st.cursor < ctx.tree.length ∧ st.cursor < st'.cursor := by
  cases h with
  | skip hnode hkind hread =>
      refine ⟨(List.getElem?_eq_some_iff.mp hnode).1, ?_⟩
      simp only [skipSubtree]
      omega
  | enter hnode hkind hread =>
      exact ⟨(List.getElem?_eq_some_iff.mp hnode).1, Nat.lt_succ_self _⟩
  | pass hnode hkind hread =>
      exact ⟨(List.getElem?_eq_some_iff.mp hnode).1, Nat.lt_succ_self _⟩
  | broken hnode hkind hread hframe =>
      exact ⟨(List.getElem?_eq_some_iff.mp hnode).1, Nat.lt_succ_self _⟩
  | leaf hnode hkind hread hframe =>
      exact ⟨(List.getElem?_eq_some_iff.mp hnode).1, Nat.lt_succ_self _⟩

/-- Nothing is left to visit, or the stream is used up. -/
def Ended (ctx : WalkContext) (going : Bool) (st : WalkState F) : Prop :=
  going = false ∨ ctx.tree.length ≤ st.cursor

/-- **A run that has ended is determined by where it starts.** -/
theorem Visits.unique {log log' : List (Event LeafBody)} {going' : Bool} {st'' : WalkState F}
    (h : Visits ctx st log going st') (hend : Ended ctx going st')
    (h' : Visits ctx st log' going' st'') (hend' : Ended ctx going' st'') :
    log' = log ∧ going' = going ∧ st'' = st' := by
  have atRest : ∀ {st mid : WalkState F} {events : List (Event LeafBody)} {going : Bool},
      Ended ctx true st → ¬ Visit ctx st events going mid := by
    intro st mid events going hrest hvisit
    rcases hrest with hno | hlen
    · exact absurd hno (by simp)
    · have := hvisit.cursor_lt
      omega
  induction h generalizing log' with
  | done st =>
      cases h' with
      | done => exact ⟨rfl, rfl, rfl⟩
      | stop hvisit => exact absurd hvisit (atRest hend)
      | more hvisit hrest => exact absurd hvisit (atRest hend)
  | stop hvisit =>
      cases h' with
      | done => exact absurd hvisit (atRest hend')
      | stop hvisit' =>
          obtain ⟨rfl, -, rfl⟩ := hvisit.unique hvisit'
          exact ⟨rfl, rfl, rfl⟩
      | more hvisit' hrest' => exact absurd (hvisit.unique hvisit').2.1 (by simp)
  | more hvisit hrest ih =>
      cases h' with
      | done => exact absurd hvisit (atRest hend')
      | stop hvisit' => exact absurd (hvisit.unique hvisit').2.1 (by simp)
      | more hvisit' hrest' =>
          obtain ⟨rfl, -, rfl⟩ := hvisit.unique hvisit'
          obtain ⟨rfl, rfl, rfl⟩ := ih hend hrest'
          exact ⟨rfl, rfl, rfl⟩

/-- Two runs, one after the other. -/
theorem Visits.append {mid : WalkState F} {first rest : List (Event LeafBody)}
    (h : Visits ctx st first true mid) (h' : Visits ctx mid rest going st') :
    Visits ctx st (first ++ rest) going st' := by
  generalize htrue : true = g at h
  induction h with
  | done st => exact h'
  | stop hvisit => exact absurd htrue (by simp)
  | more hvisit hrest ih =>
      rw [List.append_assoc]
      exact .more hvisit (ih h' htrue)

/-! ### The walk is a run -/

theorem Visit.sameData (h : Visit ctx st events going st') : SameData st.buf st'.buf := by
  have hread : ∀ {node : FlatNode} {read : Bool} {buf : MessageBuffer},
      shouldRead node.ids ctx.syncType ctx.objType st.buf = (read, buf) → SameData st.buf buf := by
    intro node read buf hr
    have := sameData_shouldRead ctx node st.buf
    rwa [hr] at this
  cases h with
  | skip hnode hkind hr => exact hread hr
  | enter hnode hkind hr => exact hread hr
  | pass hnode hkind hr => exact hread hr
  | broken hnode hkind hr hframe => exact (hread hr).trans ⟨rfl, rfl, rfl⟩
  | leaf hnode hkind hr hframe => exact (hread hr).trans ⟨rfl, rfl, rfl⟩

theorem Visits.sameData (h : Visits ctx st events going st') : SameData st.buf st'.buf := by
  induction h with
  | done st => exact .refl _
  | stop hvisit => exact hvisit.sameData
  | more hvisit hrest ih => exact hvisit.sameData.trans ih

/-- The record of a run is the fold of its log. -/
theorem Visit.out (h : Visit ctx st events going st') :
    st'.out = events.foldl (applyEvent ctx.build) st.out := by
  cases h with
  | skip hnode hkind hread => rw [foldl_flagLog]
  | enter hnode hkind hread => rw [foldl_flagLog]
  | pass hnode hkind hread => rw [foldl_flagLog]
  | broken hnode hkind hread hframe => rw [foldl_flagLog]
  | leaf hnode hkind hread hframe => rw [List.foldl_append, foldl_flagLog]; rfl

theorem Visits.out (h : Visits ctx st events going st') :
    st'.out = events.foldl (applyEvent ctx.build) st.out := by
  induction h with
  | done st => rfl
  | stop hvisit => exact hvisit.out
  | more hvisit hrest ih => rw [ih, hvisit.out, List.foldl_append]

theorem Visits.cursor_le (h : Visits ctx st events going st') : st.cursor ≤ st'.cursor := by
  induction h with
  | done st => exact Nat.le_refl _
  | stop hvisit => exact hvisit.cursor_lt.2.le
  | more hvisit hrest ih => exact hvisit.cursor_lt.2.le.trans ih

/-- **The walk is a run of visits**, and its fuel is enough: it goes on as long as the run. -/
theorem walk_visits (ctx : WalkContext) : ∀ fuel : Nat,
    (∀ st : WalkState F, st.buf.maxBit = st.buf.data.length * 8 → st.cursor < ctx.tree.length →
      2 * (ctx.tree.length - st.cursor) ≤ fuel →
        Visits ctx st (walkLog ctx fuel st) (walk ctx fuel st).1 (walk ctx fuel st).2
          ∧ st.cursor < (walk ctx fuel st).2.cursor)
    ∧ ∀ (depth : UInt8) (st : WalkState F), st.buf.maxBit = st.buf.data.length * 8 →
      2 * (ctx.tree.length - st.cursor) + 1 ≤ fuel →
        Visits ctx st (walkChildrenLog ctx fuel depth st) (walkChildren ctx fuel depth st).1
            (walkChildren ctx fuel depth st).2
          ∧ ((walkChildren ctx fuel depth st).1 = true →
            ∀ child ∈ ctx.tree[(walkChildren ctx fuel depth st).2.cursor]?, ¬ child.depth > depth) := by
  intro fuel
  induction fuel with
  | zero =>
      refine ⟨?_, ?_⟩
      · intro st _ hlt hfuel
        omega
      · intro depth st _ hfuel
        omega
  | succ fuel ih =>
      obtain ⟨ihWalk, ihChildren⟩ := ih
      constructor
      · intro st hsize hlt hfuel
        obtain ⟨node, hnode⟩ : ∃ node, ctx.tree[st.cursor]? = some node :=
          ⟨_, List.getElem?_eq_getElem hlt⟩
        rcases hr : shouldRead node.ids ctx.syncType ctx.objType st.buf with ⟨read, buf⟩
        have hbuf : buf.maxBit = buf.data.length * 8 := by
          have hread := sameData_shouldRead ctx node st.buf
          rw [hr] at hread
          rw [hread.bound, hread.data]
          exact hsize
        rw [walk_step hnode hr, walkLog_step hnode hr]
        rcases hkind : node.kind with _ | ⟨name, maxBytes⟩
        · cases read with
          | true =>
              have hrun := (ihChildren node.depth ⟨st.cursor + 1, buf, st.out⟩ hbuf
                (by simp only; omega)).1
              simp only [if_true]
              exact ⟨.more (.enter hnode hkind hr) hrun, hrun.cursor_le⟩
          | false =>
              have hskip := Visit.skip hnode hkind hr
              exact ⟨.more hskip (.done _), hskip.cursor_lt.2⟩
        · cases read with
          | true =>
              have hleaf := walkLeaf_eq ctx st.cursor name ⟨st.cursor + 1, buf, st.out⟩ hbuf
              simp only [if_true, hleaf, leafLog]
              rcases hframe : frame buf with _ | body
              · rw [List.append_nil]
                exact ⟨.stop (.broken hnode hkind hr hframe), Nat.lt_succ_self _⟩
              · rw [← List.append_nil (flagLog _ _ _ _ ++ _)]
                exact ⟨.more (.leaf hnode hkind hr hframe) (.done _), Nat.lt_succ_self _⟩
          | false => exact ⟨.more (.pass hnode hkind hr) (.done _), Nat.lt_succ_self _⟩
      · intro depth st hsize hfuel
        by_cases hend : ∀ child ∈ ctx.tree[st.cursor]?, ¬ child.depth > depth
        · obtain ⟨hwalk, hlog⟩ := walkChildren_end fuel hend
          rw [hwalk, hlog]
          exact ⟨.done st, fun _ => hend⟩
        · push Not at hend
          obtain ⟨child, hnode, hdeep⟩ := hend
          have hlt : st.cursor < ctx.tree.length := (List.getElem?_eq_some_iff.mp hnode).1
          obtain ⟨hfirst, hmove⟩ := ihWalk st hsize hlt (by omega)
          have hsame := hfirst.sameData
          rw [walkChildren_step hnode hdeep, walkChildrenLog_step hnode hdeep]
          rcases hwalk : walk ctx fuel st with ⟨_ | _, mid⟩
          · rw [hwalk] at hfirst
            simp only [List.append_nil]
            exact ⟨hfirst, fun hno => absurd hno (by simp)⟩
          · rw [hwalk] at hfirst hmove hsame
            simp only at hmove hsame ⊢
            obtain ⟨hrest, hstop⟩ := ihChildren depth mid
              (by rw [hsame.bound, hsame.data]; exact hsize) (by omega)
            exact ⟨hfirst.append hrest, hstop⟩

end SyncParse

open SyncParse SyncWrite

/-- The state the walk of a record starts from. -/
def startState (F : Type) [Scalar F] (isCreate : Bool) (data : List UInt8) (lengthHack : Bool) :
    WalkState F :=
  ⟨0, (startOf isCreate data lengthHack).2.2, {}⟩

/-- Behind the root only the end of the tree is not below it. -/
theorem Rooted.end_of_shallow {tree : List FlatNode} (htree : Rooted tree) {root : FlatNode}
    (hroot : tree[0]? = some root) {k : Nat} (hk : 0 < k)
    (hshallow : ∀ child ∈ tree[k]?, ¬ child.depth > root.depth) : tree.length ≤ k := by
  by_contra hlt
  have hnode := List.getElem?_eq_getElem (show k < tree.length by omega)
  have hdeep := htree.below k hk (by omega)
  have hnot := hshallow _ hnode
  have hzero := htree.root
  rw [depthAt_eq hroot] at hzero
  rw [depthAt_eq hnode] at hdeep
  rw [gt_iff_lt, UInt8.lt_iff_toNat_lt] at hnot
  omega

/-- A walk from the root that did not break off has passed the whole tree. -/
theorem walk_root {F : Type} [Scalar F] {ctx : WalkContext} (htree : Rooted ctx.tree) {fuel : Nat}
    (hfuel : walkFuel ctx.tree ≤ fuel) {st : WalkState F}
    (hsize : st.buf.maxBit = st.buf.data.length * 8) (hstart : st.cursor = 0)
    (hok : (walk ctx fuel st).1 = true) : ctx.tree.length ≤ (walk ctx fuel st).2.cursor := by
  have hpos := htree.nonempty
  unfold walkFuel at hfuel
  obtain ⟨fuel, rfl⟩ : ∃ n, fuel = n + 1 := ⟨fuel - 1, by omega⟩
  have hlt : st.cursor < ctx.tree.length := by omega
  obtain ⟨root, hroot⟩ : ∃ root, ctx.tree[st.cursor]? = some root :=
    ⟨_, List.getElem?_eq_getElem hlt⟩
  have hroot0 : ctx.tree[0]? = some root := by
    rw [← hstart]
    exact hroot
  have hpast : ∀ k, 0 < k → depthAt ctx.tree k ≤ root.depth.toNat → ctx.tree.length ≤ k := by
    intro k hk hle
    apply htree.end_of_shallow hroot0 hk
    intro child hchild
    rw [depthAt_eq hchild] at hle
    rw [gt_iff_lt, UInt8.lt_iff_toNat_lt]
    omega
  obtain ⟨hsub, hmost⟩ := skipSubtree_subtree ctx.tree (st.cursor + 1) root.depth (by omega)
  have hskip : ctx.tree.length ≤ skipSubtree ctx.tree (st.cursor + 1) root.depth := by
    by_contra hshort
    have hle := hsub.le
    exact absurd (hpast _ (by omega) (hsub.stops (by omega))) (by omega)
  rcases hr : shouldRead root.ids ctx.syncType ctx.objType st.buf with ⟨read, buf⟩
  have hbuf : buf.maxBit = buf.data.length * 8 := by
    have hread := sameData_shouldRead ctx root st.buf
    rw [hr] at hread
    rw [hread.bound, hread.data]
    exact hsize
  rw [walk_step hroot hr] at hok ⊢
  rcases hkind : root.kind with _ | ⟨name, maxBytes⟩
  · cases read with
    | true =>
        simp only [hkind, if_true] at hok ⊢
        obtain ⟨hrun, hstop⟩ := (walk_visits ctx fuel).2 root.depth ⟨st.cursor + 1, buf, st.out⟩ hbuf
          (by simp only; omega)
        have hmove := hrun.cursor_le
        exact htree.end_of_shallow hroot0 (by simp only at hmove; omega) (hstop hok)
    | false => exact hskip
  · have hleaf := htree.leaves st.cursor root hroot (by rw [hkind]; simp)
    cases read with
    | true =>
        simp only [hkind, if_true] at hok ⊢
        rw [walkLeaf_eq ctx 0 name ⟨st.cursor + 1, buf, st.out⟩ hbuf] at hok ⊢
        rcases hframe : frame buf with _ | body
        · simp only [hframe] at hok
          exact absurd hok (by simp)
        · simp only
          omega
    | false =>
        simp only [Bool.false_eq_true, if_false]
        omega

/-- **A record is one run of visits**, to its end. -/
theorem parse_visits (F : Type) [Scalar F] (entityType : NetObjEntityType) (isCreate : Bool)
    (data : List UInt8) (lengthHack : Bool) (build : GameBuild) :
    ∃ going st, Visits (walkContext entityType isCreate data lengthHack build)
        (startState F isCreate data lengthHack)
        (parseLog F entityType isCreate data lengthHack build) going st
      ∧ Ended (walkContext entityType isCreate data lengthHack build) going st := by
  have htree := rooted_treeFor entityType
  have hpos := htree.nonempty
  have hsize : (startState F isCreate data lengthHack).buf.maxBit
      = (startState F isCreate data lengthHack).buf.data.length * 8 := by
    cases isCreate with
    | true => rfl
    | false => rfl
  obtain ⟨hrun, -⟩ := (walk_visits (walkContext entityType isCreate data lengthHack build)
    (walkFuel (treeFor entityType))).1 (startState F isCreate data lengthHack) hsize hpos
      (by unfold walkFuel; exact Nat.le_succ _)
  refine ⟨_, _, hrun, ?_⟩
  cases hok : (walk (walkContext entityType isCreate data lengthHack build)
      (walkFuel (treeFor entityType)) (startState F isCreate data lengthHack)).1 with
  | false => exact .inl rfl
  | true => exact .inr (walk_root htree (Nat.le_refl _) hsize rfl hok)

end Baston.Rage
