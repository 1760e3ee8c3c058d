/-
What one tick does about one entity.

A tick runs over all entities at once.  The spatial grid visits every entity at most
once: a cell lists the indices of the entities in it, the nine cells of a block are
different, and an entity is in one cell; so no index comes up twice, and in a world
with distinct ids no id does.

So what a tick does about one id can be said alone: whether the entity is relevant,
what the plan says about the id, and what becomes of its view entry.  `tick_effect`
lists the seven possibilities, and whatever holds of ticks is proved from it.
-/
import Mathlib.Algebra.GroupWithZero.Nat
import Mathlib.Data.Finset.Sigma
import Baston.Zone.InterestNg

namespace Baston.Zone

open Assoc Baston.Rage

variable {F : Type}

namespace SpatialIndex

variable [Scalar F]

/-- A cell of a built index lists the entities in it. -/
theorem lookup_build (world : List (EntitySnapshot F)) (radius : F) (c : Int32 × Int32) :
    ((build world radius).cells.lookup c).getD []
      = (((world.take maxEntries).zipIdx).filter fun entry =>
          cellOf entry.1.position (build world radius).cellSize = c).map (·.2) := by
  have h := Map.lookup_group (fun entry : EntitySnapshot F × Nat =>
    cellOf entry.1.position (Scalar.max radius 1.0)) (fun entry => entry.2) c
    (world.take maxEntries).zipIdx ∅
  rw [AList.lookup_empty, Option.getD_none, List.nil_append] at h
  exact h

/-- An index a cell lists names an entity of that cell. -/
theorem mem_cell {world : List (EntitySnapshot F)} {radius : F} {c : Int32 × Int32} {i : Nat}
    (h : i ∈ ((build world radius).cells.lookup c).getD []) :
    ∃ e, world[i]? = some e ∧ cellOf e.position (build world radius).cellSize = c := by
  rw [lookup_build] at h
  obtain ⟨⟨e, k⟩, hmem, rfl⟩ := List.mem_map.mp h
  obtain ⟨hzip, hcell⟩ := List.mem_filter.mp hmem
  refine ⟨e, ?_, by simpa using hcell⟩
  have hget := List.mem_zipIdx_iff_getElem?.mp hzip
  rw [List.getElem?_take] at hget
  split at hget
  · exact hget
  · exact absurd hget (by simp)

theorem nodup_cell (world : List (EntitySnapshot F)) (radius : F) (c : Int32 × Int32) :
    (((build world radius).cells.lookup c).getD []).Nodup := by
  rw [lookup_build]
  have hnodup : ((world.take maxEntries).zipIdx.map (·.2)).Nodup := by
    rw [List.zipIdx_map_snd]
    exact List.nodup_range'
  exact hnodup.sublist (List.filter_sublist.map _)

theorem block_nodup : block.Nodup := by decide

/-- **No index is visited twice.** -/
theorem nodup_near (world : List (EntitySnapshot F)) (radius : F) (focus : Vec3 F) :
    ((build world radius).near focus).Nodup := by
  unfold near
  simp only
  rw [List.nodup_flatMap]
  refine ⟨fun d _ => nodup_cell world radius _, ?_⟩
  refine block_nodup.imp ?_
  intro d d' hne
  rw [Function.onFun, List.disjoint_iff_ne]
  rintro i hi j hj rfl
  -- the same entity would lie in two cells
  obtain ⟨e, he, hc⟩ := mem_cell hi
  obtain ⟨e', he', hc'⟩ := mem_cell hj
  rw [he] at he'
  rw [← Option.some.inj he', hc] at hc'
  obtain ⟨hx, hy⟩ := Prod.mk.inj hc'
  exact hne (Prod.ext (Int32.add_right_inj _ |>.mp hx) (Int32.add_right_inj _ |>.mp hy))

end SpatialIndex

namespace ClientView

variable [Scalar F]

/-- The tick looks at a world with distinct ids, through an index built over it. -/
structure WellPosed (ctx : TickContext F) : Prop where
  index : ∃ radius, ctx.index = SpatialIndex.build ctx.world radius
  distinct : (ctx.world.map (·.objectId)).Nodup

theorem mem_world_of_mem_nearby {ctx : TickContext F} {e : EntitySnapshot F}
    (h : e ∈ nearby ctx) : e ∈ ctx.world := by
  obtain ⟨i, -, hi⟩ := List.mem_filterMap.mp h
  exact List.mem_of_getElem? hi

/-- No id comes up twice in a tick. -/
theorem nodup_nearby {ctx : TickContext F} (h : WellPosed ctx) :
    ((nearby ctx).map (·.objectId)).Nodup := by
  obtain ⟨radius, hindex⟩ := h.index
  unfold nearby
  rw [List.map_filterMap, hindex]
  refine (SpatialIndex.nodup_near ctx.world radius ctx.focus).filterMap ?_
  intro i j id hi hj
  obtain ⟨e, he, rfl⟩ := Option.map_eq_some_iff.mp hi
  obtain ⟨e', he', heq⟩ := Option.map_eq_some_iff.mp hj
  have hi' : (ctx.world.map (·.objectId))[i]? = some e.objectId := by
    rw [List.getElem?_map, he]
    rfl
  have hj' : (ctx.world.map (·.objectId))[j]? = some e.objectId := by
    rw [List.getElem?_map, he', ← heq]
    rfl
  have hlt := (List.getElem?_eq_some_iff.mp hi').1
  exact (List.getElem?_inj hlt h.distinct).mp (hi'.trans hj'.symm)

end ClientView

/-- What a plan says about one id. -/
inductive Action
  | create
  | sync
  | remove (uniqifier : UInt16)
  deriving DecidableEq

/-- Everything a plan says about `id`, in the order it is written. -/
def TickPlan.about (plan : TickPlan) (id : UInt16) : List Action :=
  (plan.creates.filter (· = id)).map (fun _ => .create)
    ++ (plan.syncs.filter (· = id)).map (fun _ => .sync)
    ++ (plan.removes.filter (·.1 = id)).map (fun r => .remove r.2)

/-! ### Lists with distinct keys -/

theorem filter_key_of_mem {α β : Type} [DecidableEq β] {f : α → β} : ∀ {l : List α} {a : α},
    (l.map f).Nodup → a ∈ l → l.filter (fun x => f x = f a) = [a] := by
  intro l
  induction l with
  | nil =>
      intro a _ ha
      exact absurd ha List.not_mem_nil
  | cons b rest ih =>
      intro a hnodup ha
      rw [List.map_cons, List.nodup_cons] at hnodup
      have hrest : ∀ x, f x = f b → x ∉ rest := fun x hx hmem =>
        hnodup.1 (List.mem_map.mpr ⟨x, hmem, hx⟩)
      rcases List.mem_cons.mp ha with rfl | ha
      · rw [List.filter_cons_of_pos (by simp)]
        congr 1
        rw [List.filter_eq_nil_iff]
        intro x hx hfx
        exact hrest x (by simpa using hfx) hx
      · have hne : f b ≠ f a := fun heq => hrest a heq.symm ha
        rw [List.filter_cons_of_neg (by simpa using hne)]
        exact ih hnodup.2 ha

theorem find?_key_of_mem {α β : Type} [DecidableEq β] {f : α → β} {l : List α} {a : α}
    (hnodup : (l.map f).Nodup) (ha : a ∈ l) : l.find? (fun x => f x = f a) = some a := by
  rw [← List.head?_filter, filter_key_of_mem hnodup ha]
  rfl

namespace ClientView

variable [Scalar F]

/-! ### Relevance and candidates -/

/-- The entities that are relevant this tick. -/
def relevantList (view : ClientView F) (ctx : TickContext F) : List (EntitySnapshot F) :=
  (nearby ctx).filter fun e =>
    !suppressed view.netId ctx (view.views.lookup e.objectId).isSome e

/-- The relevant entity under an id. -/
def relevant (view : ClientView F) (ctx : TickContext F) (id : UInt16) :
    Option (EntitySnapshot F) :=
  (view.relevantList ctx).find? fun e => e.objectId = id

/-- The budget covers everything relevant. -/
def EnoughBudget (view : ClientView F) (ctx : TickContext F) : Prop :=
  ((view.relevantList ctx).map cost).sum ≤ ctx.cfg.budgetBytes

/-- The candidate an entity becomes. -/
def candidate (views : Map UInt16 (EntityView F)) (ctx : TickContext F)
    (e : EntitySnapshot F) : Candidate F :=
  ⟨e.objectId, (refreshed ctx e (views.lookup e.objectId)).priority, e⟩

/-- The visit of the block, entity by entity. -/
theorem foldl_observe (netId : UInt16) (ctx : TickContext F) :
    ∀ (l : List (EntitySnapshot F)) (views : Map UInt16 (EntityView F))
      (cs : List (Candidate F)), (l.map (·.objectId)).Nodup →
      (∀ id, (l.foldl (observe netId ctx) (views, cs)).1.lookup id
        = match (l.filter fun e =>
              !suppressed netId ctx (views.lookup e.objectId).isSome e).find?
              (fun e => e.objectId = id) with
          | some e => some (refreshed ctx e (views.lookup id))
          | none => views.lookup id) ∧
      (l.foldl (observe netId ctx) (views, cs)).2
        = cs ++ (l.filter fun e =>
            !suppressed netId ctx (views.lookup e.objectId).isSome e).map
            (candidate views ctx) := by
  intro l
  induction l with
  | nil =>
      intro views cs _
      simp
  | cons e rest ih =>
      intro views cs hnodup
      rw [List.map_cons, List.nodup_cons] at hnodup
      rw [List.foldl_cons]
      cases hs : suppressed netId ctx (views.lookup e.objectId).isSome e with
      | true =>
          have hstep : observe netId ctx (views, cs) e = (views, cs) := by
            simp [observe, hs]
          rw [hstep, List.filter_cons_of_neg (by simp [hs])]
          exact ih views cs hnodup.2
      | false =>
          -- the entities after this one have other ids, so the insertion is not seen by them
          let views' := views.insert e.objectId (refreshed ctx e (views.lookup e.objectId))
          have hstep : observe netId ctx (views, cs) e
              = (views', cs ++ [candidate views ctx e]) := by
            simp [observe, hs, views', candidate]
          have hkeep : ∀ e' ∈ rest, views'.lookup e'.objectId = views.lookup e'.objectId := by
            intro e' he'
            apply AList.lookup_insert_ne
            intro heq
            exact hnodup.1 (List.mem_map.mpr ⟨e', he', heq⟩)
          have hfilter : (rest.filter fun e =>
                !suppressed netId ctx (views'.lookup e.objectId).isSome e)
              = rest.filter fun e =>
                !suppressed netId ctx (views.lookup e.objectId).isSome e := by
            apply List.filter_congr
            intro e' he'
            rw [hkeep e' he']
          obtain ⟨h1, h2⟩ := ih views' (cs ++ [candidate views ctx e]) hnodup.2
          rw [hfilter] at h1 h2
          rw [hstep, List.filter_cons_of_pos (by simp [hs])]
          refine ⟨fun id => ?_, ?_⟩
          · rw [h1 id]
            by_cases hid : e.objectId = id
            · subst hid
              have hnone : (rest.filter fun e =>
                  !suppressed netId ctx (views.lookup e.objectId).isSome e).find?
                  (fun e' => e'.objectId = e.objectId) = none := by
                rw [List.find?_eq_none]
                intro e' he' heq
                exact hnodup.1 (List.mem_map.mpr
                  ⟨e', (List.mem_filter.mp he').1, by simpa using heq⟩)
              rw [hnone, List.find?_cons_of_pos (by simp)]
              exact AList.lookup_insert _
            · rw [List.find?_cons_of_neg (by simpa using hid)]
              have hlook : views'.lookup id = views.lookup id :=
                AList.lookup_insert_ne (fun h => hid h.symm)
              rw [hlook]
          · rw [h2, List.map_cons, List.append_assoc, List.singleton_append]
            congr 2
            apply List.map_congr_left
            intro e' he'
            unfold candidate
            rw [hkeep e' (List.mem_filter.mp he').1]

/-- The view of an entry that is not seen this tick. -/
def unseen (v : EntityView F) : EntityView F := { v with seenThisTick := false }

omit [Scalar F] in
theorem lookup_reset (views : Map UInt16 (EntityView F)) (id : UInt16) :
    (views.mapVals fun _ v => { v with seenThisTick := false }).lookup id
      = (views.lookup id).map unseen := Map.lookup_mapVals _ _ _

theorem refreshed_unseen (ctx : TickContext F) (e : EntitySnapshot F)
    (o : Option (EntityView F)) : refreshed ctx e (o.map unseen) = refreshed ctx e o := by
  cases o <;> rfl

/-- **Marking**, id by id: a relevant entity is refreshed, any other entry is unseen. -/
theorem mark_spec (view : ClientView F) {ctx : TickContext F} (h : WellPosed ctx) :
    (∀ id, (view.mark ctx).1.lookup id
      = match view.relevant ctx id with
        | some e => some (refreshed ctx e (view.views.lookup id))
        | none => (view.views.lookup id).map unseen) ∧
    (view.mark ctx).2 = (view.relevantList ctx).map (candidate view.views ctx) := by
  obtain ⟨h1, h2⟩ := foldl_observe view.netId ctx (nearby ctx)
    (view.views.mapVals fun _ v => { v with seenThisTick := false }) [] (nodup_nearby h)
  have hfilter : ((nearby ctx).filter fun e => !suppressed view.netId ctx
        ((view.views.mapVals fun _ v => { v with seenThisTick := false }).lookup
          e.objectId).isSome e) = view.relevantList ctx := by
    unfold relevantList
    apply List.filter_congr
    intro e _
    rw [lookup_reset, Option.isSome_map]
  rw [hfilter] at h1 h2
  refine ⟨fun id => ?_, ?_⟩
  · unfold mark
    rw [h1 id, lookup_reset]
    unfold relevant
    cases (view.relevantList ctx).find? (fun e => decide (e.objectId = id)) with
    | none => rfl
    | some e => simp only [refreshed_unseen]
  · unfold mark
    rw [h2, List.nil_append]
    apply List.map_congr_left
    intro e _
    unfold candidate
    rw [lookup_reset, refreshed_unseen]

theorem nodup_relevantList (view : ClientView F) {ctx : TickContext F} (h : WellPosed ctx) :
    ((view.relevantList ctx).map (·.objectId)).Nodup :=
  (nodup_nearby h).sublist (List.filter_sublist.map _)

/-- The relevant entity under an id is listed and has that id. -/
theorem relevant_eq_some {view : ClientView F} {ctx : TickContext F} {id : UInt16}
    {e : EntitySnapshot F} (h : view.relevant ctx id = some e) :
    e ∈ view.relevantList ctx ∧ e.objectId = id := by
  unfold relevant at h
  exact ⟨List.mem_of_find?_eq_some h, by simpa using List.find?_some h⟩

theorem relevant_of_mem {view : ClientView F} {ctx : TickContext F} (h : WellPosed ctx)
    {e : EntitySnapshot F} (he : e ∈ view.relevantList ctx) :
    view.relevant ctx e.objectId = some e :=
  find?_key_of_mem (view.nodup_relevantList h) he

/-! ### Scope exits -/

omit [Scalar F] in
theorem mem_exited {views : Map UInt16 (EntityView F)} {id u : UInt16} :
    (id, u) ∈ exited views ↔
      ∃ v, views.lookup id = some v ∧ v.seenThisTick = false ∧ v.uniqifier = u := by
  unfold exited
  rw [List.mem_insertionSort, List.mem_map]
  constructor
  · rintro ⟨⟨k, v⟩, hmem, heq⟩
    obtain ⟨rfl, rfl⟩ := Prod.mk.inj heq
    obtain ⟨hentry, hseen⟩ := List.mem_filter.mp hmem
    exact ⟨v, AList.mem_lookup_iff.mpr hentry, by simpa using hseen, rfl⟩
  · rintro ⟨v, hv, hseen, rfl⟩
    exact ⟨⟨id, v⟩, List.mem_filter.mpr ⟨AList.mem_lookup_iff.mp hv, by simpa using hseen⟩, rfl⟩

omit [Scalar F] in
theorem nodup_exited (views : Map UInt16 (EntityView F)) :
    ((exited views).map (·.1)).Nodup := by
  unfold exited
  have hperm := List.perm_insertionSort (fun a b : UInt16 × UInt16 => a.1 ≤ b.1)
    ((views.entries.filter fun kv => !kv.2.seenThisTick).map fun kv => (kv.1, kv.2.uniqifier))
  refine ((hperm.map Prod.fst).nodup_iff).mpr ?_
  rw [List.map_map]
  have hkeys : (views.entries.filter fun kv => !kv.2.seenThisTick).NodupKeys :=
    views.nodupKeys.sublist List.filter_sublist
  exact hkeys

theorem nodup_leaving (view : ClientView F) (ctx : TickContext F) :
    ((view.leaving ctx).map (·.1)).Nodup :=
  (nodup_exited _).sublist ((List.take_sublist _ _).map _)

/-- Only entries of entities that are not relevant leave, with the uniqifier they had. -/
theorem mem_leaving {view : ClientView F} {ctx : TickContext F} (h : WellPosed ctx)
    {id u : UInt16} (hmem : (id, u) ∈ view.leaving ctx) :
    view.relevant ctx id = none ∧ ∃ v, view.views.lookup id = some v ∧ v.uniqifier = u := by
  obtain ⟨v, hv, hseen, rfl⟩ := mem_exited.mp (List.mem_of_mem_take hmem)
  rw [(view.mark_spec h).1 id] at hv
  cases hr : view.relevant ctx id with
  | some e =>
      rw [hr] at hv
      rw [← Option.some.inj hv] at hseen
      exact absurd hseen (by simp [refreshed])
  | none =>
      rw [hr] at hv
      obtain ⟨v0, hv0, rfl⟩ := Option.map_eq_some_iff.mp hv
      exact ⟨rfl, v0, hv0, rfl⟩

/-- An entry that is out of scope leaves when the remove budget covers all that are. -/
theorem leaving_of_budget {view : ClientView F} {ctx : TickContext F} (h : WellPosed ctx)
    {id : UInt16} {v : EntityView F} (hv : view.views.lookup id = some v)
    (hr : view.relevant ctx id = none)
    (hbudget : (exited (view.mark ctx).1).length ≤ maxRemoves ctx.cfg) :
    (id, v.uniqifier) ∈ view.leaving ctx := by
  unfold leaving
  rw [List.take_of_length_le hbudget]
  refine mem_exited.mpr ⟨unseen v, ?_, rfl, rfl⟩
  rw [(view.mark_spec h).1 id, hr, hv]
  rfl

omit [Scalar F] in
theorem lookup_foldl_erase : ∀ (l : List (UInt16 × UInt16)) (views : Map UInt16 (EntityView F))
    (id : UInt16), (l.foldl (fun views r => views.erase r.1) views).lookup id
      = if id ∈ l.map (·.1) then none else views.lookup id := by
  intro l
  induction l with
  | nil =>
      intro views id
      simp
  | cons r rest ih =>
      intro views id
      rw [List.foldl_cons, ih, Map.lookup_erase_of]
      simp only [List.map_cons, List.mem_cons]
      by_cases h : id = r.1
      · simp [h]
      · simp only [h, if_false, false_or]

/-! ### Filling the budget -/

/-- What a fill holds about one id. -/
structure SameAt (id : UInt16) (a b : Fill F) : Prop where
  view : a.views.lookup id = b.views.lookup id
  plan : a.plan.about id = b.plan.about id

/-- A candidate touches its own id alone, and the fill only grows. -/
theorem send_other (cfg : InterestConfig F) (fill : Fill F) (c : Candidate F) :
    (∀ id, c.objectId ≠ id → SameAt id (send cfg fill c) fill) ∧
      (send cfg fill c).spent ≤ fill.spent + cost c.entity := by
  unfold send
  split
  · exact ⟨fun id _ => ⟨rfl, rfl⟩, by omega⟩
  · split
    · exact ⟨fun id _ => ⟨rfl, rfl⟩, by omega⟩
    · simp only
      split
      · refine ⟨fun id hid => ⟨AList.lookup_insert_ne (fun h => hid h.symm), ?_⟩, le_rfl⟩
        simp [TickPlan.about, List.filter_append, hid]
      · split
        · refine ⟨fun id hid => ⟨AList.lookup_insert_ne (fun h => hid h.symm), ?_⟩, le_rfl⟩
          simp [TickPlan.about, List.filter_append, hid]
        · exact ⟨fun id _ => ⟨rfl, rfl⟩, by omega⟩

theorem foldl_send_other (cfg : InterestConfig F) {id : UInt16} :
    ∀ (l : List (Candidate F)) (fill : Fill F), (∀ c ∈ l, c.objectId ≠ id) →
      SameAt id (l.foldl (send cfg) fill) fill := by
  intro l
  induction l with
  | nil =>
      intro fill _
      exact ⟨rfl, rfl⟩
  | cons c rest ih =>
      intro fill hne
      have hrest := ih (send cfg fill c) fun c' hc' => hne c' (List.mem_cons_of_mem _ hc')
      have hhead := (send_other cfg fill c).1 id (hne c List.mem_cons_self)
      exact ⟨hrest.view.trans hhead.view, hrest.plan.trans hhead.plan⟩

/-- What the fill does about a candidate, it does in the candidate's own turn. -/
theorem foldl_send_at (cfg : InterestConfig F) {c : Candidate F} :
    ∀ (l : List (Candidate F)) (fill : Fill F), (l.map (·.objectId)).Nodup → c ∈ l →
      ∃ mid : Fill F, SameAt c.objectId mid fill ∧
        mid.spent + cost c.entity ≤ fill.spent + (l.map fun c => cost c.entity).sum ∧
        SameAt c.objectId (l.foldl (send cfg) fill) (send cfg mid c) := by
  intro l
  induction l with
  | nil =>
      intro fill _ hc
      exact absurd hc List.not_mem_nil
  | cons a rest ih =>
      intro fill hnodup hc
      rw [List.map_cons, List.nodup_cons] at hnodup
      rw [List.map_cons, List.sum_cons, List.foldl_cons]
      rcases List.mem_cons.mp hc with rfl | hc
      · refine ⟨fill, ⟨rfl, rfl⟩, by omega, foldl_send_other cfg rest _ ?_⟩
        intro c' hc' heq
        exact hnodup.1 (List.mem_map.mpr ⟨c', hc', heq⟩)
      · obtain ⟨hother, hspent⟩ := send_other cfg fill a
        have hne : a.objectId ≠ c.objectId := fun heq =>
          hnodup.1 (List.mem_map.mpr ⟨c, hc, heq.symm⟩)
        obtain ⟨mid, hmid, hcost, hres⟩ := ih (send cfg fill a) hnodup.2 hc
        have hhead := hother c.objectId hne
        exact ⟨mid, ⟨hmid.view.trans hhead.view, hmid.plan.trans hhead.plan⟩, by omega, hres⟩

/-! ### One tick, one id -/

/-- The entry of an entity that was just sent. -/
def sentView (v : EntityView F) (e : EntitySnapshot F) : EntityView F :=
  { v with created := true, baseFrame := e.frameIndex, priority := 0.0 }

/-- What a tick can do about an id: from its entry and the relevant entity, what the plan
says and the entry after. -/
inductive TickEffect (view : ClientView F) (ctx : TickContext F) (id : UInt16) :
    Option (EntityView F) → Option (EntitySnapshot F) → List Action →
      Option (EntityView F) → Prop
  | outside : TickEffect view ctx id none none [] none
  /-- Out of scope, and within the remove budget. -/
  | exits {v : EntityView F} (reached : (id, v.uniqifier) ∈ view.leaving ctx) :
      TickEffect view ctx id (some v) none [.remove v.uniqifier] none
  /-- Out of scope, and beyond the remove budget. -/
  | lingers {v : EntityView F}
      (beyond : maxRemoves ctx.cfg < (exited (view.mark ctx).1).length) :
      TickEffect view ctx id (some v) none [] (some (unseen v))
  | creates {before : Option (EntityView F)} {e : EntitySnapshot F}
      (fresh : (refreshed ctx e before).created = false) :
      TickEffect view ctx id before (some e) [.create]
        (some (sentView (refreshed ctx e before) e))
  | syncs {before : Option (EntityView F)} {e : EntitySnapshot F}
      (known : (refreshed ctx e before).created = true)
      (newer : (refreshed ctx e before).baseFrame < e.frameIndex) :
      TickEffect view ctx id before (some e) [.sync]
        (some (sentView (refreshed ctx e before) e))
  /-- Over budget. -/
  | waits {before : Option (EntityView F)} {e : EntitySnapshot F}
      (spent : ¬ view.EnoughBudget ctx) :
      TickEffect view ctx id before (some e) [] (some (refreshed ctx e before))
  /-- Nothing new to send. -/
  | idles {before : Option (EntityView F)} {e : EntitySnapshot F}
      (known : (refreshed ctx e before).created = true)
      (current : ¬ (refreshed ctx e before).baseFrame < e.frameIndex) :
      TickEffect view ctx id before (some e) [] (some (refreshed ctx e before))

/-- What the turn of one candidate does about its id. -/
theorem send_self (cfg : InterestConfig F) {fill : Fill F} {c : Candidate F}
    {v : EntityView F} (hv : fill.views.lookup c.objectId = some v)
    (habout : fill.plan.about c.objectId = []) :
    (fill.spent > 0 ∧ fill.spent + cost c.entity > cfg.budgetBytes ∧
        SameAt c.objectId (send cfg fill c) fill) ∨
      (v.created = false ∧
        (send cfg fill c).views.lookup c.objectId = some (sentView v c.entity) ∧
        (send cfg fill c).plan.about c.objectId = [.create]) ∨
      (v.created = true ∧ v.baseFrame < c.entity.frameIndex ∧
        (send cfg fill c).views.lookup c.objectId = some (sentView v c.entity) ∧
        (send cfg fill c).plan.about c.objectId = [.sync]) ∨
      (v.created = true ∧ ¬ v.baseFrame < c.entity.frameIndex ∧
        SameAt c.objectId (send cfg fill c) fill) := by
  have hempty : fill.plan.creates.filter (· = c.objectId) = [] ∧
      fill.plan.syncs.filter (· = c.objectId) = [] ∧
      fill.plan.removes.filter (·.1 = c.objectId) = [] := by
    unfold TickPlan.about at habout
    simp only [List.append_eq_nil_iff, List.map_eq_nil_iff] at habout
    exact ⟨habout.1.1, habout.1.2, habout.2⟩
  unfold send
  split
  · rename_i hover
    exact .inl ⟨hover.1, hover.2, rfl, rfl⟩
  · rw [hv]
    simp only
    cases hc : v.created with
    | false =>
        refine .inr (.inl ⟨rfl, ?_, ?_⟩)
        · simp only [Bool.not_false, if_true]
          exact AList.lookup_insert _
        · simp only [Bool.not_false, if_true, TickPlan.about, List.filter_append, hempty]
          simp
    | true =>
        simp only [Bool.not_true, Bool.false_eq_true, if_false]
        split
        · rename_i hnew
          refine .inr (.inr (.inl ⟨trivial, hnew, AList.lookup_insert _, ?_⟩))
          simp only [TickPlan.about, List.filter_append, hempty]
          simp
        · rename_i hold
          exact .inr (.inr (.inr ⟨trivial, hold, rfl, rfl⟩))

/-- The fill a tick starts from: the views without those that leave, and the removes. -/
def startFill (view : ClientView F) (ctx : TickContext F) : Fill F :=
  ⟨(view.leaving ctx).foldl (fun views r => views.erase r.1) (view.mark ctx).1,
    { removes := view.leaving ctx }, 0⟩

/-- The candidates in the order they are sent. -/
def sendOrder (view : ClientView F) (ctx : TickContext F) : List (Candidate F) :=
  (view.mark ctx).2.insertionSort fun a b => sendsBefore a b

theorem tickWithContext_eq (view : ClientView F) (ctx : TickContext F) :
    view.tickWithContext ctx
      = ({ view with views :=
            ((view.sendOrder ctx).foldl (send ctx.cfg) (view.startFill ctx)).views },
          ((view.sendOrder ctx).foldl (send ctx.cfg) (view.startFill ctx)).plan) := rfl

/-- Before anything is sent, the plan holds the removes alone. -/
theorem startFill_about (view : ClientView F) (ctx : TickContext F) (id : UInt16) :
    (view.startFill ctx).plan.about id
      = ((view.leaving ctx).filter (·.1 = id)).map fun r => .remove r.2 := by
  simp [startFill, TickPlan.about]

theorem sendOrder_perm (view : ClientView F) {ctx : TickContext F} (h : WellPosed ctx) :
    (view.sendOrder ctx).Perm ((view.relevantList ctx).map (candidate view.views ctx)) := by
  rw [← (view.mark_spec h).2]
  exact List.perm_insertionSort _ _

theorem candidate_ids (view : ClientView F) (ctx : TickContext F) :
    ((view.relevantList ctx).map (candidate view.views ctx)).map (·.objectId)
      = (view.relevantList ctx).map (·.objectId) := by
  rw [List.map_map]
  rfl

theorem candidate_costs (view : ClientView F) (ctx : TickContext F) :
    ((view.relevantList ctx).map (candidate view.views ctx)).map (fun c => cost c.entity)
      = (view.relevantList ctx).map cost := by
  rw [List.map_map]
  rfl

theorem nodup_sendOrder (view : ClientView F) {ctx : TickContext F} (h : WellPosed ctx) :
    ((view.sendOrder ctx).map (·.objectId)).Nodup := by
  rw [((view.sendOrder_perm h).map _).nodup_iff, candidate_ids]
  exact view.nodup_relevantList h

/-- What the fill starts from at the id of a relevant entity: its refreshed view, and no remove. -/
theorem startFill_relevant (view : ClientView F) {ctx : TickContext F} (h : WellPosed ctx)
    {e : EntitySnapshot F} (hr : view.relevant ctx e.objectId = some e) :
    (view.startFill ctx).views.lookup e.objectId
        = some (refreshed ctx e (view.views.lookup e.objectId))
      ∧ (view.startFill ctx).plan.about e.objectId = [] := by
  have hnot : ∀ r ∈ view.leaving ctx, r.1 ≠ e.objectId := by
    rintro ⟨k, u⟩ hleave rfl
    obtain ⟨hnone, -⟩ := mem_leaving h hleave
    rw [hr] at hnone
    exact absurd hnone (by simp)
  constructor
  · unfold startFill
    simp only
    rw [lookup_foldl_erase, if_neg, (view.mark_spec h).1, hr]
    intro hin
    obtain ⟨r, hleave, heq⟩ := List.mem_map.mp hin
    exact hnot r hleave heq
  · rw [startFill_about, List.map_eq_nil_iff, List.filter_eq_nil_iff]
    intro r hleave heq
    exact hnot r hleave (by simpa using heq)

/-- The tick about an id with no relevant entity. -/
theorem tick_irrelevant (view : ClientView F) {ctx : TickContext F} (h : WellPosed ctx)
    {id : UInt16} (hr : view.relevant ctx id = none) :
    TickEffect view ctx id (view.views.lookup id) none
      ((view.tickWithContext ctx).2.about id) ((view.tickWithContext ctx).1.views.lookup id) := by
  have hnone : ∀ c ∈ view.sendOrder ctx, c.objectId ≠ id := by
    intro c hc heq
    obtain ⟨e, he, rfl⟩ := List.mem_map.mp ((view.sendOrder_perm h).mem_iff.mp hc)
    have := relevant_of_mem h he
    rw [show e.objectId = id from heq, hr] at this
    exact absurd this (by simp)
  have hsame := foldl_send_other ctx.cfg (view.sendOrder ctx) (view.startFill ctx) hnone
  rw [tickWithContext_eq]
  simp only
  rw [hsame.view, hsame.plan, startFill_about]
  unfold startFill
  simp only
  rw [lookup_foldl_erase, (view.mark_spec h).1 id, hr]
  simp only
  cases hv : view.views.lookup id with
  | none =>
      have hnot : id ∉ (view.leaving ctx).map (·.1) := by
        intro hmem
        obtain ⟨⟨k, u⟩, hleave, rfl⟩ := List.mem_map.mp hmem
        obtain ⟨-, v, hv', -⟩ := mem_leaving h hleave
        rw [hv] at hv'
        exact absurd hv' (by simp)
      have hfilter : (view.leaving ctx).filter (·.1 = id) = [] := by
        rw [List.filter_eq_nil_iff]
        intro r hmem heq
        exact hnot (List.mem_map.mpr ⟨r, hmem, by simpa using heq⟩)
      rw [hfilter, if_neg hnot]
      exact .outside
  | some v =>
      by_cases hin : (id, v.uniqifier) ∈ view.leaving ctx
      · have hfilter : (view.leaving ctx).filter (·.1 = id) = [(id, v.uniqifier)] :=
          filter_key_of_mem (view.nodup_leaving ctx) hin
        rw [hfilter, if_pos (List.mem_map.mpr ⟨_, hin, rfl⟩)]
        exact .exits hin
      · have hnot : id ∉ (view.leaving ctx).map (·.1) := by
          intro hmem
          obtain ⟨⟨k, u⟩, hleave, rfl⟩ := List.mem_map.mp hmem
          obtain ⟨-, v', hv', rfl⟩ := mem_leaving h hleave
          rw [hv] at hv'
          rw [← Option.some.inj hv'] at hleave
          exact hin hleave
        have hfilter : (view.leaving ctx).filter (·.1 = id) = [] := by
          rw [List.filter_eq_nil_iff]
          intro r hmem heq
          exact hnot (List.mem_map.mpr ⟨r, hmem, by simpa using heq⟩)
        rw [hfilter, if_neg hnot]
        refine .lingers ?_
        by_contra hcov
        exact hin (leaving_of_budget h hv hr (by omega))

/-- The tick about the id of a relevant entity. -/
theorem tick_relevant (view : ClientView F) {ctx : TickContext F} (h : WellPosed ctx)
    {id : UInt16} {e : EntitySnapshot F} (hr : view.relevant ctx id = some e) :
    TickEffect view ctx id (view.views.lookup id) (some e)
      ((view.tickWithContext ctx).2.about id) ((view.tickWithContext ctx).1.views.lookup id) := by
  obtain ⟨he, rfl⟩ := relevant_eq_some hr
  have hperm := view.sendOrder_perm h
  have hmem : candidate view.views ctx e ∈ view.sendOrder ctx :=
    hperm.mem_iff.mpr (List.mem_map.mpr ⟨e, he, rfl⟩)
  obtain ⟨mid, hmid, hcost, hres⟩ := foldl_send_at ctx.cfg (view.sendOrder ctx)
    (view.startFill ctx) (view.nodup_sendOrder h) hmem
  have hstart := view.startFill_relevant h hr
  have hsum : ((view.sendOrder ctx).map fun c => cost c.entity).sum
      = ((view.relevantList ctx).map cost).sum := by
    rw [(hperm.map _).sum_nat, candidate_costs]
  rw [tickWithContext_eq]
  simp only
  rw [show e.objectId = (candidate view.views ctx e).objectId from rfl, hres.view, hres.plan]
  have hmidView : mid.views.lookup (candidate view.views ctx e).objectId
      = some (refreshed ctx e (view.views.lookup e.objectId)) := hmid.view.trans hstart.1
  rcases send_self ctx.cfg hmidView (hmid.plan.trans hstart.2) with
    ⟨-, hover, hkeep⟩ | ⟨hc, hview, hplan⟩ | ⟨hc, hnew, hview, hplan⟩ | ⟨hc, hold, hkeep⟩
  · rw [hkeep.view, hkeep.plan, hmidView, hmid.plan.trans hstart.2]
    refine .waits fun henough => ?_
    unfold EnoughBudget at henough
    have hzero : (view.startFill ctx).spent = 0 := rfl
    have : cost (candidate view.views ctx e).entity = cost e := rfl
    omega
  · rw [hview, hplan]
    exact .creates hc
  · rw [hview, hplan]
    exact .syncs hc hnew
  · rw [hkeep.view, hkeep.plan, hmidView, hmid.plan.trans hstart.2]
    exact .idles hc hold

/-- **One tick, one id.**  What a tick does about an id is one of the listed possibilities. -/
theorem tick_effect (view : ClientView F) {ctx : TickContext F} (h : WellPosed ctx)
    (id : UInt16) :
    TickEffect view ctx id (view.views.lookup id) (view.relevant ctx id)
      ((view.tickWithContext ctx).2.about id) ((view.tickWithContext ctx).1.views.lookup id) := by
  cases hr : view.relevant ctx id with
  | none => exact view.tick_irrelevant h hr
  | some e => exact view.tick_relevant h hr

end ClientView

end Baston.Zone
