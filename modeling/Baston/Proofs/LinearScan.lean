/-
The spatial index against a plain scan of the world.

A tick needs of its entries only that every relevant one is among them, once.  The order
they come in is forgotten: an id's view depends on that id alone, exits are sorted by id,
and candidates are sorted by priority and id.  Over exact coordinates the block of cells
around the client has every entry within the query radius.
-/
import Baston.Proofs.SendOrder

namespace Baston.Zone

open Assoc Baston.Rage

namespace ClientView

section Over

variable {F : Type} [Scalar F]

/-! ### A tick over any entries -/

/-- Forget the last tick's flags and visit these entries. -/
def markOver (entries : List (EntitySnapshot F)) (view : ClientView F) (ctx : TickContext F) :
    Map UInt16 (EntityView F) × List (Candidate F) :=
  let reset := view.views.mapVals fun _ v => { v with seenThisTick := false }
  entries.foldl (observe view.netId ctx) (reset, [])

/-- The tick, with these entries in place of those the index hands out. -/
def tickOver (entries : List (EntitySnapshot F)) (view : ClientView F) (ctx : TickContext F) :
    ClientView F × TickPlan :=
  let (views, candidates) := view.markOver entries ctx
  let removes := (exited views).take (maxRemoves ctx.cfg)
  let views := removes.foldl (fun views r => views.erase r.1) views
  let fill := (candidates.insertionSort fun a b => sendsBefore a b).foldl (send ctx.cfg)
    ⟨views, { removes := removes }, 0⟩
  ({ view with views := fill.views }, fill.plan)

/-- The tick with a linear scan over the whole world. -/
def tickLinear (view : ClientView F) (ctx : TickContext F) : ClientView F × TickPlan :=
  view.tickOver ctx.world ctx

theorem tickWithContext_eq_tickOver (view : ClientView F) (ctx : TickContext F) :
    view.tickWithContext ctx = view.tickOver (nearby ctx) ctx := rfl

/-! ### What the order of the entries does not change -/

/-- Two view maps hold the same. -/
def SameViews (a b : Map UInt16 (EntityView F)) : Prop := ∀ id, a.lookup id = b.lookup id

/-- The entries of a list that are relevant. -/
def relevantAmong (entries : List (EntitySnapshot F)) (view : ClientView F) (ctx : TickContext F) :
    List (EntitySnapshot F) :=
  entries.filter fun e => !suppressed view.netId ctx (view.views.lookup e.objectId).isSome e

omit [Scalar F] in
/-- A rearrangement has the same entry under an id. -/
theorem find?_perm {l l' : List (EntitySnapshot F)} (hnodup : (l.map (·.objectId)).Nodup)
    (h : l.Perm l') (id : UInt16) :
    l.find? (fun e => e.objectId = id) = l'.find? fun e => e.objectId = id := by
  have hnodup' : (l'.map (·.objectId)).Nodup := ((h.map _).nodup_iff).mp hnodup
  by_cases hid : ∃ e ∈ l, e.objectId = id
  · obtain ⟨e, he, rfl⟩ := hid
    rw [find?_key_of_mem hnodup he, find?_key_of_mem hnodup' (h.mem_iff.mp he)]
  · have hnone : ∀ e ∈ l, ¬ e.objectId = id := fun e he heq => hid ⟨e, he, heq⟩
    rw [List.find?_eq_none.mpr fun e he => by simpa using hnone e he,
      List.find?_eq_none.mpr fun e he => by simpa using hnone e (h.mem_iff.mpr he)]

theorem mark_perm {entries entries' : List (EntitySnapshot F)} {view : ClientView F}
    {ctx : TickContext F} (hnodup : (entries.map (·.objectId)).Nodup)
    (hnodup' : (entries'.map (·.objectId)).Nodup)
    (h : (relevantAmong entries view ctx).Perm (relevantAmong entries' view ctx)) :
    SameViews (view.markOver entries ctx).1 (view.markOver entries' ctx).1
      ∧ (view.markOver entries ctx).2.Perm (view.markOver entries' ctx).2
      ∧ ((view.markOver entries ctx).2.map (·.objectId)).Nodup := by
  have hreset : ∀ l : List (EntitySnapshot F), (l.filter fun e => !suppressed view.netId ctx
        ((view.views.mapVals fun _ v => { v with seenThisTick := false }).lookup
          e.objectId).isSome e) = relevantAmong l view ctx := by
    intro l
    unfold relevantAmong
    apply List.filter_congr
    intro e _
    rw [lookup_reset, Option.isSome_map]
  obtain ⟨hviews, hcandidates⟩ := foldl_observe view.netId ctx entries
    (view.views.mapVals fun _ v => { v with seenThisTick := false }) [] hnodup
  obtain ⟨hviews', hcandidates'⟩ := foldl_observe view.netId ctx entries'
    (view.views.mapVals fun _ v => { v with seenThisTick := false }) [] hnodup'
  rw [hreset] at hviews hcandidates hviews' hcandidates'
  have hids : ((relevantAmong entries view ctx).map (·.objectId)).Nodup :=
    hnodup.sublist (List.filter_sublist.map _)
  refine ⟨?_, ?_, ?_⟩
  · intro id
    refine (hviews id).trans (Eq.trans ?_ (hviews' id).symm)
    rw [find?_perm hids h id]
  · have hperm := (h.map (candidate
      (view.views.mapVals fun _ v => { v with seenThisTick := false }) ctx)).append_left []
    rw [← hcandidates, ← hcandidates'] at hperm
    exact hperm
  · unfold markOver
    rw [hcandidates, List.nil_append, List.map_map]
    exact hids

omit [Scalar F] in
/-- The exits are the same for views that hold the same. -/
theorem exited_congr {a b : Map UInt16 (EntityView F)} (h : SameViews a b) :
    exited a = exited b := by
  have hmem : ∀ r, r ∈ exited a ↔ r ∈ exited b := by
    rintro ⟨id, u⟩
    rw [mem_exited, mem_exited, h id]
  have hperm : (exited a).Perm (exited b) :=
    (List.perm_ext_iff_of_nodup (.of_map _ (nodup_exited a)) (.of_map _ (nodup_exited b))).mpr hmem
  have htotal : Std.Total fun x y : UInt16 × UInt16 => x.1 ≤ y.1 :=
    ⟨fun x y => UInt16.le_total x.1 y.1⟩
  have htrans : IsTrans (UInt16 × UInt16) fun x y => x.1 ≤ y.1 := ⟨fun _ _ _ => UInt16.le_trans⟩
  have hsorted : ∀ views : Map UInt16 (EntityView F),
      (exited views).Pairwise fun x y => x.1 ≤ y.1 :=
    fun views => List.pairwise_insertionSort (fun x y : UInt16 × UInt16 => x.1 ≤ y.1) _
  refine List.Perm.eq_of_pairwise ?_ (hsorted a) (hsorted b) hperm
  intro x y hx hy hxy hyx
  exact List.inj_on_of_nodup_map (nodup_exited a) hx ((hmem y).mpr hy) (UInt16.le_antisymm hxy hyx)

/-- A fill goes on alike from views that hold the same. -/
structure SameFill (a b : Fill F) : Prop where
  views : SameViews a.views b.views
  plan : a.plan = b.plan
  spent : a.spent = b.spent

theorem SameFill.send {a b : Fill F} (h : SameFill a b) (cfg : InterestConfig F) (c : Candidate F) :
    SameFill (send cfg a c) (ClientView.send cfg b c) := by
  have hinsert : ∀ v : EntityView F,
      SameViews (a.views.insert c.objectId v) (b.views.insert c.objectId v) := by
    intro v id
    rw [Map.lookup_insert_of, Map.lookup_insert_of, h.views id]
  unfold ClientView.send
  rw [h.spent, h.views c.objectId]
  split
  · exact h
  · split
    · exact h
    · simp only
      split
      · exact ⟨hinsert _, by rw [h.plan], rfl⟩
      · split
        · exact ⟨hinsert _, by rw [h.plan], rfl⟩
        · exact h

theorem sameFill_foldl (cfg : InterestConfig F) : ∀ (l : List (Candidate F)) {a b : Fill F},
    SameFill a b → SameFill (l.foldl (send cfg) a) (l.foldl (send cfg) b) := by
  intro l
  induction l with
  | nil =>
      intro a b h
      exact h
  | cons c rest ih =>
      intro a b h
      exact ih (h.send cfg c)

variable [Std.TransCmp (Scalar.totalCmp : F → F → Ordering)]

/-- **Only the relevant entries matter**, in whatever order they come. -/
theorem tickOver_congr {entries entries' : List (EntitySnapshot F)} {view : ClientView F}
    {ctx : TickContext F} (hnodup : (entries.map (·.objectId)).Nodup)
    (hnodup' : (entries'.map (·.objectId)).Nodup)
    (h : (relevantAmong entries view ctx).Perm (relevantAmong entries' view ctx)) :
    (view.tickOver entries ctx).2 = (view.tickOver entries' ctx).2
      ∧ (view.tickOver entries ctx).1.netId = (view.tickOver entries' ctx).1.netId
      ∧ SameViews (view.tickOver entries ctx).1.views (view.tickOver entries' ctx).1.views := by
  obtain ⟨hviews, hcandidates, hids⟩ := mark_perm hnodup hnodup' h
  have hexited := exited_congr hviews
  have herased : ∀ removes : List (UInt16 × UInt16),
      SameViews (removes.foldl (fun views r => views.erase r.1) (view.markOver entries ctx).1)
        (removes.foldl (fun views r => views.erase r.1) (view.markOver entries' ctx).1) := by
    intro removes id
    rw [lookup_foldl_erase, lookup_foldl_erase, hviews id]
  have hfill := sameFill_foldl ctx.cfg
    ((view.markOver entries' ctx).2.insertionSort fun a b => sendsBefore a b)
    (a := ⟨_, { removes := (exited (view.markOver entries' ctx).1).take (maxRemoves ctx.cfg) }, 0⟩)
    (b := ⟨_, { removes := (exited (view.markOver entries' ctx).1).take (maxRemoves ctx.cfg) }, 0⟩)
    ⟨herased ((exited (view.markOver entries' ctx).1).take (maxRemoves ctx.cfg)), rfl, rfl⟩
  unfold tickOver
  simp only [hexited, sendOrder_unique hids hcandidates]
  exact ⟨hfill.plan, trivial, hfill.views⟩

end Over

/-! ### What the block of cells holds -/

section Block

variable {F : Type} [Scalar F] {ctx : TickContext F} {radius : F}

omit [Scalar F] in
/-- Ids are sixteen bits wide, so a world with distinct ids is indexed whole. -/
theorem length_le_of_distinct {world : List (EntitySnapshot F)}
    (h : (world.map (·.objectId)).Nodup) : world.length ≤ SpatialIndex.maxEntries := by
  have hnumbers : (world.map fun e => e.objectId.toNat).Nodup := by
    have hmap := h.map fun a b hab => UInt16.toNat_inj.mp hab
    rwa [List.map_map] at hmap
  have hsubset : (world.map fun e => e.objectId.toNat).toFinset ⊆ Finset.range 65536 := by
    intro n hn
    obtain ⟨e, -, rfl⟩ := List.mem_map.mp (List.mem_toFinset.mp hn)
    exact Finset.mem_range.mpr e.objectId.toNat_lt
  have hcard := Finset.card_le_card hsubset
  rw [List.toFinset_card_of_nodup hnumbers, List.length_map, Finset.card_range] at hcard
  exact hcard.trans (by decide)

/-- A tick looks at the entries that lie in the block around the client. -/
theorem mem_nearby_of_block (hindex : ctx.index = SpatialIndex.build ctx.world radius)
    (hdistinct : (ctx.world.map (·.objectId)).Nodup) {e : EntitySnapshot F} (he : e ∈ ctx.world)
    {d : Int32 × Int32} (hd : d ∈ SpatialIndex.block)
    (hcell : cellOf e.position (Scalar.max radius 1.0)
      = ((cellOf ctx.focus (Scalar.max radius 1.0)).1 + d.1,
        (cellOf ctx.focus (Scalar.max radius 1.0)).2 + d.2)) : e ∈ nearby ctx := by
  obtain ⟨i, hi⟩ := List.mem_iff_getElem?.mp he
  refine List.mem_filterMap.mpr ⟨i, ?_, hi⟩
  rw [hindex]
  refine List.mem_flatMap.mpr ⟨d, hd, ?_⟩
  rw [SpatialIndex.lookup_build]
  refine List.mem_map.mpr ⟨(e, i), List.mem_filter.mpr ⟨?_, decide_eq_true hcell⟩, rfl⟩
  rw [List.take_of_length_le (length_le_of_distinct hdistinct)]
  exact List.mem_zipIdx_iff_getElem?.mpr hi

end Block

/-! ### Exact coordinates -/

section Exact

variable {ctx : TickContext ℝ}

theorem mem_block {dx dy : Int32} (hx : dx ∈ Cells.steps) (hy : dy ∈ Cells.steps) :
    (dx, dy) ∈ SpatialIndex.block := by
  simp only [Cells.steps, List.mem_cons, List.not_mem_nil, or_false] at hx hy
  rcases hx with rfl | rfl | rfl <;> rcases hy with rfl | rfl | rfl <;> decide

/-- **No entity within the query radius is missed.** -/
theorem mem_nearby_of_within
    (hindex : ctx.index = SpatialIndex.build ctx.world ctx.cfg.queryRadius)
    (hdistinct : (ctx.world.map (·.objectId)).Nodup) (hradius : 0 ≤ ctx.cfg.queryRadius)
    {e : EntitySnapshot ℝ} (he : e ∈ ctx.world)
    (hwithin : (planar ctx e).2.2 ≤ ctx.cfg.queryRadius * ctx.cfg.queryRadius) :
    e ∈ nearby ctx := by
  have hcell : (Scalar.max ctx.cfg.queryRadius 1.0 : ℝ) = max ctx.cfg.queryRadius 1 := by
    show max ctx.cfg.queryRadius (OfScientific.ofScientific 10 true 1 : ℝ) = _
    norm_num
  have hpos : 0 < max ctx.cfg.queryRadius (1 : ℝ) := lt_max_of_lt_right one_pos
  have hwide : ctx.cfg.queryRadius ≤ max ctx.cfg.queryRadius 1 := le_max_left _ _
  have hplanar : (e.position.x - ctx.focus.x) * (e.position.x - ctx.focus.x)
      + (e.position.y - ctx.focus.y) * (e.position.y - ctx.focus.y)
      ≤ ctx.cfg.queryRadius * ctx.cfg.queryRadius := hwithin
  have hx : |e.position.x - ctx.focus.x| ≤ max ctx.cfg.queryRadius 1 :=
    (abs_le_of_sq_le_sq (by nlinarith [mul_self_nonneg (e.position.y - ctx.focus.y)])
      hradius).trans hwide
  have hy : |e.position.y - ctx.focus.y| ≤ max ctx.cfg.queryRadius 1 :=
    (abs_le_of_sq_le_sq (by nlinarith [mul_self_nonneg (e.position.x - ctx.focus.x)])
      hradius).trans hwide
  obtain ⟨dx, hdx, hcx⟩ := Cells.saturate_near (Cells.floor_div_near hpos hx)
  obtain ⟨dy, hdy, hcy⟩ := Cells.saturate_near (Cells.floor_div_near hpos hy)
  refine mem_nearby_of_block hindex hdistinct he (mem_block hdx hdy) ?_
  rw [hcell]
  exact Prod.ext hcx hcy

/-- What is relevant lies within the query radius. -/
theorem within_of_relevant (haoi : 0 < ctx.cfg.aoiRadius) (hhysteresis : 0 ≤ ctx.cfg.hysteresisM)
    {netId : UInt16} {inScope : Bool} {e : EntitySnapshot ℝ}
    (h : suppressed netId ctx inScope e = false) :
    (planar ctx e).2.2 ≤ ctx.cfg.queryRadius * ctx.cfg.queryRadius := by
  have hinside : outsideAoi ctx inScope e = false := by
    unfold suppressed at h
    simpa using (Bool.or_eq_false_iff.mp h).2
  have hmargin : (0.0 : ℝ) = 0 := by norm_num
  cases inScope with
  | true =>
      exact not_lt.mp (of_decide_eq_false hinside)
  | false =>
      have hnear : (planar ctx e).2.2 ≤ (ctx.cfg.aoiRadius + 0.0) * (ctx.cfg.aoiRadius + 0.0) :=
        not_lt.mp (of_decide_eq_false hinside)
      have hquery : ctx.cfg.queryRadius = ctx.cfg.aoiRadius + ctx.cfg.hysteresisM := rfl
      rw [hmargin] at hnear
      rw [hquery]
      nlinarith

/-- **The index does what a linear scan does.**  Over exact coordinates, for every world with
distinct ids, every view and context, and a configuration that validation accepts: the tick over
an index of the query radius makes the same plan and leaves the same view as the tick over the
whole world.  No entity within the radius and its margin is missed, and none is visited twice. -/
theorem index_eq_linear (view : ClientView ℝ)
    (hindex : ctx.index = SpatialIndex.build ctx.world ctx.cfg.queryRadius)
    (hdistinct : (ctx.world.map (·.objectId)).Nodup) (haoi : 0 < ctx.cfg.aoiRadius)
    (hhysteresis : 0 ≤ ctx.cfg.hysteresisM) :
    (view.tickWithContext ctx).2 = (view.tickLinear ctx).2
      ∧ (view.tickWithContext ctx).1.netId = (view.tickLinear ctx).1.netId
      ∧ SameViews (view.tickWithContext ctx).1.views (view.tickLinear ctx).1.views
      ∧ (∀ e ∈ ctx.world, (planar ctx e).2.2 ≤ ctx.cfg.queryRadius * ctx.cfg.queryRadius →
        e ∈ nearby ctx)
      ∧ (nearby ctx).Nodup := by
  have hradius : 0 ≤ ctx.cfg.queryRadius := add_nonneg haoi.le hhysteresis
  have hposed : WellPosed ctx := ⟨⟨_, hindex⟩, hdistinct⟩
  have hids := nodup_nearby hposed
  have hperm : (relevantAmong (nearby ctx) view ctx).Perm (relevantAmong ctx.world view ctx) := by
    refine (List.perm_ext_iff_of_nodup ((List.Nodup.of_map _ hids).filter _)
      ((List.Nodup.of_map _ hdistinct).filter _)).mpr ?_
    intro e
    rw [List.mem_filter, List.mem_filter]
    refine and_congr_left fun hrelevant => ⟨mem_world_of_mem_nearby, fun he => ?_⟩
    exact mem_nearby_of_within hindex hdistinct hradius he
      (within_of_relevant haoi hhysteresis (by simpa using hrelevant))
  obtain ⟨hplan, hnet, hviews⟩ := tickOver_congr hids hdistinct hperm
  rw [tickWithContext_eq_tickOver, tickLinear]
  exact ⟨hplan, hnet, hviews, fun e he => mem_nearby_of_within hindex hdistinct hradius he,
    .of_map _ hids⟩

/-- A crate on the west-east line. -/
noncomputable def crateAt (id : UInt16) (x : ℝ) : EntitySnapshot ℝ where
  objectId := id
  uniqifier := 1
  owner := 0
  position := ⟨x, 0, 0⟩
  velocity := ⟨0, 0, 0⟩
  entityType := .object
  routingBucket := 0
  frameIndex := 5
  dataLen := 40

/-- A crate on the far side of a cell border that is in reach only by the margin, one close by and
one out of reach. -/
noncomputable def crates : List (EntitySnapshot ℝ) :=
  [crateAt 7 (-430), crateAt 8 90, crateAt 9 5000]

/-- A client at the origin of that world. -/
noncomputable def atOrigin : TickContext ℝ where
  focus := ⟨0, 0, 0⟩
  focusVelocity := ⟨0, 0, 0⟩
  routingBucket := 0
  world := crates
  index := SpatialIndex.build crates InterestConfig.standard.queryRadius
  cfg := .standard

theorem crates_found :
    ((ClientView.new 2).tickWithContext atOrigin).2 = ((ClientView.new 2).tickLinear atOrigin).2
      ∧ ((ClientView.new 2).tickWithContext atOrigin).1.netId
        = ((ClientView.new 2).tickLinear atOrigin).1.netId
      ∧ SameViews ((ClientView.new 2).tickWithContext atOrigin).1.views
        ((ClientView.new 2).tickLinear atOrigin).1.views
      ∧ (∀ e ∈ atOrigin.world,
        (planar atOrigin e).2.2 ≤ atOrigin.cfg.queryRadius * atOrigin.cfg.queryRadius →
        e ∈ nearby atOrigin)
      ∧ (nearby atOrigin).Nodup :=
  index_eq_linear _ rfl (by show [(7 : UInt16), 8, 9].Nodup; decide)
    (by show (0 : ℝ) < OfScientific.ofScientific 4240 true 1; norm_num)
    (by show (0 : ℝ) ≤ OfScientific.ofScientific 200 true 1; norm_num)

end Exact

end ClientView

end Baston.Zone
