/-
What the byte budget defers.

A candidate that is passed over for the budget had an amount spent before its turn that
left no room for it.  Whatever is sent after it found at least as much spent and still had
room, so it is smaller; and whatever is sent before it has no lower priority.  What is
passed over keeps the priority it gained this tick.  In single precision too that is no
less than it had, for adding what is not negative never lowers a number.
-/
import Baston.Lib.Binary32
import Baston.Proofs.Exits
import Baston.Proofs.SendOrder

namespace Baston.Zone

open Assoc Baston.Rage Binary32

namespace ClientView

section Fill

variable {F : Type} [Scalar F]

/-! ### The fill around one candidate -/

theorem send_spent (cfg : InterestConfig F) (fill : Fill F) (c : Candidate F) :
    fill.spent ≤ (send cfg fill c).spent := by
  unfold send
  split
  · exact le_rfl
  · split
    · exact le_rfl
    · simp only
      split
      · exact Nat.le_add_right _ _
      · split
        · exact Nat.le_add_right _ _
        · exact le_rfl

theorem foldl_send_spent (cfg : InterestConfig F) : ∀ (l : List (Candidate F)) (fill : Fill F),
    fill.spent ≤ (l.foldl (send cfg) fill).spent := by
  intro l
  induction l with
  | nil =>
      intro fill
      exact le_rfl
  | cons c rest ih =>
      intro fill
      exact (send_spent cfg fill c).trans (ih _)

/-- The fill a candidate finds at its turn, and what its turn leaves at its id. -/
theorem foldl_send_around (cfg : InterestConfig F) {before after : List (Candidate F)}
    {c : Candidate F} (hnodup : ((before ++ c :: after).map (·.objectId)).Nodup) (fill : Fill F) :
    SameAt c.objectId (before.foldl (send cfg) fill) fill
      ∧ SameAt c.objectId ((before ++ c :: after).foldl (send cfg) fill)
        (send cfg (before.foldl (send cfg) fill) c) := by
  rw [List.map_append, List.nodup_append] at hnodup
  obtain ⟨-, hafter, hapart⟩ := hnodup
  rw [List.map_cons, List.nodup_cons] at hafter
  constructor
  · refine foldl_send_other cfg before fill ?_
    intro a ha heq
    exact hapart _ (List.mem_map_of_mem ha) _ (by simp) heq
  · rw [List.foldl_append, List.foldl_cons]
    refine foldl_send_other cfg after _ ?_
    intro a ha heq
    exact hafter.1 (List.mem_map.mpr ⟨a, ha, heq⟩)

variable {view : ClientView F} {ctx : TickContext F}

/-- The priority an entity has gathered when the tick chooses what to send. -/
def gathered (view : ClientView F) (ctx : TickContext F) (e : EntitySnapshot F) : F :=
  (refreshed ctx e (view.views.lookup e.objectId)).priority

/-- The client is to be sent something of the entity: a create, or a newer frame. -/
def HasNews (view : ClientView F) (ctx : TickContext F) (e : EntitySnapshot F) : Prop :=
  (refreshed ctx e (view.views.lookup e.objectId)).created = false
    ∨ (refreshed ctx e (view.views.lookup e.objectId)).baseFrame < e.frameIndex

/-- **The turn of one entity.**  It is sent exactly if there is something new to send and what was
spent by its turn, if anything was, leaves room for it. -/
theorem sends_iff_turn (h : WellPosed ctx) {e : EntitySnapshot F}
    {before after : List (Candidate F)} (he : view.relevant ctx e.objectId = some e)
    (hsplit : view.sendOrder ctx = before ++ candidate view.views ctx e :: after) :
    (view.tickWithContext ctx).2.Sends e.objectId
      ↔ view.HasNews ctx e
        ∧ ¬ ((before.foldl (send ctx.cfg) (view.startFill ctx)).spent > 0
          ∧ (before.foldl (send ctx.cfg) (view.startFill ctx)).spent + cost e
            > ctx.cfg.budgetBytes) := by
  have hnodup := view.nodup_sendOrder h
  rw [hsplit] at hnodup
  obtain ⟨hmid, hend⟩ := foldl_send_around ctx.cfg hnodup (view.startFill ctx)
  rw [← hsplit] at hend
  obtain ⟨hstartView, hstartPlan⟩ := view.startFill_relevant h he
  have hempty : (before.foldl (send ctx.cfg) (view.startFill ctx)).plan.about e.objectId = [] :=
    hmid.plan.trans hstartPlan
  have hplan : (view.tickWithContext ctx).2.about e.objectId
      = (send ctx.cfg (before.foldl (send ctx.cfg) (view.startFill ctx))
        (candidate view.views ctx e)).plan.about e.objectId := by
    rw [tickWithContext_eq]
    exact hend.plan
  rw [TickPlan.sends_iff_about]
  by_cases hfull : (before.foldl (send ctx.cfg) (view.startFill ctx)).spent > 0
      ∧ (before.foldl (send ctx.cfg) (view.startFill ctx)).spent + cost e > ctx.cfg.budgetBytes
  · have hskip : send ctx.cfg (before.foldl (send ctx.cfg) (view.startFill ctx))
        (candidate view.views ctx e) = before.foldl (send ctx.cfg) (view.startFill ctx) :=
      if_pos hfull
    rw [hplan, hskip, hempty]
    simp [hfull]
  · rcases send_self ctx.cfg (hmid.view.trans hstartView) hempty with
      ⟨hspent, hover, -⟩ | ⟨hnew, -, habout⟩ | ⟨hknown, hnewer, -, habout⟩
        | ⟨hknown, hcurrent, hkeep⟩
    · exact absurd ⟨hspent, hover⟩ hfull
    · have hnews : view.HasNews ctx e := .inl hnew
      rw [hplan.trans habout]
      simp [hfull, hnews]
    · have hnews : view.HasNews ctx e := .inr hnewer
      rw [hplan.trans habout]
      simp [hfull, hnews]
    · have hnews : ¬ view.HasNews ctx e := by
        rintro (hnew | hnewer)
        · exact absurd (hknown.symm.trans hnew) (by simp)
        · exact hcurrent hnewer
      rw [hplan.trans (hkeep.plan.trans hempty)]
      simp [hnews]

/-- What is sent is relevant. -/
theorem relevant_of_sends (h : WellPosed ctx) {e : EntitySnapshot F} (he : e ∈ ctx.world)
    (hsent : (view.tickWithContext ctx).2.Sends e.objectId) :
    view.relevant ctx e.objectId = some e := by
  rw [TickPlan.sends_iff_about] at hsent
  cases hr : view.relevant ctx e.objectId with
  | none =>
      exfalso
      have heffect := view.tick_irrelevant h hr
      generalize (view.tickWithContext ctx).2.about e.objectId = acts at heffect hsent
      generalize (view.tickWithContext ctx).1.views.lookup e.objectId = after at heffect
      generalize view.views.lookup e.objectId = before at heffect
      cases heffect <;> simp at hsent
  | some e' =>
      obtain ⟨hmem, hid⟩ := relevant_eq_some hr
      have hworld := mem_world_of_mem_nearby (List.mem_filter.mp hmem).1
      rw [List.inj_on_of_nodup_map h.distinct hworld he hid]

/-- **What is passed over for the budget is the larger.**  An entity of lower priority that is sent
in its place is smaller than it. -/
theorem deferred_larger [Std.TransCmp (Scalar.totalCmp : F → F → Ordering)] (h : WellPosed ctx)
    {e sent : EntitySnapshot F} (he : view.relevant ctx e.objectId = some e)
    (hnews : view.HasNews ctx e)
    (hdeferred : ¬ (view.tickWithContext ctx).2.Sends e.objectId) (hworld : sent ∈ ctx.world)
    (hsent : (view.tickWithContext ctx).2.Sends sent.objectId)
    (hlower : Scalar.totalCmp (view.gathered ctx sent) (view.gathered ctx e) = .lt) :
    cost sent < cost e := by
  have hrelevant := relevant_of_sends h hworld hsent
  have hmem : ∀ {e : EntitySnapshot F}, view.relevant ctx e.objectId = some e →
      candidate view.views ctx e ∈ view.sendOrder ctx := fun hr =>
    (view.sendOrder_perm h).mem_iff.mpr (List.mem_map.mpr ⟨_, (relevant_eq_some hr).1, rfl⟩)
  obtain ⟨before, after, hsplit⟩ := List.append_of_mem (hmem he)
  have hturn := (not_congr (sends_iff_turn h he hsplit)).mp hdeferred
  have hfull := not_not.mp fun hroom => hturn ⟨hnews, hroom⟩
  have hsorted : (view.sendOrder ctx).Pairwise fun a b => sendsBefore a b = true :=
    pairwise_sendOrder _
  -- of the two, the one with the higher priority has its turn first
  have hlater : candidate view.views ctx sent ∈ after := by
    have hin := hmem hrelevant
    rw [hsplit, List.mem_append, List.mem_cons] at hin
    rcases hin with hbefore | hsame | hafter
    · rw [hsplit, List.pairwise_append] at hsorted
      have hfirst := hsorted.2.2 _ hbefore _ List.mem_cons_self
      rw [sendsBefore_iff] at hfirst
      have hswap : Scalar.totalCmp (view.gathered ctx e) (view.gathered ctx sent) = .gt := by
        rw [Std.OrientedCmp.gt_iff_lt]
        exact hlower
      rcases hfirst with hlt | ⟨heq, -⟩
      · exact absurd (hswap.symm.trans hlt) (by simp)
      · exact absurd (hswap.symm.trans heq) (by simp)
    · have hself : Scalar.totalCmp (view.gathered ctx e) (view.gathered ctx e) = .eq :=
        Std.ReflCmp.compare_self
      have hpriority : view.gathered ctx sent = view.gathered ctx e :=
        congrArg Candidate.priority hsame
      rw [hpriority, hself] at hlower
      exact absurd hlower (by simp)
    · exact hafter
  obtain ⟨between, rest, hafter⟩ := List.append_of_mem hlater
  have hsplit' : view.sendOrder ctx
      = (before ++ candidate view.views ctx e :: between)
        ++ candidate view.views ctx sent :: rest := by
    rw [hsplit, hafter, List.append_assoc, List.cons_append]
  have hroom := ((sends_iff_turn h hrelevant hsplit').mp hsent).2
  have hgrown : (before.foldl (send ctx.cfg) (view.startFill ctx)).spent
      ≤ ((before ++ candidate view.views ctx e :: between).foldl (send ctx.cfg)
        (view.startFill ctx)).spent := by
    rw [List.foldl_append]
    exact foldl_send_spent ctx.cfg _ _
  omega

end Fill

/-! ### Priorities in single precision -/

section Priorities

/-- No weight is below zero. -/
def NoWeightBelow (cfg : InterestConfig Float32) : Prop :=
  cfg.distanceWeight.lt 0.0 = false ∧ cfg.closingWeight.lt 0.0 = false
    ∧ cfg.stalenessWeight.lt 0.0 = false

theorem plain_zero : Plain 0.0 := by
  show (0.0 : Float32).toBits.toNat ≤ infinityBits
  decide

theorem plain_cap : Plain priorityCap := by
  show (1.0e6 : Float32).toBits.toNat ≤ infinityBits
  decide

/-- `max(0.0)` of anything is a gain. -/
theorem gain_maxNum (x : Float32) : Gain (F32.maxNum x 0.0) := by
  unfold F32.maxNum
  split
  · exact .inr (.inl plain_zero)
  · split
    · next hnan =>
        rw [isNaN_of_plain plain_zero] at hnan
        exact absurd hnan (by simp)
    · split
      · exact .inr (.inl plain_zero)
      · next hlt => exact gain_of_not_lt (Bool.eq_false_iff.mpr hlt)

/-- Capped, a number that is at least so high is still that high, or as high as the cap. -/
theorem minNum_atLeast {n : Nat} {x c : Float32} (hx : AtLeast n x) (hc : Plain c) :
    Plain (F32.minNum x c) ∧ min n c.toBits.toNat ≤ (F32.minNum x c).toBits.toNat := by
  have hcap := isNaN_of_plain hc
  unfold F32.minNum
  rcases hx with hnan | ⟨hn, hx⟩
  · rw [if_pos hnan]
    exact ⟨hc, Nat.min_le_right _ _⟩
  · rw [isNaN_of_plain hx, hcap]
    simp only [Bool.false_eq_true, if_false]
    split
    · exact ⟨hc, Nat.min_le_right _ _⟩
    · exact ⟨hx, (Nat.min_le_left _ _).trans hn⟩

theorem le_minNum {x y c : Float32} (hx : Plain x) (hy : Plain y) (hc : Plain c)
    (h : min x.toBits.toNat c.toBits.toNat ≤ y.toBits.toNat) :
    Float32.le (F32.minNum x c) y = true := by
  unfold F32.minNum
  rw [isNaN_of_plain hx, isNaN_of_plain hc]
  simp only [Bool.false_eq_true, if_false]
  split
  · next hlt =>
      have := (lt_iff hc hx).mp hlt
      exact (le_iff hc hy).mpr (by omega)
  · next hlt =>
      have := (not_congr (lt_iff hc hx)).mp hlt
      exact (le_iff hx hy).mpr (by omega)

variable {ctx : TickContext Float32}

/-- **A tick takes no priority away**, up to the cap. -/
theorem accrue_atLeast (hweights : NoWeightBelow ctx.cfg) (e : EntitySnapshot Float32) {p : Float32}
    (hp : Plain p) :
    Plain (accrue ctx e p)
      ∧ min p.toBits.toNat (priorityCap : Float32).toBits.toNat ≤ (accrue ctx e p).toBits.toNat := by
  obtain ⟨hdistance, hclosing, hstaleness⟩ := hweights
  have hsum : ∀ {d c : Float32}, Gain d → Gain c →
      AtLeast p.toBits.toNat (p + d + c + ctx.cfg.stalenessWeight) := fun hd hc =>
    ((AtLeast.add (.inr ⟨le_rfl, hp⟩) hd).add hc).add (gain_of_not_lt hstaleness)
  unfold accrue
  simp only
  refine minNum_atLeast (hsum ?_ ?_) plain_cap
  · exact (gain_of_not_lt hdistance).mul (gain_maxNum _)
  · refine (gain_of_not_lt hclosing).mul ?_
    split
    · exact gain_maxNum _
    · exact .inr (.inl plain_zero)

/-- No priority in the view has a sign or is not a number. -/
def Tame (view : ClientView Float32) : Prop :=
  ∀ id v, view.views.lookup id = some v → Plain v.priority

theorem tame_new (netId : UInt16) : Tame (ClientView.new netId) := by
  intro id v hv
  exact absurd hv (by simp [ClientView.new])

/-- The priority under an id before a tick, zero for one that is not in the view. -/
def priorityOf (view : ClientView Float32) (id : UInt16) : Float32 :=
  ((view.views.lookup id).map (·.priority)).getD 0.0

theorem Tame.priorityOf {view : ClientView Float32} (h : Tame view) (id : UInt16) :
    Plain (view.priorityOf id) := by
  unfold ClientView.priorityOf
  cases hv : view.views.lookup id with
  | none => exact plain_zero
  | some v => exact h id v hv

theorem gathered_eq (view : ClientView Float32) (ctx : TickContext Float32)
    (e : EntitySnapshot Float32) :
    view.gathered ctx e = accrue ctx e (view.priorityOf e.objectId) := by
  unfold gathered refreshed ClientView.priorityOf
  cases view.views.lookup e.objectId <;> rfl

theorem Tame.tick {view : ClientView Float32} (h : Tame view) (hposed : WellPosed ctx)
    (hweights : NoWeightBelow ctx.cfg) : Tame (view.tickWithContext ctx).1 := by
  intro id v hv
  have hrefreshed : ∀ {e : EntitySnapshot Float32}, view.relevant ctx id = some e →
      Plain (refreshed ctx e (view.views.lookup id)).priority := by
    intro e hr
    obtain ⟨-, rfl⟩ := relevant_eq_some hr
    have hplain := (accrue_atLeast hweights e (h.priorityOf e.objectId)).1
    rw [← gathered_eq] at hplain
    exact hplain
  have heffect := view.tick_effect hposed id
  rw [hv] at heffect
  generalize hbefore : view.views.lookup id = before at heffect hrefreshed
  generalize hr : view.relevant ctx id = e at heffect hrefreshed
  generalize (view.tickWithContext ctx).2.about id = acts at heffect
  cases heffect with
  | lingers beyond =>
      have hkept : Plain _ := h id _ hbefore
      exact hkept
  | creates fresh => exact plain_zero
  | syncs known newer => exact plain_zero
  | waits spent => exact hrefreshed rfl
  | idles known current => exact hrefreshed rfl

theorem Tame.ticks : ∀ {ctxs : List (TickContext Float32)} {view : ClientView Float32}, Tame view →
    (∀ c ∈ ctxs, WellPosed c) → (∀ c ∈ ctxs, NoWeightBelow c.cfg) → Tame (view.ticks ctxs).1 := by
  intro ctxs
  induction ctxs with
  | nil =>
      intro view h _ _
      exact h
  | cons ctx rest ih =>
      intro view h hposed hweights
      exact ih (h.tick (hposed ctx List.mem_cons_self) (hweights ctx List.mem_cons_self))
        (fun c hc => hposed c (List.mem_cons_of_mem _ hc))
        (fun c hc => hweights c (List.mem_cons_of_mem _ hc))

/-- `total_cmp` agrees with `<` on numbers without a sign. -/
theorem totalCmp_of_lt {a b : Float32} (ha : Plain a) (hb : Plain b) (h : a.lt b = true) :
    Scalar.totalCmp a b = .lt := by
  have hlt := (lt_iff ha hb).mp h
  unfold Plain infinityBits at ha hb
  show compare (F32.orderKey a) (F32.orderKey b) = .lt
  rw [compare_lt_iff_lt]
  unfold F32.orderKey
  rw [if_pos (by omega), if_pos (by omega)]
  omega

/-- An entity that is passed over goes on with what it has gathered. -/
theorem deferred_priority {view : ClientView Float32} (hposed : WellPosed ctx)
    {e : EntitySnapshot Float32} (he : view.relevant ctx e.objectId = some e)
    (hdeferred : ¬ (view.tickWithContext ctx).2.Sends e.objectId) :
    ∃ v, (view.tickWithContext ctx).1.views.lookup e.objectId = some v
      ∧ v.priority = view.gathered ctx e := by
  rw [TickPlan.sends_iff_about] at hdeferred
  have heffect := view.tick_relevant hposed he
  unfold gathered
  generalize (view.tickWithContext ctx).2.about e.objectId = acts at heffect hdeferred
  generalize (view.tickWithContext ctx).1.views.lookup e.objectId = after at heffect
  generalize view.views.lookup e.objectId = before at heffect
  cases heffect with
  | creates fresh => exact absurd (by simp) hdeferred
  | syncs known newer => exact absurd (by simp) hdeferred
  | waits spent => exact ⟨_, rfl, rfl⟩
  | idles known current => exact ⟨_, rfl, rfl⟩

/-! ### The guarantees of a tick -/

/-- What the ticks `ctx :: rest` do about removes, from any view. -/
structure KeepsExits (view : ClientView Float32) (ctx : TickContext Float32)
    (rest : List (TickContext Float32)) : Prop where
  /-- A plan keeps to the remove budget. -/
  within : (view.tickWithContext ctx).2.removes.length ≤ max (ctx.cfg.removeBudgetBytes / 8) 1
  /-- The creates, syncs and removes of a plan name no id twice. -/
  distinct : ((view.tickWithContext ctx).2.creates ++ (view.tickWithContext ctx).2.syncs
    ++ (view.tickWithContext ctx).2.removes.map (·.1)).Nodup
  /-- An exit that does not come back is removed once or is still in the view. -/
  once : ∀ id v, view.views.lookup id = some v → OutOfScope id view (ctx :: rest) →
    (removals id (view.ticks (ctx :: rest)).2 = 1
        ∧ (view.ticks (ctx :: rest)).1.views.lookup id = none)
      ∨ (removals id (view.ticks (ctx :: rest)).2 = 0
        ∧ ((view.ticks (ctx :: rest)).1.views.lookup id).isSome = true)
  /-- It is removed once as soon as the ticks are as many as it takes to remove what was pending,
  if nothing else leaves scope meanwhile. -/
  timely : ∀ id v m, view.views.lookup id = some v → OutOfScope id view (ctx :: rest) →
    NothingLeaves view (ctx :: rest) → 0 < m → (∀ c ∈ ctx :: rest, m ≤ maxRemoves c.cfg) →
    (view.pending ctx + (m - 1)) / m ≤ (ctx :: rest).length →
    removals id (view.ticks (ctx :: rest)).2 = 1

/-- What a tick does for an entity in scope that has news and is passed over for the budget. -/
structure KeepsPriority (view : ClientView Float32) (ctx : TickContext Float32)
    (e : EntitySnapshot Float32) : Prop where
  /-- It keeps at least the priority it had, up to the cap. -/
  kept : ∃ v, (view.tickWithContext ctx).1.views.lookup e.objectId = some v
    ∧ Scalar.le (Scalar.min (view.priorityOf e.objectId) priorityCap) v.priority = true
  /-- What is sent with a lower priority is smaller. -/
  larger : ∀ sent ∈ ctx.world, (view.tickWithContext ctx).2.Sends sent.objectId →
    Scalar.lt (view.gathered ctx sent) (view.gathered ctx e) = true → cost sent < cost e

/-- **Every exit once, and no priority lost.**  For every sequence of ticks over any worlds with
distinct ids: the removes of each plan keep to the budget, a plan names no id twice, an exit is
removed once and in time, and, with no weight below zero, an entity the budget defers keeps its
priority and gives way to smaller ones alone. -/
theorem exits_and_deferrals (netId : UInt16) {past rest : List (TickContext Float32)}
    {ctx : TickContext Float32} (hposed : ∀ c ∈ past ++ ctx :: rest, WellPosed c) :
    KeepsExits ((ClientView.new netId).ticks past).1 ctx rest
      ∧ ((∀ c ∈ past ++ [ctx], NoWeightBelow c.cfg) →
        ∀ e, ((ClientView.new netId).ticks past).1.relevant ctx e.objectId = some e →
          ((ClientView.new netId).ticks past).1.HasNews ctx e →
          ¬ (((ClientView.new netId).ticks past).1.tickWithContext ctx).2.Sends e.objectId →
          KeepsPriority ((ClientView.new netId).ticks past).1 ctx e) := by
  have hpast : ∀ c ∈ past, WellPosed c := fun c hc => hposed c (List.mem_append_left _ hc)
  have hnow : ∀ c ∈ ctx :: rest, WellPosed c := fun c hc => hposed c (List.mem_append_right _ hc)
  have hctx := hnow ctx List.mem_cons_self
  constructor
  · refine ⟨removes_within _ ctx, nodup_ids _ hctx, ?_, ?_⟩
    · intro id v hv hout
      exact exit_once hnow hout hv
    · intro id v m hv hout hnone hm hbudget hticks
      refine exit_in_time hnow hbudget hout hnone hv ?_
      have hceil := (Nat.div_le_iff_le_mul_add_pred hm).mp hticks
      omega
  · intro hweights e he hnews hdeferred
    have htame := (tame_new netId).ticks hpast
      fun c hc => hweights c (List.mem_append_left _ hc)
    have hweight := hweights ctx (by simp)
    have hplain : ∀ e, Plain (((ClientView.new netId).ticks past).1.gathered ctx e) := by
      intro e
      rw [gathered_eq]
      exact (accrue_atLeast hweight e (htame.priorityOf _)).1
    constructor
    · obtain ⟨v, hv, hpriority⟩ := deferred_priority hctx he hdeferred
      refine ⟨v, hv, ?_⟩
      rw [hpriority, gathered_eq]
      obtain ⟨hp, hle⟩ := accrue_atLeast hweight e (htame.priorityOf e.objectId)
      exact le_minNum (htame.priorityOf _) hp plain_cap hle
    · intro sent hworld hsent hlower
      exact deferred_larger hctx he hnews hdeferred hworld hsent
        (totalCmp_of_lt (hplain _) (hplain _) hlower)

/-- A client at the origin that watches a world. -/
def watching (world : List (EntitySnapshot Float32)) : TickContext Float32 where
  focus := Vec3.zero
  focusVelocity := Vec3.zero
  routingBucket := 0
  world := world
  index := SpatialIndex.build world (InterestConfig.standard : InterestConfig Float32).queryRadius
  cfg := .standard

/-- A crate that stands at `x`. -/
def crate (objectId : UInt16) (x : Float32) : EntitySnapshot Float32 where
  objectId := objectId
  uniqifier := 1
  owner := 0
  position := ⟨x, 0.0, 0.0⟩
  velocity := Vec3.zero
  entityType := .object
  routingBucket := 0
  frameIndex := 5
  dataLen := 40

theorem wellPosed_watching {world : List (EntitySnapshot Float32)}
    (h : (world.map (·.objectId)).Nodup) : WellPosed (watching world) := ⟨⟨_, rfl⟩, h⟩

/-- Two crates that are near at first, and one of which is gone later. -/
theorem crate_goes :
    KeepsExits ((ClientView.new 2).ticks [watching [crate 7 10.0, crate 8 20.0]]).1
        (watching [crate 7 900.0, crate 8 20.0]) [watching [crate 8 20.0]]
      ∧ ((∀ c ∈ [watching [crate 7 10.0, crate 8 20.0]]
          ++ [watching [crate 7 900.0, crate 8 20.0]], NoWeightBelow c.cfg) →
        ∀ e, ((ClientView.new 2).ticks [watching [crate 7 10.0, crate 8 20.0]]).1.relevant
            (watching [crate 7 900.0, crate 8 20.0]) e.objectId = some e →
          ((ClientView.new 2).ticks [watching [crate 7 10.0, crate 8 20.0]]).1.HasNews
            (watching [crate 7 900.0, crate 8 20.0]) e →
          ¬ (((ClientView.new 2).ticks [watching [crate 7 10.0, crate 8 20.0]]).1.tickWithContext
              (watching [crate 7 900.0, crate 8 20.0])).2.Sends e.objectId →
          KeepsPriority ((ClientView.new 2).ticks [watching [crate 7 10.0, crate 8 20.0]]).1
            (watching [crate 7 900.0, crate 8 20.0]) e) := by
  refine exits_and_deferrals 2 ?_
  intro c hc
  simp only [List.cons_append, List.nil_append, List.mem_cons, List.not_mem_nil, or_false] at hc
  rcases hc with rfl | rfl | rfl
  · exact wellPosed_watching (by decide)
  · exact wellPosed_watching (by decide)
  · exact wellPosed_watching (by decide)

end Priorities

end ClientView

end Baston.Zone
