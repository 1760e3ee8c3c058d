/-
Scope exits over many ticks.

A tick removes the first few of the entries that are out of scope and leaves the rest in
the view for the next.  What is left is the tail of a list with distinct ids, so as long
as nothing else leaves scope the pending exits go down by the budget with every tick, and
every one of them is written into exactly one plan.
-/
import Baston.Proofs.Tick

namespace Baston.Zone

open Assoc Baston.Rage

variable {F : Type}

/-- Every id a plan names, in the order it names them. -/
def TickPlan.ids (plan : TickPlan) : List UInt16 :=
  plan.creates ++ plan.syncs ++ plan.removes.map (·.1)

/-- How many times plans remove an id. -/
def removals (id : UInt16) (plans : List TickPlan) : Nat :=
  ((plans.flatMap (·.removes)).filter (·.1 = id)).length

theorem removals_cons (id : UInt16) (plan : TickPlan) (plans : List TickPlan) :
    removals id (plan :: plans)
      = (plan.removes.filter (·.1 = id)).length + removals id plans := by
  unfold removals
  rw [List.flatMap_cons, List.filter_append, List.length_append]

theorem TickPlan.length_about (plan : TickPlan) (id : UInt16) :
    (plan.about id).length = (plan.ids.filter (· = id)).length := by
  unfold about ids
  simp only [List.length_append, List.length_map, List.filter_append, List.filter_map]
  rfl

/-- The plan sends the id, as a create or as a sync. -/
def TickPlan.Sends (plan : TickPlan) (id : UInt16) : Prop := id ∈ plan.creates ∨ id ∈ plan.syncs

theorem TickPlan.sends_iff_about {plan : TickPlan} {id : UInt16} :
    plan.Sends id ↔ .create ∈ plan.about id ∨ .sync ∈ plan.about id := by
  unfold Sends about
  simp

namespace ClientView

variable [Scalar F]

/-- One tick after another: the view they leave, and their plans. -/
def ticks : ClientView F → List (TickContext F) → ClientView F × List TickPlan
  | view, [] => (view, [])
  | view, ctx :: rest =>
    let (view', plan) := view.tickWithContext ctx
    let (last, plans) := view'.ticks rest
    (last, plan :: plans)

theorem ticks_cons (view : ClientView F) (ctx : TickContext F) (rest : List (TickContext F)) :
    view.ticks (ctx :: rest)
      = (((view.tickWithContext ctx).1.ticks rest).1,
        (view.tickWithContext ctx).2 :: ((view.tickWithContext ctx).1.ticks rest).2) := rfl

/-- How many entries are out of scope in a tick. -/
def pending (view : ClientView F) (ctx : TickContext F) : Nat :=
  (exited (view.mark ctx).1).length

/-- The entity is out of scope in every one of these ticks. -/
def OutOfScope (id : UInt16) : ClientView F → List (TickContext F) → Prop
  | _, [] => True
  | view, ctx :: rest =>
    view.relevant ctx id = none ∧ OutOfScope id (view.tickWithContext ctx).1 rest

/-- After the first of these ticks nothing leaves scope: what is out of scope in a tick was so
in the one before. -/
def NothingLeaves : ClientView F → List (TickContext F) → Prop
  | view, ctx :: next :: rest =>
    (∀ r ∈ exited ((view.tickWithContext ctx).1.mark next).1,
      r.1 ∈ (exited (view.mark ctx).1).map (·.1))
      ∧ NothingLeaves (view.tickWithContext ctx).1 (next :: rest)
  | _, _ => True

/-! ### One plan -/

theorem send_removes (cfg : InterestConfig F) (fill : Fill F) (c : Candidate F) :
    (send cfg fill c).plan.removes = fill.plan.removes := by
  unfold send
  split
  · rfl
  · split
    · rfl
    · simp only
      split
      · rfl
      · split
        · rfl
        · rfl

theorem foldl_send_removes (cfg : InterestConfig F) : ∀ (l : List (Candidate F)) (fill : Fill F),
    (l.foldl (send cfg) fill).plan.removes = fill.plan.removes := by
  intro l
  induction l with
  | nil =>
      intro fill
      rfl
  | cons c rest ih =>
      intro fill
      rw [List.foldl_cons, ih, send_removes]

/-- The removes of a plan are the exits the budget reaches. -/
theorem removes_tick (view : ClientView F) (ctx : TickContext F) :
    (view.tickWithContext ctx).2.removes = view.leaving ctx := by
  rw [tickWithContext_eq]
  exact foldl_send_removes ctx.cfg (view.sendOrder ctx) (view.startFill ctx)

/-- **A plan keeps to the remove budget.** -/
theorem removes_within (view : ClientView F) (ctx : TickContext F) :
    (view.tickWithContext ctx).2.removes.length ≤ maxRemoves ctx.cfg := by
  rw [removes_tick]
  exact List.length_take_le _ _

/-- A plan says at most one thing about an id. -/
theorem about_le_one (view : ClientView F) {ctx : TickContext F} (h : WellPosed ctx)
    (id : UInt16) : ((view.tickWithContext ctx).2.about id).length ≤ 1 := by
  have heffect := view.tick_effect h id
  revert heffect
  generalize view.views.lookup id = before
  generalize view.relevant ctx id = e
  generalize (view.tickWithContext ctx).2.about id = acts
  generalize (view.tickWithContext ctx).1.views.lookup id = after
  intro heffect
  cases heffect <;> simp

/-- **A plan names no id twice**, be it in one of its lists or across them. -/
theorem nodup_ids (view : ClientView F) {ctx : TickContext F} (h : WellPosed ctx) :
    (view.tickWithContext ctx).2.ids.Nodup := by
  refine List.nodup_iff_count_le_one.mpr fun id => ?_
  have hone := view.about_le_one h id
  rw [TickPlan.length_about] at hone
  rw [List.count, List.countP_eq_length_filter]
  refine le_trans (le_of_eq ?_) hone
  congr 2

/-! ### One exit -/

/-- What a tick does about an entry that is out of scope. -/
theorem tick_exit (view : ClientView F) {ctx : TickContext F} (h : WellPosed ctx)
    {id : UInt16} {v : EntityView F} (hv : view.views.lookup id = some v)
    (hr : view.relevant ctx id = none) :
    (((view.tickWithContext ctx).2.removes.filter (·.1 = id)).length = 1
        ∧ (view.tickWithContext ctx).1.views.lookup id = none)
      ∨ (((view.tickWithContext ctx).2.removes.filter (·.1 = id)).length = 0
        ∧ (view.tickWithContext ctx).1.views.lookup id = some (unseen v)
        ∧ maxRemoves ctx.cfg < view.pending ctx) := by
  have hlength : ∀ acts, (view.tickWithContext ctx).2.about id = acts →
      ((view.tickWithContext ctx).2.removes.filter (·.1 = id)).length
        = (acts.filter fun a => a matches .remove _).length := by
    rintro acts rfl
    unfold TickPlan.about
    simp only [List.filter_append, List.filter_map, List.length_append, List.length_map]
    simp [Function.comp_def]
  have heffect := view.tick_irrelevant h hr
  rw [hv] at heffect
  generalize hacts : (view.tickWithContext ctx).2.about id = acts at heffect
  generalize hafter : (view.tickWithContext ctx).1.views.lookup id = after at heffect
  cases heffect with
  | exits reached => exact .inl ⟨hlength _ hacts, rfl⟩
  | lingers beyond => exact .inr ⟨hlength _ hacts, rfl, beyond⟩

/-- A tick does nothing about an id that is neither in the view nor in scope. -/
theorem tick_outside (view : ClientView F) {ctx : TickContext F} (h : WellPosed ctx)
    {id : UInt16} (hv : view.views.lookup id = none) (hr : view.relevant ctx id = none) :
    ((view.tickWithContext ctx).2.removes.filter (·.1 = id)).length = 0
      ∧ (view.tickWithContext ctx).1.views.lookup id = none := by
  have heffect := view.tick_irrelevant h hr
  rw [hv] at heffect
  generalize hacts : (view.tickWithContext ctx).2.about id = acts at heffect
  generalize hafter : (view.tickWithContext ctx).1.views.lookup id = after at heffect
  cases heffect with
  | outside =>
      unfold TickPlan.about at hacts
      simp only [List.append_eq_nil_iff, List.map_eq_nil_iff] at hacts
      rw [hacts.2]
      exact ⟨rfl, rfl⟩

/-- What was out of scope and not reached is what is left of the exits. -/
theorem pending_next (view : ClientView F) {ctx next : TickContext F} (h : WellPosed ctx)
    (h' : WellPosed next)
    (hnone : ∀ r ∈ exited ((view.tickWithContext ctx).1.mark next).1,
      r.1 ∈ (exited (view.mark ctx).1).map (·.1)) :
    (view.tickWithContext ctx).1.pending next ≤ view.pending ctx - maxRemoves ctx.cfg := by
  have hsubset : (exited ((view.tickWithContext ctx).1.mark next).1).map (·.1)
      ⊆ ((exited (view.mark ctx).1).drop (maxRemoves ctx.cfg)).map (·.1) := by
    intro id hid
    obtain ⟨r, hr, rfl⟩ := List.mem_map.mp hid
    have hbefore := hnone r hr
    rw [← List.take_append_drop (maxRemoves ctx.cfg) (exited (view.mark ctx).1),
      List.map_append, List.mem_append] at hbefore
    rcases hbefore with hleft | hkept
    · -- an id that left is not in the view any more
      exfalso
      obtain ⟨⟨k, u⟩, hleave, heq⟩ := List.mem_map.mp hleft
      obtain ⟨hirrelevant, v, hv, -⟩ := mem_leaving h hleave
      obtain ⟨w, hw, hseen, -⟩ := mem_exited.mp (show (r.1, r.2) ∈ _ from hr)
      rw [← show k = r.1 from heq] at hw
      have hgone : (view.tickWithContext ctx).1.views.lookup k = none := by
        rcases view.tick_exit h hv hirrelevant with ⟨-, hgone⟩ | ⟨hzero, -⟩
        · exact hgone
        · rw [removes_tick, List.length_eq_zero_iff, List.filter_eq_nil_iff] at hzero
          exact absurd (by simp) (hzero (k, u) hleave)
      rw [((view.tickWithContext ctx).1.mark_spec h').1 k, hgone] at hw
      cases hrel : (view.tickWithContext ctx).1.relevant next k with
      | none =>
          rw [hrel] at hw
          exact absurd hw (by simp)
      | some e =>
          rw [hrel] at hw
          rw [← Option.some.inj hw] at hseen
          exact absurd hseen (by simp [refreshed])
    · exact hkept
  have hlength := (List.subperm_of_subset (nodup_exited _) hsubset).length_le
  rw [List.length_map, List.length_map, List.length_drop] at hlength
  exact hlength

/-! ### Every exit -/

/-- An id that is neither in the view nor in scope is not named again. -/
theorem ticks_outside {id : UInt16} : ∀ {ctxs : List (TickContext F)} {view : ClientView F},
    (∀ ctx ∈ ctxs, WellPosed ctx) → OutOfScope id view ctxs → view.views.lookup id = none →
      removals id (view.ticks ctxs).2 = 0 ∧ (view.ticks ctxs).1.views.lookup id = none := by
  intro ctxs
  induction ctxs with
  | nil =>
      intro view _ _ hv
      exact ⟨rfl, hv⟩
  | cons ctx rest ih =>
      intro view hposed hout hv
      obtain ⟨hzero, hgone⟩ := view.tick_outside (hposed ctx List.mem_cons_self) hv hout.1
      obtain ⟨hlater, hlast⟩ :=
        ih (fun c hc => hposed c (List.mem_cons_of_mem _ hc)) hout.2 hgone
      rw [ticks_cons]
      exact ⟨by rw [removals_cons, hzero, hlater], hlast⟩

/-- **No exit is lost and none is removed twice.**  An entry out of scope is either removed, once,
or still in the view. -/
theorem exit_once {id : UInt16} : ∀ {ctxs : List (TickContext F)} {view : ClientView F}
    {v : EntityView F}, (∀ ctx ∈ ctxs, WellPosed ctx) → OutOfScope id view ctxs →
      view.views.lookup id = some v →
      (removals id (view.ticks ctxs).2 = 1 ∧ (view.ticks ctxs).1.views.lookup id = none)
        ∨ (removals id (view.ticks ctxs).2 = 0
          ∧ ((view.ticks ctxs).1.views.lookup id).isSome = true) := by
  intro ctxs
  induction ctxs with
  | nil =>
      intro view v _ _ hv
      refine .inr ⟨rfl, ?_⟩
      show (view.views.lookup id).isSome = true
      rw [hv]
      rfl
  | cons ctx rest ih =>
      intro view v hposed hout hv
      have hrest : ∀ c ∈ rest, WellPosed c := fun c hc => hposed c (List.mem_cons_of_mem _ hc)
      rw [ticks_cons, removals_cons]
      rcases view.tick_exit (hposed ctx List.mem_cons_self) hv hout.1 with
        ⟨hone, hgone⟩ | ⟨hzero, hkept, -⟩
      · obtain ⟨hlater, hlast⟩ := ticks_outside hrest hout.2 hgone
        exact .inl ⟨by rw [hone, hlater], hlast⟩
      · rw [hzero, Nat.zero_add]
        exact ih hrest hout.2 hkept

/-- **Every exit is removed in time**: with at least `m` removes a tick, and nothing else leaving
scope, `m` times the ticks need only cover what was pending at first. -/
theorem exit_in_time {id : UInt16} {m : Nat} :
    ∀ {rest : List (TickContext F)} {ctx : TickContext F} {view : ClientView F}
      {v : EntityView F}, (∀ c ∈ ctx :: rest, WellPosed c) →
      (∀ c ∈ ctx :: rest, m ≤ maxRemoves c.cfg) → OutOfScope id view (ctx :: rest) →
      NothingLeaves view (ctx :: rest) → view.views.lookup id = some v →
      view.pending ctx ≤ m * (ctx :: rest).length →
      removals id (view.ticks (ctx :: rest)).2 = 1 := by
  intro rest
  induction rest with
  | nil =>
      intro ctx view v hposed hbudget hout hnone hv hpending
      rw [ticks_cons, removals_cons]
      rcases view.tick_exit (hposed ctx List.mem_cons_self) hv hout.1 with
        ⟨hone, -⟩ | ⟨-, -, hbeyond⟩
      · rw [hone]
        rfl
      · have := hbudget ctx List.mem_cons_self
        simp only [List.length_cons, List.length_nil] at hpending
        omega
  | cons next rest ih =>
      intro ctx view v hposed hbudget hout hnone hv hpending
      have hrest : ∀ c ∈ next :: rest, WellPosed c :=
        fun c hc => hposed c (List.mem_cons_of_mem _ hc)
      rw [ticks_cons, removals_cons]
      rcases view.tick_exit (hposed ctx List.mem_cons_self) hv hout.1 with
        ⟨hone, hgone⟩ | ⟨hzero, hkept, hbeyond⟩
      · rw [hone, (ticks_outside hrest hout.2 hgone).1]
      · rw [hzero, Nat.zero_add]
        refine ih hrest (fun c hc => hbudget c (List.mem_cons_of_mem _ hc)) hout.2 hnone.2 hkept ?_
        have hless := view.pending_next (hposed ctx List.mem_cons_self)
          (hrest next List.mem_cons_self) hnone.1
        have hfirst := hbudget ctx List.mem_cons_self
        simp only [List.length_cons, Nat.mul_add] at hpending ⊢
        omega

end ClientView

end Baston.Zone
