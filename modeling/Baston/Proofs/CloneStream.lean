/-
The clone stream of one client, read in order.

For each object id the stream should read as create, syncs, remove, create again, each
record naming the entity that is there.  A view entry remembers that its client has an
entity, but not which one: when the id is reused while the entry lives, the entry
takes the new uniqifier and stays created.  And an entry that waits for its create
leaves scope like any other, with a remove.  Apart from these two the stream is well
formed.
-/
import Baston.Proofs.Tick

namespace Baston.Zone

open Assoc Baston.Rage

variable {F : Type}

/-- A record about one object id, as the client sees it. -/
inductive CloneEvent
  | create (uniqifier : UInt16)
  | sync (uniqifier : UInt16)
  | remove (uniqifier : UInt16)
  deriving DecidableEq

/-- Whether a client that currently has the entity with uniqifier `held` under an id, if any,
can follow the records about that id. -/
def wellFormed : Option UInt16 → List CloneEvent → Bool
  | _, [] => true
  | _, .create u :: rest => wellFormed (some u) rest
  | held, .sync u :: rest => held = some u && wellFormed held rest
  | held, .remove u :: rest => held = some u && wellFormed none rest

namespace ClientView

variable [Scalar F]

/-- The records of a plan about `id`; a create or sync carries the uniqifier of the entity. -/
def planEvents (ctx : TickContext F) (plan : TickPlan) (id : UInt16) : List CloneEvent :=
  let uniqifier := (ctx.world.find? fun e => e.objectId = id).map (·.uniqifier)
  (plan.about id).filterMap fun a =>
    match a with
    | .create => uniqifier.map .create
    | .sync => uniqifier.map .sync
    | .remove u => some (.remove u)

/-- The records about `id` over a sequence of ticks. -/
def stream (id : UInt16) : ClientView F → List (TickContext F) → List CloneEvent
  | _, [] => []
  | view, ctx :: rest =>
    planEvents ctx (view.tickWithContext ctx).2 id ++ stream id (view.tickWithContext ctx).1 rest

/-- A tick that finds no created entry under a reused id, and lets no entry go that still
waits for its create. -/
def steady (view : ClientView F) (ctx : TickContext F) : Bool :=
  ((view.relevantList ctx).all fun e => (view.views.lookup e.objectId).all fun v =>
    !v.created || v.uniqifier = e.uniqifier) &&
  (view.leaving ctx).all fun r => (view.views.lookup r.1).all fun v => v.created

/-- Every tick of a sequence is steady for the view it finds. -/
def steadyRun : ClientView F → List (TickContext F) → Bool
  | _, [] => true
  | view, ctx :: rest => view.steady ctx && steadyRun (view.tickWithContext ctx).1 rest

theorem steady_iff {view : ClientView F} {ctx : TickContext F} : view.steady ctx = true ↔
    (∀ e ∈ view.relevantList ctx, ∀ v, view.views.lookup e.objectId = some v →
      v.created = true → v.uniqifier = e.uniqifier) ∧
    ∀ r ∈ view.leaving ctx, ∀ v, view.views.lookup r.1 = some v → v.created = true := by
  unfold steady
  simp only [Bool.and_eq_true, List.all_eq_true, Option.all_eq_true, Bool.or_eq_true,
    Bool.not_eq_true', decide_eq_true_eq]
  constructor
  · rintro ⟨h1, h2⟩
    refine ⟨fun e he v hv hc => ?_, h2⟩
    rcases h1 e he v hv with hnot | heq
    · rw [hc] at hnot
      exact absurd hnot (by simp)
    · exact heq
  · rintro ⟨h1, h2⟩
    refine ⟨fun e he v hv => ?_, h2⟩
    cases hc : v.created with
    | false => exact .inl rfl
    | true => exact .inr (h1 e he v hv hc)

/-- The uniqifier of the entity the view believes its client has under an entry. -/
def held (v : Option (EntityView F)) : Option UInt16 :=
  v.bind fun v => if v.created then some v.uniqifier else none

omit [Scalar F] in
theorem wellFormed_append_one {held held' : Option UInt16} {evs rest : List CloneEvent}
    (hevs : evs = [] ∧ held' = held ∨
      (∃ u, evs = [.create u] ∧ held' = some u) ∨
      (∃ u, evs = [.sync u] ∧ held = some u ∧ held' = held) ∨
      (∃ u, evs = [.remove u] ∧ held = some u ∧ held' = none))
    (hrest : wellFormed held' rest = true) : wellFormed held (evs ++ rest) = true := by
  rcases hevs with ⟨rfl, rfl⟩ | ⟨u, rfl, rfl⟩ | ⟨u, rfl, rfl, rfl⟩ | ⟨u, rfl, rfl, rfl⟩
  · exact hrest
  · exact hrest
  · simpa [wellFormed] using hrest
  · simpa [wellFormed] using hrest

/-- One steady tick, one id: the records fit what the client has, and the view knows it. -/
theorem tick_events {view : ClientView F} {ctx : TickContext F} (h : WellPosed ctx)
    (hsteady : view.steady ctx = true) (id : UInt16) :
    let evs := planEvents ctx (view.tickWithContext ctx).2 id
    let before := held (view.views.lookup id)
    let after := held ((view.tickWithContext ctx).1.views.lookup id)
    evs = [] ∧ after = before ∨
      (∃ u, evs = [.create u] ∧ after = some u) ∨
      (∃ u, evs = [.sync u] ∧ before = some u ∧ after = before) ∨
      (∃ u, evs = [.remove u] ∧ before = some u ∧ after = none) := by
  obtain ⟨hreuse, hleave⟩ := steady_iff.mp hsteady
  have hfind : ∀ {e}, view.relevant ctx id = some e →
      (ctx.world.find? fun e => e.objectId = id) = some e := by
    intro e hr
    obtain ⟨he, rfl⟩ := relevant_eq_some hr
    exact find?_key_of_mem h.distinct (mem_world_of_mem_nearby (List.mem_filter.mp he).1)
  -- a created entry of a relevant entity carries the entity's uniqifier
  have hsame : ∀ {e}, view.relevant ctx id = some e →
      held (some (refreshed ctx e (view.views.lookup id))) = held (view.views.lookup id) := by
    intro e hr
    obtain ⟨he, rfl⟩ := relevant_eq_some hr
    cases hv : view.views.lookup e.objectId with
    | none => rfl
    | some v =>
        cases hc : v.created with
        | false => simp [held, refreshed, hc]
        | true => simp [held, refreshed, hc, hreuse e he v hv hc]
  intro evs before after
  have heff := view.tick_effect h id
  generalize hview : view.views.lookup id = v0 at heff
  generalize hrel : view.relevant ctx id = rel at heff
  generalize hab : (view.tickWithContext ctx).2.about id = acts at heff
  generalize hafter : (view.tickWithContext ctx).1.views.lookup id = v1 at heff
  simp only [evs, before, after, planEvents, hab, hafter]
  cases heff with
  | outside => exact .inl ⟨rfl, by rw [hview]⟩
  | @exits v reached =>
      have hc := hleave _ reached v hview
      refine .inr (.inr (.inr ⟨v.uniqifier, rfl, ?_, rfl⟩))
      rw [hview]
      simp [held, hc]
  | lingers => exact .inl ⟨rfl, by rw [hview]; rfl⟩
  | @creates _ e _ =>
      refine .inr (.inl ⟨e.uniqifier, ?_, by simp [held, sentView, refreshed]⟩)
      rw [hfind hrel]
      rfl
  | @syncs _ e known _ =>
      have hheld : held (some (refreshed ctx e v0)) = some e.uniqifier := by
        unfold held
        rw [Option.bind_some, known]
        rfl
      have hbefore : held v0 = some e.uniqifier := by
        rw [← hview, ← hsame hrel, hview]
        exact hheld
      refine .inr (.inr (.inl ⟨e.uniqifier, ?_, by rw [hview]; exact hbefore, ?_⟩))
      · rw [hfind hrel]
        rfl
      · rw [hview, hbefore]
        simp [held, sentView, refreshed]
  | waits =>
      refine .inl ⟨rfl, ?_⟩
      rw [← hsame hrel, hview]
  | idles =>
      refine .inl ⟨rfl, ?_⟩
      rw [← hsame hrel, hview]

/-- A whole sequence of steady ticks, from any view. -/
theorem stream_wellFormed (id : UInt16) : ∀ (ctxs : List (TickContext F)) (view : ClientView F),
    (∀ ctx ∈ ctxs, WellPosed ctx) → steadyRun view ctxs = true →
      wellFormed (held (view.views.lookup id)) (stream id view ctxs) = true := by
  intro ctxs
  induction ctxs with
  | nil =>
      intro view _ _
      rfl
  | cons ctx rest ih =>
      intro view hposed hrun
      rw [steadyRun, Bool.and_eq_true] at hrun
      refine wellFormed_append_one (tick_events (hposed ctx List.mem_cons_self) hrun.1 id) ?_
      exact ih _ (fun c hc => hposed c (List.mem_cons_of_mem _ hc)) hrun.2

/-- **The clone stream is well formed** when every tick is steady: over any sequence of worlds,
buckets, focus points and budgets, a sync names the entity the client was sent a create
for and no remove since, and so does a remove. -/
theorem clone_stream_wellFormed (netId : UInt16) (ctxs : List (TickContext F))
    (hposed : ∀ ctx ∈ ctxs, WellPosed ctx) (hsteady : steadyRun (ClientView.new netId) ctxs = true)
    (id : UInt16) : wellFormed none (stream id (ClientView.new netId) ctxs) = true :=
  stream_wellFormed id ctxs (ClientView.new netId) hposed hsteady

/-! ### Three streams -/

/-- A tick of a client at the origin over `world`, with `budget` bytes to spend. -/
def originTick (world : List (EntitySnapshot Float32)) (budget : Nat) :
    TickContext Float32 where
  focus := Vec3.zero
  focusVelocity := Vec3.zero
  routingBucket := 0
  world := world
  index := SpatialIndex.build world InterestConfig.standard.queryRadius
  cfg := { InterestConfig.standard with budgetBytes := budget }

/-- An object of client 9 at the origin. -/
def originObject (objectId uniqifier : UInt16) (frameIndex : UInt64) :
    EntitySnapshot Float32 where
  objectId := objectId
  uniqifier := uniqifier
  owner := 9
  position := Vec3.zero
  velocity := Vec3.zero
  entityType := .object
  routingBucket := 0
  frameIndex := frameIndex
  dataLen := 4

theorem originTick_wellPosed {world : List (EntitySnapshot Float32)} {budget : Nat}
    (h : (world.map (·.objectId)).Nodup) : WellPosed (originTick world budget) :=
  ⟨⟨_, rfl⟩, h⟩

/-- An object comes, changes and goes. -/
def comesAndGoes : List (TickContext Float32) :=
  [originTick [originObject 5 1 1] 1000, originTick [originObject 5 1 2] 1000, originTick [] 1000]

theorem comesAndGoes_wellFormed :
    stream 5 (ClientView.new 2) comesAndGoes = [.create 1, .sync 1, .remove 1] ∧
      wellFormed none (stream 5 (ClientView.new 2) comesAndGoes) = true := by
  refine ⟨by decide +kernel, clone_stream_wellFormed 2 comesAndGoes ?_ (by decide +kernel) 5⟩
  intro ctx hctx
  simp only [comesAndGoes, List.mem_cons, List.not_mem_nil, or_false] at hctx
  rcases hctx with rfl | rfl | rfl
  · exact originTick_wellPosed (by decide)
  · exact originTick_wellPosed (by decide)
  · exact originTick_wellPosed (by decide)

/-- Under a reused id the client is sent a sync of an entity it was never sent; and an entity
that leaves before the budget reached its create is removed from a client that never
had it. -/
theorem reuse_and_early_exit_not_wellFormed :
    (stream 5 (ClientView.new 2)
        [originTick [originObject 5 1 1] 1000, originTick [originObject 5 2 2] 1000]
          = [.create 1, .sync 2] ∧
      wellFormed none (stream 5 (ClientView.new 2)
        [originTick [originObject 5 1 1] 1000, originTick [originObject 5 2 2] 1000]) = false) ∧
    (stream 6 (ClientView.new 2)
        [originTick [originObject 5 1 1, originObject 6 1 1] 1, originTick [originObject 5 1 1] 1]
          = [.remove 1] ∧
      wellFormed none (stream 6 (ClientView.new 2)
        [originTick [originObject 5 1 1, originObject 6 1 1] 1,
          originTick [originObject 5 1 1] 1]) = false) := by
  refine ⟨⟨?_, ?_⟩, ?_, ?_⟩
  · decide +kernel
  · decide +kernel
  · decide +kernel
  · decide +kernel

end ClientView

end Baston.Zone
