/-
A client whose delta snapshots may get lost.

A snapshot that creates or removes something arrives, and arrives in order; one of deltas alone
may be shed on the way.  What the gateway believes the client has moves on all the same, so a
field whose last change was lost is told again only if it changes once more.
-/
import Baston.Proofs.PushLoop

namespace Baston.Gateway

open Assoc Trace Baston.Rage Baston.Zone

variable {F : Type}

deriving instance DecidableEq for EntityExtra
deriving instance DecidableEq for EntityState

namespace PushLoop

variable [Scalar F]

/-! ### Once the world has stopped changing -/

section Settling

variable [BEq F] {source : UInt32} {k : EntityId} {s s' : PushLoop F} {a : List (EntityOp F)}

omit [Scalar F] [BEq F] in
/-- The grid was built after the world last changed. -/
def fresh : List (Done F) → Bool
  | [] => true
  | e :: past =>
    match e.op with
    | .merge _ _ => false
    | .build _ => true
    | _ => fresh past

omit [BEq F] in
/-- A push to a client that does not know the entity, or may be told about it again. -/
def mayTell (source : UInt32) (k : EntityId) (s : PushLoop F) (event : Event F) : Bool :=
  event.time.any fun now => (viewpoint source s).any fun center =>
    (known source s k).all fun last => (s.aggregator.worldState.lookup k).all fun state =>
      due now center last.1 state

omit [BEq F] in
/-- Since the world last changed, a push over a grid of it could tell about the entity. -/
def caught (source : UInt32) (k : EntityId) : List (Done F) → Bool
  | [] => false
  | e :: past =>
    match e.op with
    | .merge _ _ => false
    | .push _ _ _ _ => caught source k past || (fresh past && mayTell source k e.pre e.op)
    | _ => caught source k past

/-- The world has stopped changing, the entity is in range at the last push, and its update
interval has passed since. -/
structure Settled (source : UInt32) (k : EntityId) (center : Vec3 F) (state : EntityState F)
    (past : List (Done F)) (s : PushLoop F) : Prop where
  world : s.aggregator.worldState.lookup k = some state
  sees : sees source center s.aggregator.aoiRadius state = true
  pushed : ∃ e before, past = e :: before ∧ e.op.time.isSome = true
    ∧ viewpoint source e.pre = some center ∧ fresh before = true
  caught : caught source k past = true

variable {ingest : StateIngest F} {aoiRadius : F} {past : List (Done F)}

theorem fresh_grid (run : Run (PushLoop.step source) (start ingest aoiRadius) past s)
    (h : fresh past = true) :
    ∃ ord, s.grid = .build ord s.aggregator.worldState s.aggregator.aoiRadius := by
  induction run with
  | nil => exact ⟨.stored _, rfl⟩
  | @snoc past s s' event a run hstep ih =>
      cases event with
      | merge batch labelled => cases h
      | players ingest =>
          obtain ⟨rfl, -⟩ := Prod.mk.inj (Option.some.inj hstep)
          exact ih h
      | build ord =>
          obtain ⟨rfl, -⟩ := Prod.mk.inj (Option.some.inj hstep)
          exact ⟨ord, rfl⟩
      | push ord now tick shed =>
          have hbefore := ih h
          have hfiled : Filed source s := run.safe (filed_start _ _) fun hf hs => hf.step hs
          cases hview : viewpoint source s with
          | none =>
              obtain ⟨rfl, -⟩ := push_idle hview hstep
              exact hbefore
          | some center =>
              have hpush := push_at hfiled hview hstep 0
              rw [hpush.grid, hpush.world, hpush.radius]
              exact hbefore

omit [BEq F] in
/-- Over a grid of the current world the client sees what is within the radius and covered. -/
theorem glance_fresh (h : Filed source s) {ord : IterOrder EntityId}
    (hgrid : s.grid = .build ord s.aggregator.worldState s.aggregator.aoiRadius) {center : Vec3 F}
    {state : EntityState F} :
    glance source s center k = some state ↔ s.aggregator.worldState.lookup k = some state
      ∧ SpatialGrid.Covers s.aggregator.aoiRadius center state.coords
      ∧ sees source center s.aggregator.aoiRadius state = true := by
  rw [mem_glance h, hgrid, SpatialGrid.mem_candidates h.world]
  constructor
  · rintro ⟨⟨hworld, hcovers⟩, rfl, hsees⟩
    exact ⟨hworld, hcovers, hsees⟩
  · rintro ⟨hworld, hcovers, hsees⟩
    obtain rfl := h.world k state hworld
    exact ⟨⟨hworld, hcovers⟩, rfl, hsees⟩

/-- A push that is due, or finds the baseline right, leaves it right. -/
theorem baseline_after (hfiled : Filed source s) {ord : IterOrder EntityId}
    (hgrid : s.grid = .build ord s.aggregator.worldState s.aggregator.aoiRadius) {center : Vec3 F}
    {now : Nat} {event : Event F} (hpush : PushAt source k now center event s s' a)
    (hlast : ∀ last, known source s k = some last → ∀ state,
      s.aggregator.worldState.lookup k = some state → glance source s center k = some state →
      last.2 = state ∨ (due now center last.1 state = true ∧ Tellable last.2 state)) :
    ∀ last, known source s' k = some last →
      s'.aggregator.worldState.lookup k = some last.2 := by
  intro last hafter
  rw [hpush.sent] at hafter
  obtain ⟨state, hseen, hafter⟩ := Option.bind_eq_some_iff.mp hafter
  have hworld := ((glance_fresh hfiled hgrid).mp hseen).1
  rw [hpush.world, hworld]
  refine congrArg some ?_
  cases hop : react now center (known source s k) state with
  | some op =>
      rw [hop] at hafter
      rw [← Option.some.inj hafter]
  | none =>
      rw [hop] at hafter
      have hbefore : known source s k = some last := hafter
      rcases hlast last hbefore state hworld hseen with hsame | ⟨hdue, htellable⟩
      · exact hsame.symm
      · rw [hbefore] at hop
        unfold react at hop
        simp only [] at hop
        rw [if_pos hdue, Option.map_eq_none_iff] at hop
        refine (Field.eq_of_same ?_ htellable.entityType htellable.modelHash fun f => ?_).symm
        · rw [hfiled.tracked k last hbefore, hfiled.world k state hworld]
        · exact Field.same_of_tellable htellable (Field.differs_of_no_delta hop f)

omit [BEq F] in
theorem fresh_of_caught : ∀ {past : List (Done F)}, caught source k past = true →
    fresh past = true := by
  intro past
  induction past with
  | nil => exact fun h => nomatch h
  | cons e past ih =>
      intro h
      obtain ⟨s, event, a, s'⟩ := e
      cases event with
      | merge batch labelled => cases h
      | players ingest => exact ih h
      | build ord => rfl
      | push ord now tick shed =>
          rcases Bool.or_eq_true_iff.mp h with hbefore | hnow
          · exact ih hbefore
          · exact (Bool.and_eq_true_iff.mp hnow).1

/-- Once the gateway had the occasion, what it believes the client has is the world's state. -/
theorem caught_baseline (run : Run (PushLoop.step source) (start ingest aoiRadius) past s)
    (htells : Along (fun _ e => Tells source k e) past) (h : caught source k past = true) :
    ∀ last, known source s k = some last → s.aggregator.worldState.lookup k = some last.2 := by
  induction run with
  | nil => cases h
  | @snoc past s s' event a run hstep ih =>
      cases event with
      | merge batch labelled => cases h
      | players ingest =>
          obtain ⟨rfl, -⟩ := Prod.mk.inj (Option.some.inj hstep)
          exact ih htells.2 h
      | build ord =>
          obtain ⟨rfl, -⟩ := Prod.mk.inj (Option.some.inj hstep)
          exact ih htells.2 h
      | push ord now tick shed =>
          have hcases : caught source k past = true
              ∨ (fresh past && mayTell source k s (.push ord now tick shed)) = true :=
            Bool.or_eq_true_iff.mp h
          cases hview : viewpoint source s with
          | none =>
              obtain ⟨rfl, -⟩ := push_idle hview hstep
              rcases hcases with hbefore | hnow
              · exact ih htells.2 hbefore
              · simp [mayTell, hview, Event.time] at hnow
          | some center =>
              have hfiled := (run_tracks run htells.2).1
              have hfresh : fresh (⟨s, .push ord now tick shed, a, s'⟩ :: past) = true :=
                fresh_of_caught h
              obtain ⟨ord', hgrid⟩ := fresh_grid run hfresh
              refine baseline_after hfiled hgrid (push_at hfiled hview hstep k) ?_
              intro last hlast state hworld hseen
              rcases hcases with hbefore | hnow
              · refine .inl (Option.some.inj ?_)
                rw [← ih htells.2 hbefore last hlast, hworld]
              · have hdue : due now center last.1 state = true := by
                  simpa [mayTell, hview, hlast, hworld, Event.time] using
                    (Bool.and_eq_true_iff.mp hnow).2
                exact .inr ⟨hdue, htells.1 now rfl center hview state hseen last hlast hdue⟩

/-- What the client sees, the gateway has sent it. -/
theorem known_of_seen {now : Nat} {center : Vec3 F} {event : Event F}
    (hpush : PushAt source k now center event s s' a) {state : EntityState F}
    (hseen : glance source s center k = some state) : ∃ last, known source s' k = some last := by
  rw [hpush.sent, hseen, Option.bind_some]
  cases hlast : known source s k with
  | none => exact ⟨_, rfl⟩
  | some last =>
      cases react now center (some last) state with
      | none => exact ⟨last, rfl⟩
      | some op => exact ⟨_, rfl⟩

/-- The client's copy is right exactly when every field is repaired. -/
theorem Follows.copy_eq_iff {last copy : EntityState F} (h : Follows source k past last copy) :
    copy = last ↔ ∀ f, Repaired source k past f := by
  constructor
  · rintro rfl f told htold heard hheard
    obtain ⟨told', htold', hlast⟩ := h.told f
    obtain ⟨heard', hheard', hcopy⟩ := h.heard f
    obtain rfl := Option.some.inj (htold'.symm.trans htold)
    obtain rfl := Option.some.inj (hheard'.symm.trans hheard)
    exact hcopy.trans hlast.symm
  · intro hrepaired
    refine Field.eq_of_same h.entityId h.entityType h.modelHash ?_
    intro f
    obtain ⟨told, htold, hlast⟩ := h.told f
    obtain ⟨heard, hheard, hcopy⟩ := h.heard f
    exact (hcopy.symm.trans (hrepaired f told htold heard hheard)).trans hlast

theorem radius_step {event : Event F} (hstep : step source event s = some (s', a)) :
    s'.aggregator.aoiRadius = s.aggregator.aoiRadius := by
  cases event with
  | push ord now tick shed =>
      obtain ⟨rfl, -⟩ := Prod.mk.inj (Option.some.inj hstep)
      show (s.aggregator.pushToClient ord now tick source s.grid).1.aoiRadius = _
      unfold StateAggregator.pushToClient
      simp only []
      repeat' split
      all_goals rfl
  | _ =>
      obtain ⟨rfl, -⟩ := Prod.mk.inj (Option.some.inj hstep)
      rfl

theorem run_radius (run : Run (PushLoop.step source) (start ingest aoiRadius) past s) :
    s.aggregator.aoiRadius = aoiRadius :=
  run.safe (I := fun s => s.aggregator.aoiRadius = aoiRadius) rfl fun hradius hstep =>
    (radius_step hstep).trans hradius

/-- **A lost delta is repaired exactly when what it said was said again, or the client knew**:
once the world has stopped changing and an entity in range has been due, the client has the
world's state of it if and only if the grid hands it out and, of every field, what was last told
arrived or was no different from what did. -/
theorem lost_deltas_repaired_iff
    (run : Run (PushLoop.step source) (start ingest aoiRadius) past s)
    (htells : Along (fun _ e => Tells source k e) past) {center : Vec3 F} {state : EntityState F}
    (hsettled : Settled source k center state past s) :
    (replica past).lookup k = some state
      ↔ SpatialGrid.Covers aoiRadius center state.coords ∧ ∀ f, Repaired source k past f := by
  obtain ⟨hfiled, htracks⟩ := run_tracks run htells
  have hbaseline := caught_baseline run htells hsettled.caught
  have hradius := run_radius run
  obtain ⟨hworld, hsees, ⟨e, before, rfl, htime, hview, hfresh⟩, -⟩ := hsettled
  cases run with
  | @snoc _ s₀ _ event a run hstep =>
      cases event with
      | merge batch labelled => cases htime
      | players ingest => cases htime
      | build ord => cases htime
      | push ord now tick shed =>
          have hbefore := (run_tracks run htells.2).1
          have hpush := push_at hbefore hview hstep k
          obtain ⟨ord', hgrid⟩ := fresh_grid run hfresh
          have hseen : glance source s₀ center k = some state ↔ _ := glance_fresh hbefore hgrid
          rw [run_radius run, ← hpush.world] at hseen
          rw [hradius] at hsees
          unfold Tracks at htracks
          by_cases hcovers : SpatialGrid.Covers aoiRadius center state.coords
          · obtain ⟨last, hlast⟩ := known_of_seen hpush (hseen.mpr ⟨hworld, hcovers, hsees⟩)
            rw [hlast] at htracks
            obtain ⟨copy, hfollows⟩ := htracks
            have hstate : last.2 = state :=
              Option.some.inj ((hbaseline last hlast).symm.trans hworld)
            rw [hfollows.copied, Option.some_inj, ← hstate, hfollows.copy_eq_iff, hstate]
            exact (and_iff_right hcovers).symm
          · have hgone : known source s k = none := by
              rw [hpush.sent]
              cases hglance : glance source s₀ center k with
              | none => rfl
              | some other =>
                  have hother := (glance_fresh hbefore hgrid).mp hglance
                  rw [run_radius run, ← hpush.world, hworld] at hother
                  obtain rfl := Option.some.inj hother.1
                  exact absurd hother.2.1 hcovers
            rw [hgone] at htracks
            rw [htracks]
            constructor
            · exact fun h => nomatch h
            · exact fun h => absurd h.1 hcovers

end Settling

/-! ### A crate that is turned -/

section Crate

variable [BEq F] [DecidableEq F]

instance {α : Type} [BEq α] [DecidableEq α] (old new : α) : Decidable (Distinguished old new) :=
  inferInstanceAs (Decidable (_ → _))

instance (baseline state : EntityState F) : Decidable (Tellable baseline state) :=
  decidable_of_iff (baseline.entityType = state.entityType ∧ baseline.modelHash = state.modelHash
      ∧ Distinguished baseline.coords state.coords ∧ Distinguished baseline.heading state.heading
      ∧ Distinguished baseline.velocity state.velocity ∧ Distinguished baseline.health state.health
      ∧ Distinguished baseline.armour state.armour ∧ Distinguished baseline.extra state.extra)
    ⟨fun ⟨h1, h2, h3, h4, h5, h6, h7, h8⟩ => ⟨h1, h2, h3, h4, h5, h6, h7, h8⟩,
      fun h => ⟨h.1, h.2, h.3, h.4, h.5, h.6, h.7, h.8⟩⟩

instance (source : UInt32) (k : EntityId) (e : Done F) : Decidable (Tells source k e) :=
  inferInstanceAs (Decidable (∀ now ∈ e.op.time, ∀ center ∈ viewpoint source e.pre,
    ∀ state ∈ glance source e.pre center k, ∀ last ∈ known source e.pre k,
      due now center last.1 state = true → Tellable last.2 state))

instance (f : Field) (a b : EntityState F) : Decidable (f.Same a b) :=
  match f with
  | .coords => inferInstanceAs (Decidable (a.coords = b.coords))
  | .heading => inferInstanceAs (Decidable (a.heading = b.heading))
  | .velocity => inferInstanceAs (Decidable (a.velocity = b.velocity))
  | .health => inferInstanceAs (Decidable (a.health = b.health))
  | .armour => inferInstanceAs (Decidable (a.armour = b.armour))
  | .extra => inferInstanceAs (Decidable (a.extra = b.extra))
  | .networkOwner => inferInstanceAs (Decidable (a.networkOwner = b.networkOwner))

instance {P : Field → Prop} [DecidablePred P] : Decidable (∀ f, P f) :=
  decidable_of_iff (P .coords ∧ P .heading ∧ P .velocity ∧ P .health ∧ P .armour ∧ P .extra
      ∧ P .networkOwner)
    ⟨fun ⟨h1, h2, h3, h4, h5, h6, h7⟩ f => by cases f <;> assumption,
      fun h => ⟨h _, h _, h _, h _, h _, h _, h _⟩⟩

instance (source : UInt32) (k : EntityId) (past : List (Done F)) (f : Field) :
    Decidable (Repaired source k past f) :=
  inferInstanceAs (Decidable (∀ told ∈ lastTold source f k past,
    ∀ heard ∈ lastHeard source f k past, f.Same heard told))

instance (radius : F) (center p : Vec3 F) : Decidable (SpatialGrid.Covers radius center p) :=
  inferInstanceAs (Decidable (∃ dx ∈ SpatialGrid.around, ∃ dy ∈ SpatialGrid.around,
    SpatialGrid.cellOf (SpatialGrid.cellWidth radius) p
      = ((SpatialGrid.cellOf (SpatialGrid.cellWidth radius) center).1 + dx,
        (SpatialGrid.cellOf (SpatialGrid.cellWidth radius) center).2 + dy)))

end Crate

/-- The client's ped reports from the origin. -/
def pedReport : ClientStateUpdate Float32 where
  entityId := none
  entityType := .player
  modelHash := 1
  coords := ⟨0.0, 0.0, 0.0⟩
  heading := 0.0
  velocity := ⟨0.0, 0.0, 0.0⟩
  health := 100.0
  armour := 0.0
  extra := none

/-- The gateway's players: one, who asked for snapshots. -/
def bystander : StateIngest Float32 :=
  ((StateIngest.new .new 100.0).apply 0 5 2 pedReport).1.markSnapshotSubscriber 2

/-- A batch about the crate. -/
def told (flags : DirtyFlags) (heading : Float32) : Event Float32 :=
  .merge [⟨1, flags, Session.crate 7 heading⟩] (by
    intro d hd
    rw [List.mem_singleton.mp hd]
    rfl)

/-- A tick of 100 ms. -/
def tick (n : Nat) (shed : Bool) : List (Event Float32) :=
  [.build (.stored _), .push (.stored _) (n * 100 * 10 ^ 6) n shed]

/-- The crate is turned, and the delta that says so is lost. -/
def turnedOnce : List (Event Float32) :=
  [told .created 0.0] ++ tick 1 false ++ [told .heading 1.0] ++ tick 2 true ++ tick 3 false

/-- The crate is turned once more. -/
def turnedTwice : List (Event Float32) := turnedOnce ++ [told .heading 2.0] ++ tick 4 false

/-- `Settled`, computed. -/
def settles (source : UInt32) (k : EntityId) (center : Vec3 Float32) (state : EntityState Float32)
    (past : List (Done Float32)) (s : PushLoop Float32) : Bool :=
  s.aggregator.worldState.lookup k = some state
    && sees source center s.aggregator.aoiRadius state
    && (past.head?.any fun e =>
      e.op.time.isSome && viewpoint source e.pre = some center && fresh past.tail)
    && caught source k past

theorem settled_of_settles {source : UInt32} {k : EntityId} {center : Vec3 Float32}
    {state : EntityState Float32} {past : List (Done Float32)} {s : PushLoop Float32}
    (h : settles source k center state past s = true) : Settled source k center state past s := by
  simp only [settles, Bool.and_eq_true, decide_eq_true_eq] at h
  obtain ⟨⟨⟨hworld, hsees⟩, hends⟩, hcaught⟩ := h
  refine ⟨hworld, hsees, ?_, hcaught⟩
  cases past with
  | nil => cases hends
  | cons e before =>
      simp only [List.head?_cons, Option.any_some, List.tail_cons, Bool.and_eq_true,
        decide_eq_true_eq] at hends
      exact ⟨e, before, rfl, hends.1.1, hends.1.2, hends.2⟩

/-- The second turn arrives, and repairs the first. -/
theorem turnedTwice_repaired :
    ∃ (past : List (Done Float32)) (s : PushLoop Float32),
      Run (step 2) (start bystander 450.0) past s ∧ (∃ e ∈ past, lost 2 e.pre e.op = true)
        ∧ (replica past).lookup 1 = some (Session.crate 7 2.0) := by
  obtain ⟨past, s, run, h⟩ := exists_run (step 2) (start bystander 450.0) turnedTwice
    (fun past s => settles 2 1 ⟨0.0, 0.0, 0.0⟩ (Session.crate 7 2.0) past s
      && decide (Along (fun _ e => Tells 2 1 e) past) && decide (∀ f, Repaired 2 1 past f)
      && past.any fun e => lost 2 e.pre e.op) (by decide +kernel)
  simp only [Bool.and_eq_true, decide_eq_true_eq, List.any_eq_true] at h
  obtain ⟨⟨⟨hsettles, htells⟩, hrepaired⟩, hlost⟩ := h
  refine ⟨past, s, run, hlost, ?_⟩
  exact (lost_deltas_repaired_iff run htells (settled_of_settles hsettles)).mpr
    ⟨by decide +kernel, hrepaired⟩

/-- **A lost delta is not repaired by waiting**: the gateway believes the client knows, and says
nothing any more. -/
theorem turnedOnce_stale :
    ¬ ∀ (source : UInt32) (k : EntityId) (ingest : StateIngest Float32) (aoiRadius : Float32)
        (past : List (Done Float32)) (s : PushLoop Float32) (center : Vec3 Float32)
        (state : EntityState Float32),
      Run (step source) (start ingest aoiRadius) past s → Settled source k center state past s →
        (replica past).lookup k = some state := by
  intro h
  obtain ⟨past, s, run, hcheck⟩ := exists_run (step 2) (start bystander 450.0) turnedOnce
    (fun past s => settles 2 1 ⟨0.0, 0.0, 0.0⟩ (Session.crate 7 1.0) past s
      && decide ((replica past).lookup 1 = some (Session.crate 7 0.0))) (by decide +kernel)
  simp only [Bool.and_eq_true, decide_eq_true_eq] at hcheck
  have hcopy := h 2 1 bystander 450.0 past s _ _ run (settled_of_settles hcheck.1)
  rw [hcheck.2] at hcopy
  exact absurd hcopy (by decide +kernel)

end PushLoop

end Baston.Gateway