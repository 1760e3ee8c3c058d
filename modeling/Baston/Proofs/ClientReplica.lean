/-
A client that applies what it is sent, against what the gateway believes it has.

A delta leaves out the fields that compare equal to what the client was last sent, and it has
no place for the type and the model of an entity.  So the client's copy is what the tracker
says exactly as long as these never differ where a delta is due.
-/
import Baston.Lib.Trace
import Baston.Proofs.ClientOps

namespace Baston.Gateway

open Assoc Trace Baston.Rage Baston.Zone

variable {F : Type}

/-! ### What a delta can tell -/

/-- Values that compare equal are the same. -/
def Distinguished {α : Type} [BEq α] (old new : α) : Prop := (old == new) = true → old = new

/-- A delta can tell everything in which the state differs from the baseline. -/
structure Tellable [BEq F] (baseline state : EntityState F) : Prop where
  entityType : baseline.entityType = state.entityType
  modelHash : baseline.modelHash = state.modelHash
  coords : Distinguished baseline.coords state.coords
  heading : Distinguished baseline.heading state.heading
  velocity : Distinguished baseline.velocity state.velocity
  health : Distinguished baseline.health state.health
  armour : Distinguished baseline.armour state.armour
  extra : Distinguished baseline.extra state.extra

/-- The baseline after the delta to `state`, if there is one. -/
def updated [BEq F] (baseline state : EntityState F) : EntityState F :=
  match buildDelta baseline state with
  | none => baseline
  | some d => d.apply baseline

theorem changed_getD_eq_iff {α : Type} [BEq α] (old new : α) :
    (changed old new).getD old = new ↔ Distinguished old new := by
  unfold changed Distinguished
  by_cases h : (old == new) = true
  · simp [bne, h]
  · simp [bne, h]

theorem changed_eq_none_iff {α : Type} [BEq α] (old new : α) :
    (changed old new).isNone = true ↔ (old == new) = true := by
  unfold changed
  by_cases h : (old == new) = true
  · simp [bne, h]
  · simp [bne, h]

theorem updated_eq [BEq F] (baseline state : EntityState F) :
    updated baseline state = { baseline with
      coords := (changed baseline.coords state.coords).getD baseline.coords
      heading := (changed baseline.heading state.heading).getD baseline.heading
      velocity := (changed baseline.velocity state.velocity).getD baseline.velocity
      health := (changed baseline.health state.health).getD baseline.health
      armour := (changed baseline.armour state.armour).getD baseline.armour
      extra := (changed baseline.extra state.extra).getD baseline.extra
      networkOwner := (changed baseline.networkOwner state.networkOwner).getD
        baseline.networkOwner } := by
  unfold updated buildDelta
  simp only []
  split
  · next h =>
      split at h
      · next hempty =>
          simp only [Bool.and_eq_true, Option.isNone_iff_eq_none] at hempty
          obtain ⟨⟨⟨⟨⟨⟨h1, h2⟩, h3⟩, h4⟩, h5⟩, h6⟩, h7⟩ := hempty
          rw [h1, h2, h3, h4, h5, h6, h7]
          rfl
      · cases h
  · next d h =>
      split at h
      · cases h
      · rw [← Option.some.inj h]
        rfl

theorem updated_eq_iff [BEq F] {baseline state : EntityState F}
    (hid : baseline.entityId = state.entityId) :
    updated baseline state = state ↔ Tellable baseline state := by
  have howner : (changed baseline.networkOwner state.networkOwner).getD baseline.networkOwner
      = state.networkOwner :=
    (changed_getD_eq_iff _ _).mpr fun h => eq_of_beq h
  rw [updated_eq, howner]
  constructor
  · intro h
    have htype := congrArg EntityState.entityType h
    have hmodel := congrArg EntityState.modelHash h
    exact
      { entityType := htype
        modelHash := hmodel
        coords := (changed_getD_eq_iff _ _).mp (congrArg EntityState.coords h)
        heading := (changed_getD_eq_iff _ _).mp (congrArg EntityState.heading h)
        velocity := (changed_getD_eq_iff _ _).mp (congrArg EntityState.velocity h)
        health := (changed_getD_eq_iff _ _).mp (congrArg EntityState.health h)
        armour := (changed_getD_eq_iff _ _).mp (congrArg EntityState.armour h)
        extra := (changed_getD_eq_iff _ _).mp (congrArg EntityState.extra h) }
  · intro h
    rw [(changed_getD_eq_iff _ _).mpr h.coords, (changed_getD_eq_iff _ _).mpr h.heading,
      (changed_getD_eq_iff _ _).mpr h.velocity, (changed_getD_eq_iff _ _).mpr h.health,
      (changed_getD_eq_iff _ _).mpr h.armour, (changed_getD_eq_iff _ _).mpr h.extra, hid,
      h.entityType, h.modelHash]

/-! ### Runs -/

/-- The world, and what one client was last sent of it. -/
structure Session (F : Type) where
  world : WorldState F := ∅
  tracker : ClientEntityTracker F := {}

/-- A batch is merged, every delta filed under the entity it is about, or the client is looked
after. -/
inductive Turn (F : Type) [Scalar F]
  | merge (batch : List (DirtyEntity F)) (labelled : ∀ d ∈ batch, d.state.entityId = d.entityId)
  | push (look : Look F)

theorem labelled_merge {world : WorldState F} (h : Labelled world) :
    ∀ {batch : List (DirtyEntity F)}, (∀ d ∈ batch, d.state.entityId = d.entityId) →
      Labelled (mergeBatch world batch) := by
  intro batch
  induction batch generalizing world with
  | nil =>
      intro _
      exact h
  | cons d rest ih =>
      intro hlabelled
      refine ih ?_ fun d' hd' => hlabelled d' (List.mem_cons_of_mem _ hd')
      intro k state hk
      unfold mergeDirty at hk
      split at hk
      · rw [Map.lookup_erase_of] at hk
        split at hk
        · cases hk
        · exact h k state hk
      · rw [Map.lookup_insert_of] at hk
        split at hk
        · next hid =>
            rw [← Option.some.inj hk, hid]
            exact hlabelled d List.mem_cons_self
        · exact h k state hk

namespace Session

variable [Scalar F]

/-- One turn for the client of `viewerSource`, with the operations it is sent. -/
def step [BEq F] (viewerSource : UInt32) : Turn F → Session F → Option (Session F × List (EntityOp F))
  | .merge batch _, s => some ({ s with world := mergeBatch s.world batch }, [])
  | .push look, s =>
    let (tracker, ops) := look.ops viewerSource s.world s.tracker
    some ({ s with tracker := tracker }, ops)

abbrev Done (F : Type) [Scalar F] := Entry (Session F) (Turn F) (List (EntityOp F))

/-- The client after everything it was sent. -/
def replica (past : List (Done F)) : WorldState F :=
  (past.reverse.flatMap fun e => e.answer).foldl applyOp ∅

/-- The client holds what the tracker says it was last sent. -/
def Mirrored (past : List (Done F)) (s : Session F) : Prop :=
  ∀ k, (replica past).lookup k = (s.tracker.lastSent.lookup k).map Prod.snd

/-- After the last turn the client has the world's state of every entity it sees and may be
told about. -/
def UpToDate (viewerSource : UInt32) : List (Done F) → Prop
  | [] => True
  | e :: past => ∀ look, e.op = .push look → ∀ k state,
      look.seen viewerSource e.pre.world k = some state →
      (∀ last, e.pre.tracker.lastSent.lookup k = some last →
        due look.now look.center last.1 state = true) →
      (replica (e :: past)).lookup k = some state

/-- Of every entity that is seen and due, the deltas can tell what is new. -/
def Tells [BEq F] (viewerSource : UInt32) (e : Done F) : Prop :=
  ∀ look, e.op = .push look → ∀ k state last,
    look.seen viewerSource e.pre.world k = some state →
    e.pre.tracker.lastSent.lookup k = some last →
    due look.now look.center last.1 state = true → Tellable last.2 state

variable {viewerSource : UInt32} {past : List (Done F)} {s s' : Session F}

theorem replica_cons (e : Done F) (past : List (Done F)) :
    replica (e :: past) = e.answer.foldl applyOp (replica past) := by
  simp [replica]

/-- Everything is filed under its own id. -/
structure Filed (s : Session F) : Prop where
  world : Labelled s.world
  tracker : ∀ k last, s.tracker.lastSent.lookup k = some last → last.2.entityId = k

variable [BEq F]

theorem step_push {look : Look F} {a : List (EntityOp F)}
    (h : step viewerSource (.push look) s = some (s', a)) :
    s' = { s with tracker := (look.ops viewerSource s.world s.tracker).1 }
      ∧ a = (look.ops viewerSource s.world s.tracker).2 := by
  have heq := Option.some.inj h
  exact ⟨congrArg Prod.fst heq.symm, congrArg Prod.snd heq.symm⟩

theorem Filed.step (h : Filed s) {turn : Turn F} {a : List (EntityOp F)}
    (hstep : step viewerSource turn s = some (s', a)) : Filed s' := by
  cases turn with
  | merge batch labelled =>
      obtain ⟨rfl, -⟩ := Prod.mk.inj (Option.some.inj hstep)
      exact ⟨labelled_merge h.world labelled, h.tracker⟩
  | push look =>
      obtain ⟨rfl, -⟩ := step_push hstep
      refine ⟨h.world, ?_⟩
      intro k last hlast
      have hat := ops_at h.world look viewerSource s.tracker k
      cases hseen : look.seen viewerSource s.world k with
      | none =>
          rw [hseen] at hat
          rw [hat.1] at hlast
          cases hlast
      | some state =>
          rw [hseen] at hat
          have hid : state.entityId = k :=
            h.world k state (Option.filter_eq_some_iff.mp hseen).1
          rw [hat.1] at hlast
          cases hop : react look.now look.center (s.tracker.lastSent.lookup k) state with
          | none =>
              rw [hop] at hlast
              exact h.tracker k last hlast
          | some op =>
              rw [hop] at hlast
              rw [← Option.some.inj hlast]
              exact hid

theorem run_filed (run : Run (step viewerSource) {} past s) : Filed s := by
  refine run.safe (I := Filed) ⟨?_, ?_⟩ fun h hstep => h.step hstep
  · intro k state hk
    cases hk
  · intro k last hlast
    cases hlast

/-- What a push makes of the client's copy of one entity, when the copy is the baseline. -/
theorem copy_after_push (h : Filed s) (look : Look F) (k : EntityId) {client : WorldState F}
    (hclient : client.lookup k = (s.tracker.lastSent.lookup k).map Prod.snd) :
    ((look.ops viewerSource s.world s.tracker).2.foldl applyOp client).lookup k
      = match look.seen viewerSource s.world k, s.tracker.lastSent.lookup k with
        | none, _ => none
        | some state, none => some state
        | some state, some last =>
          if due look.now look.center last.1 state then some (updated last.2 state)
          else some last.2 := by
  rw [lookup_applyOps, hclient]
  have hat := ops_at h.world look viewerSource s.tracker k
  cases hseen : look.seen viewerSource s.world k with
  | none =>
      rw [hseen] at hat
      rw [hat.2]
      cases s.tracker.lastSent.lookup k <;> rfl
  | some state =>
      rw [hseen] at hat
      rw [hat.2]
      cases hknown : s.tracker.lastSent.lookup k with
      | none => rfl
      | some last =>
          obtain ⟨lastAt, baseline⟩ := last
          simp only [react]
          by_cases hdue : due look.now look.center lastAt state = true
          · rw [if_pos hdue, if_pos hdue]
            unfold updated
            cases buildDelta baseline state <;> rfl
          · rw [if_neg hdue, if_neg hdue]
            rfl

/-- What a push makes of the baseline of one entity. -/
theorem baseline_after_push (h : Filed s) (look : Look F) (k : EntityId) :
    ((look.ops viewerSource s.world s.tracker).1.lastSent.lookup k).map Prod.snd
      = match look.seen viewerSource s.world k, s.tracker.lastSent.lookup k with
        | none, _ => none
        | some state, none => some state
        | some state, some last =>
          if due look.now look.center last.1 state && (buildDelta last.2 state).isSome
            then some state
          else some last.2 := by
  have hat := ops_at h.world look viewerSource s.tracker k
  cases hseen : look.seen viewerSource s.world k with
  | none =>
      rw [hseen] at hat
      rw [hat.1]
      rfl
  | some state =>
      rw [hseen] at hat
      rw [hat.1]
      cases hknown : s.tracker.lastSent.lookup k with
      | none => rfl
      | some last =>
          obtain ⟨lastAt, baseline⟩ := last
          simp only [react]
          by_cases hdue : due look.now look.center lastAt state = true
          · rw [if_pos hdue, hdue]
            cases buildDelta baseline state <;> rfl
          · rw [if_neg hdue, Bool.not_eq_true] at *
            rw [hdue]
            rfl

/-- One push that tells everything keeps the client's copy and the baseline together, and
brings every entity that may be told about up to date. -/
theorem push_tells (h : Filed s) (hmirrored : Mirrored past s) {look : Look F}
    {a : List (EntityOp F)} (hstep : step viewerSource (.push look) s = some (s', a))
    (htells : Tells viewerSource ⟨s, .push look, a, s'⟩) :
    Mirrored (⟨s, .push look, a, s'⟩ :: past) s'
      ∧ UpToDate viewerSource (⟨s, .push look, a, s'⟩ :: past) := by
  obtain ⟨rfl, rfl⟩ := step_push hstep
  have htold : ∀ k state last, look.seen viewerSource s.world k = some state →
      s.tracker.lastSent.lookup k = some last → due look.now look.center last.1 state = true →
      updated last.2 state = state := by
    intro k state last hseen hlast hdue
    refine (updated_eq_iff ?_).mpr (htells look rfl k state last hseen hlast hdue)
    rw [h.tracker k last hlast, h.world k state (Option.filter_eq_some_iff.mp hseen).1]
  refine ⟨?_, ?_⟩
  · intro k
    rw [replica_cons, copy_after_push h look k (hmirrored k), baseline_after_push h look k]
    cases hseen : look.seen viewerSource s.world k with
    | none => rfl
    | some state =>
        cases hlast : s.tracker.lastSent.lookup k with
        | none => rfl
        | some last =>
            simp only []
            by_cases hdue : due look.now look.center last.1 state = true
            · have heq := htold k state last hseen hlast hdue
              rw [if_pos hdue, hdue, Bool.true_and]
              cases hdelta : buildDelta last.2 state with
              | none =>
                  unfold updated
                  rw [hdelta]
                  rfl
              | some d =>
                  rw [heq]
                  rfl
            · rw [if_neg hdue]
              rw [Bool.not_eq_true] at hdue
              rw [hdue]
              rfl
  · rintro look' ⟨⟩ k state hseen hdue
    rw [replica_cons, copy_after_push h look k (hmirrored k), hseen]
    cases hlast : s.tracker.lastSent.lookup k with
    | none => rfl
    | some last =>
        simp only []
        rw [if_pos (hdue last hlast), htold k state last hseen hlast (hdue last hlast)]

/-- A push that leaves the client up to date told everything. -/
theorem tells_of_upToDate (h : Filed s) (hmirrored : Mirrored past s) {look : Look F}
    {a : List (EntityOp F)} (hstep : step viewerSource (.push look) s = some (s', a))
    (hupToDate : UpToDate viewerSource (⟨s, .push look, a, s'⟩ :: past)) :
    Tells viewerSource ⟨s, .push look, a, s'⟩ := by
  obtain ⟨rfl, rfl⟩ := step_push hstep
  rintro look' ⟨⟩ k state last hseen hlast hdue
  have hcopy := hupToDate look rfl k state hseen fun last' hlast' => by
    obtain rfl : last = last' := Option.some.inj (hlast.symm.trans hlast')
    exact hdue
  rw [replica_cons, copy_after_push h look k (hmirrored k), hseen, hlast] at hcopy
  simp only [] at hcopy
  rw [if_pos hdue] at hcopy
  refine (updated_eq_iff ?_).mp (Option.some.inj hcopy)
  rw [h.tracker k last hlast, h.world k state (Option.filter_eq_some_iff.mp hseen).1]

theorem run_mirrored (run : Run (step viewerSource) {} past s)
    (htells : Along (fun _ e => Tells viewerSource e) past) :
    Mirrored past s ∧ UpToDate viewerSource past := by
  induction run with
  | nil => exact ⟨fun _ => rfl, trivial⟩
  | @snoc past s s' turn a run h ih =>
      have hbefore := ih htells.2
      cases turn with
      | merge batch labelled =>
          obtain ⟨rfl, rfl⟩ := Prod.mk.inj (Option.some.inj h)
          refine ⟨?_, nofun⟩
          intro k
          rw [replica_cons]
          exact hbefore.1 k
      | push look => exact push_tells (run_filed run) hbefore.1 h htells.1

/-- **The client's replica is the tracker's baseline exactly when every delta can tell what is
new**: at every point of a run the client holds what the tracker says, and has the world's
state of whatever it sees and may be told about. -/
theorem replica_mirrored_iff (run : Run (step viewerSource) {} past s) :
    (∀ later before s', past = later ++ before → Run (step viewerSource) {} before s' →
        Mirrored before s' ∧ UpToDate viewerSource before)
      ↔ Along (fun _ e => Tells viewerSource e) past := by
  refine Run.always_iff_along (I := fun past s => Mirrored past s ∧ UpToDate viewerSource past)
    run_mirrored ?_ run
  intro past s turn a s' run hbefore h hnow
  cases turn with
  | merge batch labelled => exact nofun
  | push look => exact tells_of_upToDate (run_filed run) (run_mirrored run hbefore).1 h hnow.2

/-! ### A crate -/

/-- A crate at the origin, of player 1. -/
def crate (modelHash : UInt32) (heading : Float32) : EntityState Float32 where
  entityId := 1
  entityType := .object
  networkOwner := some 1
  modelHash := modelHash
  coords := ⟨0.0, 0.0, 0.0⟩
  heading := heading
  velocity := ⟨0.0, 0.0, 0.0⟩
  health := 100.0
  armour := 0.0
  extra := .object true

/-- A batch that says the crate is there, or is gone. -/
def told (flags : DirtyFlags) (state : EntityState Float32) : Turn Float32 :=
  .merge [⟨state.entityId, flags, state⟩] (by
    intro d hd
    rw [List.mem_singleton.mp hd])

/-- A push to a client at the origin. -/
def lookAround (now : Nat) : Look Float32 where
  now := now
  center := ⟨0.0, 0.0, 0.0⟩
  radius := 450.0
  ord := .stored _
  near _ := true
  covers _ _ := rfl

/-- A crate is turned between two pushes. -/
def turned : List (Turn Float32) :=
  [told .created (crate 7 0.0), .push (lookAround 0), told .heading (crate 7 1.0),
    .push (lookAround (100 * 10 ^ 6))]

/-- A crate is replaced by one of another model, under its id, between two pushes. -/
def replaced : List (Turn Float32) :=
  [told .created (crate 7 0.0), .push (lookAround 0), told .deleted (crate 7 0.0),
    told .created (crate 9 0.0), .push (lookAround (100 * 10 ^ 6))]

/-- What the client was sent by the first push. -/
def sentCrate : Map EntityId (Nat × EntityState Float32) := AList.insert 1 (0, crate 7 0.0) ∅

/-- The world with a crate in it. -/
def crateWorld : WorldState Float32 := AList.insert 1 (crate 7 0.0) ∅

/-- The turned crate reaches the client. -/
theorem turned_mirrored :
    ∃ (past : List (Done Float32)) (s : Session Float32),
      Run (step 2) {} past s ∧ past.length = 4 ∧ Mirrored past s ∧ UpToDate 2 past := by
  have run := run_of_ops (step 2) {} turned rfl
  refine ⟨_, _, run, rfl, (replica_mirrored_iff run).mpr ?_ [] _ _ rfl run⟩
  refine ⟨?_, nofun, ?_, nofun, trivial⟩
  · rintro look ⟨⟩ k state last hseen hlast -
    have hsent : sentCrate.lookup k = some last := hlast
    have hworld : (crateWorld.insert 1 (crate 7 1.0)).lookup k = some state :=
      (Option.filter_eq_some_iff.mp hseen).1
    rw [sentCrate, Map.lookup_insert_of] at hsent
    rw [Map.lookup_insert_of] at hworld
    by_cases hk : k = 1
    · rw [if_pos hk] at hsent hworld
      obtain rfl := Option.some.inj hsent
      obtain rfl := Option.some.inj hworld
      have hheading : ((crate 7 0.0).heading == (crate 7 1.0).heading) = false := by decide +kernel
      refine ⟨rfl, rfl, fun _ => rfl, ?_, fun _ => rfl, fun _ => rfl, fun _ => rfl, fun _ => rfl⟩
      intro hsame
      exact absurd (hsame.symm.trans hheading) (by decide)
    · rw [if_neg hk] at hsent
      cases hsent
  · rintro look ⟨⟩ k state last - hlast
    cases hlast

/-- **A change of the model is never told**: the delta has no field for it, so the client keeps
the crate it knows. -/
theorem replaced_not_told :
    ¬ ∀ (viewerSource : UInt32) (past : List (Done Float32)) (s : Session Float32),
      Run (step viewerSource) {} past s → Mirrored past s ∧ UpToDate viewerSource past := by
  intro h
  have run := run_of_ops (step 2) {} replaced rfl
  have hcopy := (h 2 _ _ run).2 _ rfl 1 (crate 9 0.0)
    (Option.filter_eq_some_iff.mpr ⟨rfl, by decide +kernel⟩) ?_
  · have hmodel := congrArg (Option.map EntityState.modelHash) hcopy
    revert hmodel
    decide +kernel
  · intro last hlast
    have hsent : sentCrate.lookup 1 = some last := hlast
    rw [sentCrate, AList.lookup_insert] at hsent
    obtain rfl := Option.some.inj hsent
    decide +kernel

end Session

end Baston.Gateway
