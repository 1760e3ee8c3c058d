/-
A client whose snapshots of deltas may be shed, run after run.

What the gateway remembers of an entity is the state it last sent, arrived or not.  The client's
copy agrees with it on what no delta carries; of each field it has what it last heard, and the
gateway what it last told.
-/
import Baston.Proofs.ClientReplica
import Baston.Proofs.GridScan

namespace Baston.Gateway

open Assoc Trace Baston.Rage Baston.Zone

variable {F : Type}

/-! ### The fields a delta has -/

/-- What a delta can carry. -/
inductive Field
  | coords | heading | velocity | health | armour | extra | networkOwner
  deriving DecidableEq

namespace Field

def Same : Field → EntityState F → EntityState F → Prop
  | coords, a, b => a.coords = b.coords
  | heading, a, b => a.heading = b.heading
  | velocity, a, b => a.velocity = b.velocity
  | health, a, b => a.health = b.health
  | armour, a, b => a.armour = b.armour
  | extra, a, b => a.extra = b.extra
  | networkOwner, a, b => a.networkOwner = b.networkOwner

/-- Whether a delta from `a` to `b` carries the field. -/
def differs [BEq F] : Field → EntityState F → EntityState F → Bool
  | coords, a, b => a.coords != b.coords
  | heading, a, b => a.heading != b.heading
  | velocity, a, b => a.velocity != b.velocity
  | health, a, b => a.health != b.health
  | armour, a, b => a.armour != b.armour
  | extra, a, b => a.extra != b.extra
  | networkOwner, a, b => a.networkOwner != b.networkOwner

variable {a b c : EntityState F} {f : Field}

theorem Same.refl (f : Field) (a : EntityState F) : f.Same a a := by
  cases f <;> rfl

theorem Same.symm (h : f.Same a b) : f.Same b a := by
  cases f <;> exact Eq.symm h

theorem Same.trans (h : f.Same a b) (h' : f.Same b c) : f.Same a c := by
  cases f <;> exact Eq.trans h h'

/-- The fields and what a delta cannot carry make the whole state. -/
theorem eq_of_same (hid : a.entityId = b.entityId) (htype : a.entityType = b.entityType)
    (hmodel : a.modelHash = b.modelHash) (h : ∀ f : Field, f.Same a b) : a = b := by
  have hcoords : a.coords = b.coords := h coords
  have hheading : a.heading = b.heading := h heading
  have hvelocity : a.velocity = b.velocity := h velocity
  have hhealth : a.health = b.health := h health
  have harmour : a.armour = b.armour := h armour
  have hextra : a.extra = b.extra := h extra
  have howner : a.networkOwner = b.networkOwner := h networkOwner
  cases a
  cases b
  simp only at hid htype hmodel hcoords hheading hvelocity hhealth harmour hextra howner
  rw [hid, htype, hmodel, hcoords, hheading, hvelocity, hhealth, harmour, hextra, howner]

variable [BEq F]

/-- A delta overwrites the fields it carries and no others. -/
theorem same_apply {d : EntityDelta F} (h : buildDelta a b = some d) (copy : EntityState F)
    (f : Field) : if f.differs a b then f.Same b (d.apply copy) else f.Same copy (d.apply copy) := by
  unfold buildDelta at h
  simp only [] at h
  split at h
  · cases h
  · rw [← Option.some.inj h]
    cases f <;>
      · unfold differs EntityDelta.apply Same changed
        simp only []
        split
        · rfl
        · rfl

theorem differs_of_no_delta (h : buildDelta a b = none) (f : Field) : f.differs a b = false := by
  unfold buildDelta at h
  simp only [] at h
  split at h
  · next hempty =>
      simp only [Bool.and_eq_true, changed_eq_none_iff] at hempty
      obtain ⟨⟨⟨⟨⟨⟨h1, h2⟩, h3⟩, h4⟩, h5⟩, h6⟩, h7⟩ := hempty
      cases f <;> simp only [differs, bne, Bool.not_eq_false'] <;> assumption
  · cases h

theorem same_of_tellable (h : Tellable a b) (hdiffers : f.differs a b = false) : f.Same a b := by
  cases f with
  | coords => exact h.coords (by simpa [differs, bne] using hdiffers)
  | heading => exact h.heading (by simpa [differs, bne] using hdiffers)
  | velocity => exact h.velocity (by simpa [differs, bne] using hdiffers)
  | health => exact h.health (by simpa [differs, bne] using hdiffers)
  | armour => exact h.armour (by simpa [differs, bne] using hdiffers)
  | extra => exact h.extra (by simpa [differs, bne] using hdiffers)
  | networkOwner => exact eq_of_beq (by simpa [differs, bne] using hdiffers)

end Field

/-! ### Runs -/

/-- The aggregator, and the grid of the current tick. -/
structure PushLoop (F : Type) where
  aggregator : StateAggregator F
  grid : SpatialGrid F

namespace PushLoop

/-- What happens around one client. -/
inductive Event (F : Type)
  | merge (batch : List (DirtyEntity F)) (labelled : ∀ d ∈ batch, d.state.entityId = d.entityId)
  /-- The players of the gateway itself do something. -/
  | players (ingest : StateIngest F)
  /-- A tick begins. -/
  | build (ord : IterOrder EntityId)
  /-- The client's turn; what goes by the sync plane may be shed. -/
  | push (ord : IterOrder EntityId) (now tick : Nat) (shed : Bool)

/-- When the client is pushed to. -/
def Event.time : Event F → Option Nat
  | .push _ now _ _ => some now
  | _ => none

/-- The operations that reach the client. -/
def arriving (shed : Bool) : Option (Plane × EntitySnapshot F) → List (EntityOp F)
  | none => []
  | some (.control, snapshot) => snapshot.ops
  | some (.sync, snapshot) => if shed then [] else snapshot.ops

variable [Scalar F]

def start (ingest : StateIngest F) (aoiRadius : F) : PushLoop F where
  aggregator := { stateIngest := ingest, aoiRadius := aoiRadius }
  grid := .build (.stored _) ∅ aoiRadius

/-- One event, with the operations that reach the client of `source`. -/
def step [BEq F] (source : UInt32) : Event F → PushLoop F →
    Option (PushLoop F × List (EntityOp F))
  | .merge batch _, s =>
    some ({ s with aggregator :=
      { s.aggregator with worldState := mergeBatch s.aggregator.worldState batch } }, [])
  | .players ingest, s =>
    some ({ s with aggregator := { s.aggregator with stateIngest := ingest } }, [])
  | .build ord, s =>
    some ({ s with grid := .build ord s.aggregator.worldState s.aggregator.aoiRadius }, [])
  | .push ord now tick shed, s =>
    let (aggregator, sent) := s.aggregator.pushToClient ord now tick source s.grid
    some ({ s with aggregator := aggregator }, arriving shed sent)

abbrev Done (F : Type) := Entry (PushLoop F) (Event F) (List (EntityOp F))

/-- The client after everything that reached it. -/
def replica : List (Done F) → WorldState F
  | [] => ∅
  | e :: past => e.answer.foldl applyOp (replica past)

/-- Where the client looks from. -/
def viewpoint (source : UInt32) (s : PushLoop F) : Option (Vec3 F) :=
  if s.aggregator.stateIngest.isSnapshotSubscriber source then
    ((s.aggregator.stateIngest.playerEntity source).bind fun id =>
      s.aggregator.stateIngest.entityManager.get id).map (·.coords)
  else none

/-- What the client was last sent about an entity. -/
def known (source : UInt32) (s : PushLoop F) (k : EntityId) : Option (Nat × EntityState F) :=
  ((s.aggregator.trackers.lookup source).getD {}).lastSent.lookup k

/-- The entity as the client looking from `center` is to see it, if it is to see it. -/
def glance (source : UInt32) (s : PushLoop F) (center : Vec3 F) (k : EntityId) :
    Option (EntityState F) :=
  seenAmong source center s.aggregator.aoiRadius (s.grid.candidates center) k

/-- The snapshot is lost on the way. -/
def lost [BEq F] (source : UInt32) (s : PushLoop F) : Event F → Bool
  | .push ord now tick shed =>
    shed && (s.aggregator.pushToClient ord now tick source s.grid).2.any fun sent =>
      sent.1 = .sync
  | _ => false

/-! ### What the client is told of a field -/

section Telling

variable [BEq F]

/-- Whether the client, last sent `last`, is told the field of a state it sees. -/
def tells (f : Field) (now : Nat) (center : Vec3 F) (last : Option (Nat × EntityState F))
    (state : EntityState F) : Bool :=
  match last with
  | none => true
  | some (lastAt, baseline) => due now center lastAt state && f.differs baseline state

/-- The state of an entity whose field an event tells the client. -/
def news (source : UInt32) (f : Field) (k : EntityId) (s : PushLoop F) (event : Event F) :
    Option (EntityState F) :=
  event.time.bind fun now => (viewpoint source s).bind fun center =>
    (glance source s center k).filter fun state => tells f now center (known source s k) state

/-- The newest state whose field the client was told, whether or not it arrived. -/
def lastTold (source : UInt32) (f : Field) (k : EntityId) (past : List (Done F)) :
    Option (EntityState F) :=
  past.findSome? fun e => news source f k e.pre e.op

/-- The newest state whose field arrived. -/
def lastHeard (source : UInt32) (f : Field) (k : EntityId) (past : List (Done F)) :
    Option (EntityState F) :=
  past.findSome? fun e => if lost source e.pre e.op then none else news source f k e.pre e.op

/-- What was last told of the field arrived, or was no different from what did. -/
def Repaired (source : UInt32) (k : EntityId) (past : List (Done F)) (f : Field) : Prop :=
  ∀ told ∈ lastTold source f k past, ∀ heard ∈ lastHeard source f k past, f.Same heard told

/-- If the entity is seen and due, the delta can tell what is new. -/
def Tells (source : UInt32) (k : EntityId) (e : Done F) : Prop :=
  ∀ now ∈ e.op.time, ∀ center ∈ viewpoint source e.pre, ∀ state ∈ glance source e.pre center k,
    ∀ last ∈ known source e.pre k, due now center last.1 state = true → Tellable last.2 state

/-! ### The effect of a push on one entity -/

/-- The operations about an entity that the client sees, or does not. -/
def opsFor (now : Nat) (center : Vec3 F) (last : Option (Nat × EntityState F)) (k : EntityId) :
    Option (EntityState F) → List (EntityOp F)
  | some state => (react now center last state).toList
  | none => if last.isSome then [.delete k] else []

/-- Everything is filed under its own id. -/
structure Filed (source : UInt32) (s : PushLoop F) : Prop where
  world : Labelled s.aggregator.worldState
  grid : ∃ ord world, Labelled world ∧ s.grid = .build ord world s.aggregator.aoiRadius
  tracked : ∀ k last, known source s k = some last → last.2.entityId = k

/-- What a push does as seen from one entity. -/
structure PushAt (source : UInt32) (k : EntityId) (now : Nat) (center : Vec3 F) (event : Event F)
    (s s' : PushLoop F) (a : List (EntityOp F)) : Prop where
  sent : known source s' k = (glance source s center k).bind fun state =>
    remember now (known source s k) state (react now center (known source s k) state)
  arrives : opsAbout k a = if lost source s event then []
    else opsFor now center (known source s k) k (glance source s center k)
  deltas : lost source s event = true →
    ∀ op ∈ opsFor now center (known source s k) k (glance source s center k), op.isDelta = true
  world : s'.aggregator.worldState = s.aggregator.worldState
  grid : s'.grid = s.grid
  radius : s'.aggregator.aoiRadius = s.aggregator.aoiRadius

variable {source : UInt32} {k : EntityId} {s s' : PushLoop F} {a : List (EntityOp F)}

omit [BEq F] in
theorem Filed.nodup (h : Filed source s) (center : Vec3 F) :
    ((s.grid.candidates center).map (·.entityId)).Nodup := by
  obtain ⟨ord, world, hworld, hgrid⟩ := h.grid
  rw [hgrid]
  exact SpatialGrid.candidates_nodup hworld

omit [BEq F] in
theorem mem_glance (h : Filed source s) {center : Vec3 F} {state : EntityState F} :
    glance source s center k = some state ↔ state ∈ s.grid.candidates center
      ∧ state.entityId = k ∧ sees source center s.aggregator.aoiRadius state = true :=
  seenAmong_eq_some (h.nodup center)

/-- A push to a client that looks from nowhere does nothing. -/
theorem push_idle (hview : viewpoint source s = none) {ord : IterOrder EntityId} {now tick : Nat}
    {shed : Bool} (h : step source (.push ord now tick shed) s = some (s', a)) :
    s' = s ∧ a = [] := by
  have hsent : s.aggregator.pushToClient ord now tick source s.grid = (s.aggregator, none) := by
    unfold viewpoint at hview
    unfold StateAggregator.pushToClient
    split
    · next hsub =>
        rw [if_pos hsub, Option.map_eq_none_iff] at hview
        cases hped : s.aggregator.stateIngest.playerEntity source with
        | none => rfl
        | some id =>
            rw [hped, Option.bind_some] at hview
            simp only []
            rw [hview]
    · rfl
  simp only [step, hsent, Option.some.injEq, Prod.mk.injEq] at h
  exact ⟨h.1.symm, h.2.symm⟩

/-- A push to a client that looks from somewhere. -/
theorem pushToClient_eq {center : Vec3 F} (hview : viewpoint source s = some center)
    (ord : IterOrder EntityId) (now tick : Nat) :
    s.aggregator.pushToClient ord now tick source s.grid
      = let r := computeClientOpsFrom ord now (s.grid.candidates center)
          ((s.aggregator.trackers.lookup source).getD {}) source center s.aggregator.aoiRadius
        ({ s.aggregator with trackers := s.aggregator.trackers.insert source r.1 },
          if r.2.isEmpty then none
          else some (if r.2.any fun op => !op.isDelta then .control else .sync, ⟨tick, r.2⟩)) := by
  unfold viewpoint at hview
  unfold StateAggregator.pushToClient
  split
  · next hsub =>
      rw [if_pos hsub, Option.map_eq_some_iff] at hview
      obtain ⟨e, he, rfl⟩ := hview
      obtain ⟨id, hped, hget⟩ := Option.bind_eq_some_iff.mp he
      rw [hped]
      simp only []
      rw [hget]
      simp only []
      split <;> rfl
  · next hsub =>
      rw [if_neg hsub] at hview
      cases hview

theorem lost_push (source : UInt32) (s : PushLoop F) (ord : IterOrder EntityId) (now tick : Nat)
    (shed : Bool) : lost source s (.push ord now tick shed)
      = (shed && (s.aggregator.pushToClient ord now tick source s.grid).2.any fun sent =>
          sent.1 = .sync) := rfl

theorem push_at (hfiled : Filed source s) {center : Vec3 F}
    (hview : viewpoint source s = some center) {ord : IterOrder EntityId} {now tick : Nat}
    {shed : Bool} (h : step source (.push ord now tick shed) s = some (s', a)) (k : EntityId) :
    PushAt source k now center (.push ord now tick shed) s s' a := by
  let r := computeClientOpsFrom ord now (s.grid.candidates center)
    ((s.aggregator.trackers.lookup source).getD {}) source center s.aggregator.aoiRadius
  have hsent : s.aggregator.pushToClient ord now tick source s.grid
      = ({ s.aggregator with trackers := s.aggregator.trackers.insert source r.1 },
          if r.2.isEmpty then none
          else some (if r.2.any fun op => !op.isDelta then .control else .sync, ⟨tick, r.2⟩)) :=
    pushToClient_eq hview ord now tick
  have hat := opsFrom_at (hfiled.nodup center) ord now source center s.aggregator.aoiRadius
    ((s.aggregator.trackers.lookup source).getD {}) k
  have hknown : r.1.lastSent.lookup k = (glance source s center k).bind fun state =>
      remember now (known source s k) state (react now center (known source s k) state) := by
    unfold glance
    cases hseen : seenAmong source center s.aggregator.aoiRadius (s.grid.candidates center) k with
    | none =>
        rw [hseen] at hat
        exact hat.1
    | some state =>
        rw [hseen] at hat
        exact hat.1
  have hops : opsAbout k r.2 = opsFor now center (known source s k) k (glance source s center k) := by
    unfold glance
    cases hseen : seenAmong source center s.aggregator.aoiRadius (s.grid.candidates center) k with
    | none =>
        rw [hseen] at hat
        exact hat.2
    | some state =>
        rw [hseen] at hat
        exact hat.2
  simp only [step, hsent, Option.some.injEq, Prod.mk.injEq] at h
  obtain ⟨rfl, rfl⟩ := h
  refine ⟨?_, ?_, ?_, rfl, rfl, rfl⟩
  · rw [← hknown]
    unfold PushLoop.known
    simp only []
    rw [AList.lookup_insert, Option.getD_some]
  · rw [← hops, lost_push, hsent]
    simp only []
    by_cases hempty : r.2.isEmpty = true
    · rw [if_pos hempty, List.isEmpty_iff.mp hempty]
      simp [arriving]
    · rw [if_neg hempty]
      by_cases hreliable : (r.2.any fun op => !op.isDelta) = true
      · rw [if_pos hreliable]
        simp [arriving]
      · rw [if_neg hreliable]
        cases shed <;> simp [arriving]
  · rw [← hops, lost_push, hsent]
    intro hlost op hop
    simp only [Bool.and_eq_true] at hlost
    have hmem : op ∈ r.2 := List.mem_of_mem_filter hop
    by_contra hdelta
    have hempty : r.2.isEmpty = false := by
      cases hr : r.2 with
      | nil =>
          rw [hr] at hmem
          cases hmem
      | cons => rfl
    have hreliable : (r.2.any fun op => !op.isDelta) = true :=
      List.any_eq_true.mpr ⟨op, hmem, by simpa using hdelta⟩
    rw [hempty, if_neg Bool.false_ne_true, if_pos hreliable] at hlost
    simp at hlost

theorem Filed.step (h : Filed source s) {event : Event F}
    (hstep : step source event s = some (s', a)) : Filed source s' := by
  cases event with
  | merge batch labelled =>
      obtain ⟨rfl, -⟩ := Prod.mk.inj (Option.some.inj hstep)
      exact ⟨labelled_merge h.world labelled, h.grid, h.tracked⟩
  | players ingest =>
      obtain ⟨rfl, -⟩ := Prod.mk.inj (Option.some.inj hstep)
      exact ⟨h.world, h.grid, h.tracked⟩
  | build ord =>
      obtain ⟨rfl, -⟩ := Prod.mk.inj (Option.some.inj hstep)
      exact ⟨h.world, ⟨ord, _, h.world, rfl⟩, h.tracked⟩
  | push ord now tick shed =>
      cases hview : viewpoint source s with
      | none =>
          obtain ⟨rfl, -⟩ := push_idle hview hstep
          exact h
      | some center =>
          have hpush := push_at h hview hstep
          refine ⟨(hpush 0).world ▸ h.world, ?_, ?_⟩
          · rw [(hpush 0).grid, (hpush 0).radius]
            exact h.grid
          · intro k last hlast
            rw [(hpush k).sent] at hlast
            obtain ⟨state, hseen, hlast⟩ := Option.bind_eq_some_iff.mp hlast
            cases hop : react now center (known source s k) state with
            | none =>
                rw [hop] at hlast
                exact h.tracked k last hlast
            | some op =>
                rw [hop] at hlast
                rw [← Option.some.inj hlast]
                exact ((mem_glance h).mp hseen).2.1

omit [BEq F] in
theorem filed_start (ingest : StateIngest F) (aoiRadius : F) :
    Filed source (start ingest aoiRadius) := by
  have hempty : Labelled (∅ : WorldState F) := by
    intro k state hk
    cases hk
  refine ⟨hempty, ⟨.stored _, ∅, hempty, rfl⟩, ?_⟩
  intro k last hlast
  cases hlast

/-! ### What the client holds -/

omit [Scalar F] [BEq F] in
theorem lookup_replica (k : EntityId) (e : Done F) (past : List (Done F)) :
    (replica (e :: past)).lookup k
      = (opsAbout k e.answer).foldl EntityOp.act ((replica past).lookup k) :=
  lookup_applyOps k e.answer (replica past)

/-- The client's copy of an entity against what the gateway last sent: they agree on what no
delta carries, and each field is as it was last heard, or last told. -/
structure Follows (source : UInt32) (k : EntityId) (past : List (Done F))
    (last copy : EntityState F) : Prop where
  copied : (replica past).lookup k = some copy
  entityId : copy.entityId = last.entityId
  entityType : copy.entityType = last.entityType
  modelHash : copy.modelHash = last.modelHash
  heard : ∀ f, ∃ state, lastHeard source f k past = some state ∧ f.Same state copy
  told : ∀ f, ∃ state, lastTold source f k past = some state ∧ f.Same state last

/-- The client has what the gateway believes it has, up to what was lost. -/
def Tracks (source : UInt32) (k : EntityId) (past : List (Done F)) (s : PushLoop F) : Prop :=
  match known source s k with
  | none => (replica past).lookup k = none
  | some last => ∃ copy, Follows source k past last.2 copy

/-- What reaches nobody and tells nothing changes nothing. -/
theorem Tracks.quiet {past : List (Done F)} (h : Tracks source k past s) {event : Event F}
    (hknown : known source s' k = known source s k) (hops : opsAbout k a = [])
    (hnews : ∀ f, news source f k s event = none) :
    Tracks source k (⟨s, event, a, s'⟩ :: past) s' := by
  have hcopy : (replica (⟨s, event, a, s'⟩ :: past)).lookup k = (replica past).lookup k := by
    rw [lookup_replica, hops]
    rfl
  have htold : ∀ f, lastTold source f k (⟨s, event, a, s'⟩ :: past) = lastTold source f k past := by
    intro f
    unfold lastTold
    rw [List.findSome?_cons, hnews f]
  have hheard : ∀ f, lastHeard source f k (⟨s, event, a, s'⟩ :: past)
      = lastHeard source f k past := by
    intro f
    unfold lastHeard
    rw [List.findSome?_cons, hnews f, ite_self]
  unfold Tracks at h ⊢
  rw [hknown]
  cases hlast : known source s k with
  | none =>
      rw [hlast] at h
      exact hcopy.trans h
  | some last =>
      rw [hlast] at h
      obtain ⟨copy, hfollows⟩ := h
      refine ⟨copy, ?_⟩
      exact { hfollows with
        copied := hcopy.trans hfollows.copied
        heard := fun f => by rw [hheard]; exact hfollows.heard f
        told := fun f => by rw [htold]; exact hfollows.told f }

/-- What is not seen is removed from the client, once. -/
theorem Tracks.gone {past : List (Done F)} (h : Tracks source k past s) {event : Event F}
    {now : Nat} {center : Vec3 F} (hpush : PushAt source k now center event s s' a)
    (hseen : glance source s center k = none) : Tracks source k (⟨s, event, a, s'⟩ :: past) s' := by
  have hsent := hpush.sent
  have harrives := hpush.arrives
  have hdeltas := hpush.deltas
  rw [hseen] at hsent harrives hdeltas
  unfold Tracks
  rw [hsent, Option.bind_none]
  simp only []
  rw [lookup_replica, harrives]
  cases hlast : known source s k with
  | none =>
      unfold Tracks at h
      rw [hlast] at h
      simp [opsFor, h]
  | some last =>
      have hkept : lost source s event = false := by
        rw [← Bool.not_eq_true]
        intro hlost
        have hdelta := hdeltas hlost (.delete k) (by simp [opsFor, hlast])
        cases hdelta
      rw [hkept]
      rfl

/-- What the client does not know is told as a whole, and arrives. -/
theorem Tracks.appears {past : List (Done F)} {event : Event F} {now : Nat} {center : Vec3 F}
    (hpush : PushAt source k now center event s s' a) {state : EntityState F}
    (hseen : glance source s center k = some state) (hlast : known source s k = none)
    (hnews : ∀ f, news source f k s event = some state) :
    Tracks source k (⟨s, event, a, s'⟩ :: past) s' := by
  have hsent := hpush.sent
  have harrives := hpush.arrives
  have hdeltas := hpush.deltas
  rw [hseen, hlast] at hsent harrives hdeltas
  have hkept : lost source s event = false := by
    rw [← Bool.not_eq_true]
    intro hlost
    have hdelta := hdeltas hlost _ List.mem_cons_self
    cases hdelta
  unfold Tracks
  rw [hsent]
  refine ⟨state, ?_, rfl, rfl, rfl, ?_, ?_⟩
  · rw [lookup_replica, harrives, hkept]
    rfl
  · intro f
    refine ⟨state, ?_, .refl f state⟩
    unfold lastHeard
    rw [List.findSome?_cons, hkept, hnews f]
    rfl
  · intro f
    refine ⟨state, ?_, .refl f state⟩
    unfold lastTold
    rw [List.findSome?_cons, hnews f]

/-- A delta that can tell what is new is taken over by the baseline, and by the client unless it
is lost. -/
theorem Follows.updated {past : List (Done F)} {last copy state : EntityState F}
    (h : Follows source k past last copy) {d : EntityDelta F} (hd : buildDelta last state = some d)
    (htellable : Tellable last state) (hid : last.entityId = state.entityId) {event : Event F}
    (harrives : opsAbout k a = if lost source s event then [] else [.delta d])
    (hnews : ∀ f, news source f k s event = if f.differs last state then some state else none) :
    Follows source k (⟨s, event, a, s'⟩ :: past) state
      (if lost source s event then copy else d.apply copy) := by
  have happly := Field.same_apply hd copy
  refine ⟨?_, ?_, ?_, ?_, ?_, ?_⟩
  · rw [lookup_replica, harrives, h.copied]
    split <;> rfl
  · refine Eq.trans ?_ (h.entityId.trans hid)
    split <;> rfl
  · refine Eq.trans ?_ (h.entityType.trans htellable.entityType)
    split <;> rfl
  · refine Eq.trans ?_ (h.modelHash.trans htellable.modelHash)
    split <;> rfl
  · intro f
    obtain ⟨heard, hheard, hsame⟩ := h.heard f
    unfold lastHeard at hheard ⊢
    rw [List.findSome?_cons]
    cases hlost : lost source s event with
    | true => exact ⟨heard, hheard, hsame⟩
    | false =>
        have hfield := happly f
        rw [hnews f]
        by_cases hdiffers : f.differs last state = true
        · rw [if_pos hdiffers] at hfield ⊢
          exact ⟨state, rfl, hfield⟩
        · rw [if_neg hdiffers] at hfield ⊢
          exact ⟨heard, hheard, hsame.trans hfield⟩
  · intro f
    obtain ⟨told, htold, hsame⟩ := h.told f
    unfold lastTold at htold ⊢
    rw [List.findSome?_cons, hnews f]
    by_cases hdiffers : f.differs last state = true
    · rw [if_pos hdiffers]
      exact ⟨state, rfl, .refl f state⟩
    · rw [if_neg hdiffers]
      rw [Bool.not_eq_true] at hdiffers
      exact ⟨told, htold, hsame.trans (Field.same_of_tellable htellable hdiffers)⟩

/-- The three things a push may do about an entity the client sees and knows. -/
theorem react_known (now : Nat) (center : Vec3 F) (lastAt : Nat) (baseline state : EntityState F) :
    (react now center (some (lastAt, baseline)) state = none
        ∧ ∀ f, tells f now center (some (lastAt, baseline)) state = false)
      ∨ ∃ d, buildDelta baseline state = some d ∧ due now center lastAt state = true
        ∧ react now center (some (lastAt, baseline)) state = some (.delta d) := by
  unfold react tells
  simp only []
  by_cases hdue : due now center lastAt state = true
  · rw [if_pos hdue, hdue]
    cases hd : buildDelta baseline state with
    | none => exact .inl ⟨rfl, fun f => Field.differs_of_no_delta hd f⟩
    | some d => exact .inr ⟨d, rfl, rfl, rfl⟩
  · rw [if_neg hdue]
    rw [Bool.not_eq_true] at hdue
    exact .inl ⟨rfl, fun f => by rw [hdue]; rfl⟩

/-- One push keeps the client following, as long as its delta can tell what is new. -/
theorem Tracks.push (hfiled : Filed source s) {past : List (Done F)} (h : Tracks source k past s)
    {center : Vec3 F} (hview : viewpoint source s = some center) {ord : IterOrder EntityId}
    {now tick : Nat} {shed : Bool}
    (hstep : PushLoop.step source (.push ord now tick shed) s = some (s', a))
    (htells : Tells source k ⟨s, .push ord now tick shed, a, s'⟩) :
    Tracks source k (⟨s, .push ord now tick shed, a, s'⟩ :: past) s' := by
  have hpush := push_at hfiled hview hstep k
  have hnews : ∀ f, news source f k s (.push ord now tick shed)
      = (glance source s center k).filter fun state =>
          tells f now center (known source s k) state := by
    intro f
    unfold news
    rw [hview]
    rfl
  cases hseen : glance source s center k with
  | none => exact h.gone hpush hseen
  | some state =>
      rw [hseen] at hnews
      cases hlast : known source s k with
      | none => exact .appears hpush hseen hlast fun f => by rw [hnews f, hlast]; rfl
      | some last =>
          obtain ⟨lastAt, baseline⟩ := last
          have hsent := hpush.sent
          have harrives := hpush.arrives
          rw [hseen, hlast, Option.bind_some] at hsent
          rw [hseen, hlast] at harrives
          rw [hlast] at hnews
          rcases react_known now center lastAt baseline state with
            ⟨hquiet, hnothing⟩ | ⟨d, hd, hdue, hop⟩
          · refine h.quiet ?_ ?_ ?_
            · rw [hsent, hquiet, hlast]
              rfl
            · rw [harrives, opsFor, hquiet]
              exact ite_self _
            · intro f
              rw [hnews f, Option.filter_some, hnothing f]
              rfl
          · unfold Tracks at h ⊢
            rw [hlast] at h
            obtain ⟨copy, hfollows⟩ := h
            rw [hsent, hop]
            refine ⟨_, hfollows.updated hd ?_ ?_ ?_ ?_⟩
            · exact htells now rfl center hview state hseen (lastAt, baseline) hlast hdue
            · exact (hfiled.tracked k _ hlast).trans ((mem_glance hfiled).mp hseen).2.1.symm
            · rw [harrives, opsFor, hop]
              rfl
            · intro f
              rw [hnews f, Option.filter_some]
              unfold tells
              simp only [hdue, Bool.true_and]

theorem run_tracks {ingest : StateIngest F} {aoiRadius : F} {past : List (Done F)}
    (run : Run (PushLoop.step source) (start ingest aoiRadius) past s)
    (htells : Along (fun _ e => Tells source k e) past) :
    Filed source s ∧ Tracks source k past s := by
  refine run.invariant (I := fun past s => Filed source s ∧ Tracks source k past s)
    ⟨filed_start ingest aoiRadius, rfl⟩ ?_ htells
  rintro past s event a s' - ⟨hfiled, htracks⟩ hstep htells
  refine ⟨hfiled.step hstep, ?_⟩
  cases event with
  | merge batch labelled =>
      obtain ⟨rfl, rfl⟩ := Prod.mk.inj (Option.some.inj hstep)
      exact htracks.quiet rfl rfl fun f => rfl
  | players ingest =>
      obtain ⟨rfl, rfl⟩ := Prod.mk.inj (Option.some.inj hstep)
      exact htracks.quiet rfl rfl fun f => rfl
  | build ord =>
      obtain ⟨rfl, rfl⟩ := Prod.mk.inj (Option.some.inj hstep)
      exact htracks.quiet rfl rfl fun f => rfl
  | push ord now tick shed =>
      cases hview : viewpoint source s with
      | none =>
          obtain ⟨rfl, rfl⟩ := push_idle hview hstep
          exact htracks.quiet rfl rfl fun f => by unfold news; rw [hview]; rfl
      | some center => exact htracks.push hfiled hview hstep htells

end Telling

end PushLoop

end Baston.Gateway
