/-
What becomes of an entity that leaves its zone.

The scan hands over the entity as it was when the scan looked, and then removes whatever has
become of it.  What was written in between is lost with it, and so is an owner who got in.
Nothing keeps a later report from registering the id again.  Apart from that an entity arrives.
-/
import Baston.Lib.Trace
import Baston.Proofs.Snapshots
import Baston.Zone.EntityMigration

namespace Baston.Zone

open Assoc Trace Baston.Rage

variable {F : Type}

/-! ### Queues of entities -/

namespace EntityManager

theorem carried_append (queue : List (EntityState F)) (entity : EntityState F) (k : EntityId) :
    carried (queue ++ [entity]) k
      = if entity.entityId = k then some entity else carried queue k := by
  unfold carried
  rw [List.reverse_append, List.reverse_singleton, List.singleton_append, List.find?_cons]
  by_cases hk : entity.entityId = k
  · simp [hk]
  · simp [hk]

/-- What a store will hold once a queue is spawned into it. -/
def awaited (queue : List (EntityState F)) (m : EntityManager F) (k : EntityId) :
    Option (EntityState F) :=
  (carried queue k).or (m.get k)

theorem awaited_spawnEntity (entity : EntityState F) (rest : List (EntityState F))
    (m : EntityManager F) (k : EntityId) :
    awaited rest (m.spawnEntity entity) k = awaited (entity :: rest) m k := by
  unfold awaited
  rw [← get_spawnAll, ← get_spawnAll]
  rfl

theorem awaited_append (queue : List (EntityState F)) (entity : EntityState F)
    (m : EntityManager F) (k : EntityId) :
    awaited (queue ++ [entity]) m k
      = if entity.entityId = k then some entity else awaited queue m k := by
  unfold awaited
  rw [carried_append]
  split
  · rfl
  · rfl

end EntityManager

/-! ### What a scan has before it -/

namespace Scan

/-- The entities a scan still has to do with. -/
def pending : Scan F → List (EntityState F)
  | .idle => []
  | .resolving departed => departed
  | .handing departed _ => departed
  | .published entity _ departed _ => entity :: departed

/-- The entity that is published and not yet removed. -/
def publishing : Scan F → Option EntityId
  | .published entity _ _ _ => some entity.entityId
  | _ => none

end Scan

namespace Migration

abbrev Done (F : Type) := Entry (Migration F) (MigrationStep F) Unit

/-- An entity handed over: as it was published, where to, and the zone just before it removed
the entity. -/
structure Handed (F : Type) where
  sent : EntityState F
  target : ZoneId
  origin : StateIngest F

/-- The hand-over of `k` that this step completed. -/
def handedOver (k : EntityId) (e : Done F) : Option (Handed F) :=
  match e.op, e.pre.scan with
  | .remove, .published entity target _ _ =>
    if entity.entityId = k then some ⟨entity, target, e.pre.ingest⟩ else none
  | _, _ => none

/-- The last hand-over of `k`. -/
def lastHanded (k : EntityId) : List (Done F) → Option (Handed F)
  | [] => none
  | e :: past => (handedOver k e).or (lastHanded k past)

/-- The step registers an entity under the id. -/
def Registers (k : EntityId) (e : Done F) : Prop :=
  match e.op with
  | .apply _ fresh source update => e.pre.ingest.registers k fresh source update
  | _ => False

/-- A report has registered the id since it was last handed over. -/
def RegisteredSince (k : EntityId) : List (Done F) → Prop
  | [] => False
  | e :: past => handedOver k e = none ∧ (Registers k e ∨ RegisteredSince k past)

/-- What a zone will hold once everything in flight has arrived. -/
def awaited (m : Migration F) (target : ZoneId) (k : EntityId) : Option (EntityState F) :=
  EntityManager.awaited (m.inFlight target) (m.peers target) k

/-- What is known at any point. -/
structure Tracked (past : List (Done F)) (m : Migration F) : Prop where
  keyed : m.ingest.entityManager.Keyed
  live : ∀ entity ∈ m.scan.pending, (m.ingest.entityManager.get entity.entityId).isSome
  distinct : (m.scan.pending.map EntityState.entityId).Nodup
  published : ∀ entity target departed zoneOfCell,
    m.scan = .published entity target departed zoneOfCell →
      m.awaited target entity.entityId = some (payload entity)
  sent : ∀ k h, lastHanded k past = some h → h.sent.entityId = k
    ∧ (h.origin.entityManager.get k).isSome
    ∧ (m.scan.publishing ≠ some k → m.awaited h.target k = some (payload h.sent))
  gone : ∀ k h, lastHanded k past = some h →
    ((m.ingest.entityManager.get k).isSome ↔ RegisteredSince k past)

/-- A change of the zone's own entities that takes none away, with those it registers. -/
theorem Tracked.serve {past : List (Done F)} {m : Migration F} (h : Tracked past m)
    {e : Done F} {ingest : StateIngest F} (hkeyed : ingest.entityManager.Keyed)
    (hlive : ∀ k, (ingest.entityManager.get k).isSome
      ↔ (m.ingest.entityManager.get k).isSome ∨ Registers k e)
    (hnothing : ∀ k, handedOver k e = none) :
    Tracked (e :: past) { m with ingest := ingest } := by
  have hlast : ∀ k, lastHanded k (e :: past) = lastHanded k past := by
    intro k
    rw [lastHanded, hnothing k, Option.none_or]
  refine ⟨hkeyed, ?_, h.distinct, h.published, ?_, ?_⟩
  · intro entity hmem
    exact (hlive _).mpr (.inl (h.live entity hmem))
  · intro k hand hhand
    rw [hlast] at hhand
    exact h.sent k hand hhand
  · intro k hand hhand
    rw [hlast] at hhand
    rw [RegisteredSince]
    refine (hlive k).trans ?_
    rw [h.gone k hand hhand]
    constructor
    · rintro (hsince | hregisters)
      · exact ⟨hnothing k, .inr hsince⟩
      · exact ⟨hnothing k, .inl hregisters⟩
    · rintro ⟨-, hregisters | hsince⟩
      · exact .inr hregisters
      · exact .inl hsince

/-- A step of the scan or of a consumer that leaves the zone's own entities as they are. -/
theorem Tracked.move {past : List (Done F)} {m m' : Migration F} (h : Tracked past m)
    {e : Done F} (hingest : m'.ingest = m.ingest) (hnothing : ∀ k, handedOver k e = none)
    (hquiet : ∀ k, ¬ Registers k e)
    (hpending : (∀ entity ∈ m'.scan.pending,
        (m.ingest.entityManager.get entity.entityId).isSome)
      ∧ (m'.scan.pending.map EntityState.entityId).Nodup)
    (hpublished : ∀ entity target departed zoneOfCell,
      m'.scan = .published entity target departed zoneOfCell →
        m'.awaited target entity.entityId = some (payload entity))
    (hsent : ∀ k hand, lastHanded k past = some hand → m'.scan.publishing ≠ some k →
      m'.awaited hand.target k = some (payload hand.sent)) :
    Tracked (e :: past) m' := by
  have hlast : ∀ k, lastHanded k (e :: past) = lastHanded k past := by
    intro k
    rw [lastHanded, hnothing k, Option.none_or]
  refine ⟨hingest ▸ h.keyed, ?_, hpending.2, hpublished, ?_, ?_⟩
  · rw [hingest]
    exact hpending.1
  · intro k hand hhand
    rw [hlast] at hhand
    obtain ⟨hid, hlive, -⟩ := h.sent k hand hhand
    exact ⟨hid, hlive, hsent k hand hhand⟩
  · intro k hand hhand
    rw [hlast] at hhand
    rw [hingest, h.gone k hand hhand, RegisteredSince]
    constructor
    · exact fun hsince => ⟨hnothing k, .inr hsince⟩
    · rintro ⟨-, hregisters | hsince⟩
      · exact absurd hregisters (hquiet k)
      · exact hsince

variable [Scalar F] [BEq F]

omit [BEq F] in
theorem departed_spec (m : Migration F) (ord : IterOrder EntityId)
    (hkeyed : m.ingest.entityManager.Keyed) :
    (∀ entity ∈ m.departed ord, (m.ingest.entityManager.get entity.entityId).isSome)
      ∧ ((m.departed ord).map EntityState.entityId).Nodup := by
  have hids : ((m.ingest.entityManager.entities.visit ord).map Prod.snd).map EntityState.entityId
      = (m.ingest.entityManager.entities.visit ord).map Prod.fst := by
    rw [List.map_map]
    refine List.map_congr_left ?_
    rintro ⟨k, state⟩ hmem
    exact hkeyed k state (Map.mem_visit.mp hmem)
  constructor
  · intro entity hmem
    obtain ⟨⟨k, state⟩, hvisit, rfl⟩ := List.mem_map.mp (List.mem_of_mem_filter hmem)
    have hget := Map.mem_visit.mp hvisit
    rw [hkeyed k state hget]
    exact Option.isSome_of_eq_some hget
  · have hsub := (List.filter_sublist (p := m.departs)
      (l := (m.ingest.entityManager.entities.visit ord).map Prod.snd)).map EntityState.entityId
    refine hsub.nodup ?_
    rw [hids]
    exact Map.nodup_visit ord _

omit [Scalar F] [BEq F] in
/-- Publishing an entity changes what its target will hold under its id, and nothing else. -/
theorem awaited_publish (m : Migration F) (scan : Scan F) (entity : EntityState F)
    (target zone : ZoneId) (k : EntityId) :
    awaited { m with
        scan := scan
        inFlight := Function.update m.inFlight target (m.inFlight target ++ [payload entity]) }
      zone k
      = if zone = target ∧ entity.entityId = k then some (payload entity)
        else m.awaited zone k := by
  show EntityManager.awaited (Function.update m.inFlight target
    (m.inFlight target ++ [payload entity]) zone) (m.peers zone) k = _
  by_cases hzone : zone = target
  · subst hzone
    rw [Function.update_self, EntityManager.awaited_append]
    simp only [true_and]
    rfl
  · rw [Function.update_of_ne hzone, if_neg fun h => hzone h.1]
    rfl

omit [Scalar F] [BEq F] in
/-- Consuming what is in flight changes nothing of what a zone will hold. -/
theorem awaited_deliver {m : Migration F} {target : ZoneId} {entity : EntityState F}
    {rest : List (EntityState F)} (hqueue : m.inFlight target = entity :: rest) (zone : ZoneId)
    (k : EntityId) :
    awaited { m with
        inFlight := Function.update m.inFlight target rest
        peers := Function.update m.peers target ((m.peers target).spawnEntity entity) }
      zone k = m.awaited zone k := by
  show EntityManager.awaited (Function.update m.inFlight target rest zone)
    (Function.update m.peers target ((m.peers target).spawnEntity entity) zone) k = _
  by_cases hzone : zone = target
  · subst hzone
    rw [Function.update_self, Function.update_self, EntityManager.awaited_spawnEntity, ← hqueue]
    rfl
  · rw [Function.update_of_ne hzone, Function.update_of_ne hzone]
    rfl

theorem Tracked.publish {past : List (Done F)} {m m' : Migration F} (h : Tracked past m)
    {accepted : Bool} (hstep : step (.publish accepted) m = some (m', ())) :
    Tracked (⟨m, .publish accepted, (), m'⟩ :: past) m' := by
  simp only [step] at hstep
  split at hstep
  · next zoneOfCell hhanding =>
      obtain ⟨rfl, -⟩ := Prod.mk.inj (Option.some.inj hstep)
      refine h.move rfl (fun _ => rfl) (fun _ => id) ⟨nofun, List.nodup_nil⟩ ?_ ?_
      · intro entity target departed zoneOfCell hscan
        cases hscan
      · intro k hand hhand _
        refine (h.sent k hand hhand).2.2 ?_
        rw [hhanding]
        nofun
  · next entity departed zoneOfCell hhanding =>
      have hpending : m.scan.pending = entity :: departed := by
        rw [hhanding]
        rfl
      have hlive := h.live
      have hdistinct := h.distinct
      rw [hpending] at hlive hdistinct
      have hawaited : ∀ k hand, lastHanded k past = some hand →
          m.awaited hand.target k = some (payload hand.sent) := by
        intro k hand hhand
        refine (h.sent k hand hhand).2.2 ?_
        rw [hhanding]
        nofun
      split at hstep
      · next target htarget =>
          obtain ⟨rfl, -⟩ := Prod.mk.inj (Option.some.inj hstep)
          refine h.move rfl (fun _ => rfl) (fun _ => id) ⟨hlive, hdistinct⟩ ?_ ?_
          · intro entity' target' departed' zoneOfCell' hscan
            obtain ⟨rfl, rfl, -, -⟩ := Scan.published.inj hscan
            rw [awaited_publish, if_pos ⟨rfl, rfl⟩]
          · intro k hand hhand hother
            have hne : entity.entityId ≠ k := fun hk => hother (congrArg some hk)
            rw [awaited_publish, if_neg fun h => hne h.2]
            exact hawaited k hand hhand
      · obtain ⟨rfl, -⟩ := Prod.mk.inj (Option.some.inj hstep)
        refine h.move rfl (fun _ => rfl) (fun _ => id)
          ⟨fun e he => hlive e (List.mem_cons_of_mem _ he), (List.nodup_cons.mp hdistinct).2⟩
          ?_ ?_
        · intro entity target departed zoneOfCell hscan
          cases hscan
        · exact fun k hand hhand _ => hawaited k hand hhand
  · cases hstep

theorem Tracked.remove {past : List (Done F)} {m m' : Migration F} (h : Tracked past m)
    (hstep : step .remove m = some (m', ())) : Tracked (⟨m, .remove, (), m'⟩ :: past) m' := by
  simp only [step] at hstep
  split at hstep
  · next entity target departed zoneOfCell hpublished =>
      obtain ⟨rfl, -⟩ := Prod.mk.inj (Option.some.inj hstep)
      have hpending : m.scan.pending = entity :: departed := by
        rw [hpublished]
        rfl
      have hlive := h.live
      have hdistinct := h.distinct
      rw [hpending] at hlive hdistinct
      rw [List.map_cons, List.nodup_cons] at hdistinct
      have hover : ∀ k post, handedOver k (⟨m, .remove, (), post⟩ : Done F)
          = if entity.entityId = k then some ⟨entity, target, m.ingest⟩ else none := by
        intro k post
        simp only [handedOver, hpublished]
      have hget : ∀ k, (m.ingest.entityManager.removeEntity entity.entityId).1.get k
          = if k = entity.entityId then none else m.ingest.entityManager.get k :=
        EntityManager.get_removeEntity entity.entityId
      refine ⟨StateIngest.removeEntity_keyed h.keyed _, ?_, hdistinct.2, ?_, ?_, ?_⟩
      · intro other hmem
        have hne : other.entityId ≠ entity.entityId := fun hid =>
          hdistinct.1 (List.mem_map.mpr ⟨other, hmem, hid⟩)
        rw [hget, if_neg hne]
        exact hlive other (List.mem_cons_of_mem _ hmem)
      · intro entity target departed zoneOfCell hscan
        cases hscan
      · intro k hand hhand
        rw [lastHanded, hover] at hhand
        by_cases hk : entity.entityId = k
        · rw [if_pos hk, Option.some_or] at hhand
          obtain rfl := Option.some.inj hhand
          subst hk
          exact ⟨rfl, hlive entity List.mem_cons_self,
            fun _ => h.published entity target departed zoneOfCell hpublished⟩
        · rw [if_neg hk, Option.none_or] at hhand
          obtain ⟨hid, horigin, hawaited⟩ := h.sent k hand hhand
          refine ⟨hid, horigin, fun _ => hawaited ?_⟩
          rw [hpublished]
          exact fun hpublishing => hk (Option.some.inj hpublishing)
      · intro k hand hhand
        rw [RegisteredSince, hover, hget]
        rw [lastHanded, hover] at hhand
        by_cases hk : entity.entityId = k
        · rw [if_pos hk, if_pos hk.symm]
          exact iff_of_false nofun fun hsince => nomatch hsince.1
        · have hne : ¬ k = entity.entityId := fun hid => hk hid.symm
          rw [if_neg hk, Option.none_or] at hhand
          rw [if_neg hne, if_neg hk, h.gone k hand hhand]
          exact ⟨fun hsince => ⟨rfl, .inr hsince⟩, fun hsince => hsince.2.resolve_left id⟩
  · cases hstep

theorem tracked_step {past : List (Done F)} {m m' : Migration F} {op : MigrationStep F}
    (h : Tracked past m) (hstep : step op m = some (m', ())) :
    Tracked (⟨m, op, (), m'⟩ :: past) m' := by
  cases op with
  | apply now fresh source update =>
      obtain ⟨⟨ingest, answer⟩, hingest, heq⟩ := Option.map_eq_some_iff.mp hstep
      obtain ⟨rfl, -⟩ := Prod.mk.inj heq
      refine h.serve (StateIngest.step_keyed h.keyed hingest) ?_ fun _ => rfl
      intro k
      simp only [StateIngest.step] at hingest
      split at hingest
      · cases hingest
      · obtain ⟨rfl, rfl⟩ := Prod.mk.inj (Option.some.inj hingest)
        exact StateIngest.get_apply_isSome now fresh source update k
  | setNetworkOwner id owner =>
      obtain ⟨rfl, -⟩ := Prod.mk.inj (Option.some.inj hstep)
      refine h.serve (EntityManager.perform_keyed h.keyed (.setNetworkOwner id owner)) ?_
        fun _ => rfl
      intro k
      rw [EntityManager.get_setNetworkOwner]
      refine Iff.trans ?_ (or_iff_left_of_imp False.elim).symm
      split
      · rw [Option.isSome_map]
      · rfl
  | snapshot ord =>
      simp only [step] at hstep
      split at hstep
      · next hidle =>
          have hscan : ∀ {k}, m.scan.publishing ≠ some k := by
            intro k hk
            rw [hidle] at hk
            cases hk
          split at hstep
          · obtain ⟨rfl, -⟩ := Prod.mk.inj (Option.some.inj hstep)
            exact h.move rfl (fun _ => rfl) (fun _ => id) ⟨h.live, h.distinct⟩ h.published
              fun k hand hhand => (h.sent k hand hhand).2.2
          · obtain ⟨rfl, -⟩ := Prod.mk.inj (Option.some.inj hstep)
            refine h.move rfl (fun _ => rfl) (fun _ => id) (departed_spec m ord h.keyed) ?_ ?_
            · intro entity target departed zoneOfCell hscan'
              cases hscan'
            · intro k hand hhand _
              exact (h.sent k hand hhand).2.2 hscan
      · cases hstep
  | resolve zoneOfCell =>
      simp only [step] at hstep
      split at hstep
      · next departed hresolving =>
          obtain ⟨rfl, -⟩ := Prod.mk.inj (Option.some.inj hstep)
          have hpending : m.scan.pending = departed := by
            rw [hresolving]
            rfl
          refine h.move rfl (fun _ => rfl) (fun _ => id)
            ⟨hpending ▸ h.live, hpending ▸ h.distinct⟩ ?_ ?_
          · intro entity target departed zoneOfCell hscan
            cases hscan
          · intro k hand hhand _
            refine (h.sent k hand hhand).2.2 ?_
            rw [hresolving]
            intro hk
            cases hk
      · cases hstep
  | publish accepted => exact h.publish hstep
  | remove => exact h.remove hstep
  | deliver target =>
      simp only [step] at hstep
      split at hstep
      · cases hstep
      · next entity rest hqueue =>
          obtain ⟨rfl, -⟩ := Prod.mk.inj (Option.some.inj hstep)
          refine h.move rfl (fun _ => rfl) (fun _ => id) ⟨h.live, h.distinct⟩ ?_ ?_
          · intro entity target departed zoneOfCell hscan
            rw [awaited_deliver hqueue]
            exact h.published entity target departed zoneOfCell hscan
          · intro k hand hhand hother
            rw [awaited_deliver hqueue]
            exact (h.sent k hand hhand).2.2 hother

/-! ### Runs -/

/-- The zone before its first scan. -/
def start (zoneId : ZoneId) (bounds : Aabb F) (ingest : StateIngest F)
    (peers : ZoneId → EntityManager F) : Migration F where
  zoneId := zoneId
  bounds := bounds
  ingest := ingest
  peers := peers

theorem run_tracked {zoneId : ZoneId} {bounds : Aabb F} {ingest : StateIngest F}
    {peers : ZoneId → EntityManager F} (hkeyed : ingest.entityManager.Keyed)
    {past : List (Done F)} {m : Migration F}
    (run : Run step (start zoneId bounds ingest peers) past m) : Tracked past m := by
  induction run with
  | nil =>
      refine ⟨hkeyed, ?_, List.nodup_nil, ?_, ?_, ?_⟩
      · intro entity hmem
        cases hmem
      · intro entity target departed zoneOfCell hscan
        cases hscan
      · intro k h hlast
        rw [lastHanded] at hlast
        cases hlast
      · intro k h hlast
        rw [lastHanded] at hlast
        cases hlast
  | snoc run h ih => exact tracked_step ih h

/-- No scan is under way, and everything published has been consumed. -/
structure Quiet (m : Migration F) : Prop where
  scan : m.scan = .idle
  inFlight : ∀ target, m.inFlight target = []

/-- The entity is in the target zone alone, as the zone last had it, and no player of the zone
had taken it over. -/
def Intact (m : Migration F) (k : EntityId) (hand : Handed F) : Prop :=
  m.ingest.entityManager.get k = none ∧ ∃ last, hand.origin.entityManager.get k = some last
    ∧ (m.peers hand.target).get k = some (payload last)
    ∧ ∀ owner, last.networkOwner = some owner → hand.origin.connected owner = false

/-- Between the look of the scan and the removal nothing was written to the entity, and no
player of the zone took it over. -/
def Handed.Unchanged (k : EntityId) (hand : Handed F) : Prop :=
  ∃ last, hand.origin.entityManager.get k = some last ∧ payload last = payload hand.sent
    ∧ ∀ owner, last.networkOwner = some owner → hand.origin.connected owner = false

/-- **An entity arrives intact exactly when nothing happened to it on its way out**, and no
report registered its id afterwards. -/
theorem migrated_intact_iff {zoneId : ZoneId} {bounds : Aabb F} {ingest : StateIngest F}
    {peers : ZoneId → EntityManager F} (hkeyed : ingest.entityManager.Keyed)
    {past : List (Done F)} {m : Migration F}
    (run : Run step (start zoneId bounds ingest peers) past m) (hquiet : m.Quiet)
    {k : EntityId} {hand : Handed F} (hhand : lastHanded k past = some hand) :
    m.Intact k hand ↔ hand.Unchanged k ∧ ¬ RegisteredSince k past := by
  have htracked := run_tracked hkeyed run
  obtain ⟨hid, hlive, hawaited⟩ := htracked.sent k hand hhand
  have hgone := htracked.gone k hand hhand
  have harrived : (m.peers hand.target).get k = some (payload hand.sent) := by
    have hall := hawaited (by rw [hquiet.scan]; nofun)
    unfold awaited EntityManager.awaited at hall
    rw [hquiet.inFlight] at hall
    exact hall
  rw [← hgone, Bool.not_eq_true, Option.isSome_eq_false_iff, Option.isNone_iff_eq_none]
  unfold Intact Handed.Unchanged
  rw [harrived]
  constructor
  · rintro ⟨habsent, last, hlast, hsame, howner⟩
    exact ⟨⟨last, hlast, (Option.some.inj hsame).symm, howner⟩, habsent⟩
  · rintro ⟨⟨last, hlast, hsame, howner⟩, habsent⟩
    exact ⟨habsent, last, hlast, congrArg some hsame.symm, howner⟩

/-! ### A parked vehicle -/

/-- A vehicle that stands 10 m east of zone a, and is nobody's. -/
def vehicle : EntityState Float32 where
  entityId := 5
  entityType := .vehicle
  networkOwner := none
  modelHash := 1
  coords := ⟨10.0, 0.0, 0.0⟩
  heading := 0.0
  velocity := ⟨0.0, 0.0, 0.0⟩
  health := 1000.0
  armour := 0.0
  extra := .vehicle 0.0 1000.0 0

/-- The ped of player 1. -/
def driver : EntityState Float32 :=
  { vehicle with
    entityId := 11, entityType := .player, networkOwner := some 1, extra := .player false none }

/-- Zone a, with the vehicle and player 1. -/
def zoneA : Migration Float32 :=
  start "a" ⟨-100.0, -100.0, 0.0, 100.0⟩
    { StateIngest.new (EntityManager.new.spawnAll [vehicle, driver]) 200.0 with
      playerEntities := AList.insert 1 11 ∅ }
    fun _ => EntityManager.new

theorem zoneA_keyed : zoneA.ingest.entityManager.Keyed := by
  refine StateIngest.spawnAll_keyed ?_ [vehicle, driver]
  intro k state hk
  cases hk

/-- The scan finds the vehicle. -/
theorem zoneA_look :
    step (.snapshot (.stored _)) zoneA = some ({ zoneA with scan := .resolving [vehicle] }, ()) := by
  have hidle : zoneA.scan = .idle := rfl
  have hdriver : zoneA.departs driver = false := rfl
  have hvehicle : zoneA.departs vehicle = true := by decide +kernel
  have hdeparted : zoneA.departed (.stored _) = [vehicle] := by
    show [driver, vehicle].filter zoneA.departs = [vehicle]
    rw [List.filter_cons_of_neg (by rw [hdriver]; nofun), List.filter_cons_of_pos hvehicle]
    rfl
  simp only [step, hidle, hdeparted]

/-- The rest of the scan, with what happens before the vehicle is published. -/
def handOver (meanwhile : List (MigrationStep Float32)) : List (MigrationStep Float32) :=
  .resolve (fun _ => some "b") :: meanwhile ++ [.publish true, .remove, .publish true, .deliver "b"]

theorem quiet_of_delivered {m : Migration Float32} (hscan : m.scan = .idle)
    (hqueue : ∃ queue, m.inFlight
      = Function.update (Function.update (fun _ => []) "b" queue) "b" []) : m.Quiet := by
  refine ⟨hscan, ?_⟩
  obtain ⟨queue, hqueue⟩ := hqueue
  intro target
  rw [hqueue]
  exact forall_update (P := fun _ queue => queue = []) rfl
    (fun zone hzone => Function.update_of_ne hzone _ _) target

theorem not_registeredSince {k : EntityId} : ∀ {past : List (Done Float32)},
    (∀ e ∈ past, ¬ Registers k e) → ¬ RegisteredSince k past := by
  intro past
  induction past with
  | nil => exact fun _ => id
  | cons e past ih =>
      rintro h ⟨-, hregisters | hsince⟩
      · exact h e List.mem_cons_self hregisters
      · exact ih (fun e he => h e (List.mem_cons_of_mem _ he)) hsince

/-- A vehicle nobody touches arrives in zone b. -/
theorem parked_arrives :
    ∃ (past : List (Done Float32)) (m : Migration Float32) (hand : Handed Float32),
      Run step zoneA past m ∧ lastHanded 5 past = some hand ∧ m.Intact 5 hand := by
  have run := run_of_history (handOver []) (Run.nil.snoc zoneA_look) rfl
  refine ⟨_, _, _, run, rfl, (migrated_intact_iff zoneA_keyed run
    (quiet_of_delivered rfl ⟨[payload vehicle], rfl⟩) rfl).mpr ⟨?_, ?_⟩⟩
  · exact ⟨vehicle, rfl, rfl, nofun⟩
  · refine not_registeredSince ?_
    simp only [List.forall_mem_cons]
    exact ⟨id, id, id, id, id, id, fun _ he => absurd he List.not_mem_nil⟩

/-- **A vehicle that a player gets into meanwhile is taken away from it.** -/
theorem taken_from_driver :
    ¬ ∀ (past : List (Done Float32)) (m : Migration Float32) (hand : Handed Float32),
      Run step zoneA past m → m.Quiet → lastHanded 5 past = some hand → m.Intact 5 hand := by
  intro h
  have run := run_of_history (handOver [.setNetworkOwner 5 (some 1)]) (Run.nil.snoc zoneA_look) rfl
  obtain ⟨-, last, hlast, -, howner⟩ := h _ _ _ run
    (quiet_of_delivered rfl ⟨[payload vehicle], rfl⟩) rfl
  obtain rfl : { vehicle with networkOwner := some 1 } = last := Option.some.inj hlast
  have hconnected : true = false := howner 1 rfl
  cases hconnected

end Migration

end Baston.Zone
