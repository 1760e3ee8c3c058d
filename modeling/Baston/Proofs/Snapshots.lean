/-
What a handoff carries from one zone to the next.

Restoring a snapshot gives a zone exactly what the snapshot was taken of: the ped and the
entities of the player as they were when it was taken.  It is not taken again when the player
crosses, and the last zone destroys what the player has by the time it lets go.  So the next zone
has what the last one had at the crossing exactly when nothing of the player's changed in between,
and nothing is lost exactly when nothing was gained or changed up to the release.
-/
import Baston.Lib.Trace
import Baston.Proofs.Ingest
import Baston.Zone.BoundaryLoop

namespace Baston.Zone

open Assoc Trace Baston.Rage

variable {F : Type}

namespace StateIngest

/-! ### What a player has -/

/-- The player's ped. -/
def ped (source : UInt32) (s : StateIngest F) : Option (EntityState F) :=
  (s.playerEntity source).bind s.entityManager.get

/-- The entity under an id, if the player owns it. -/
def belongings (source : UInt32) (s : StateIngest F) (k : EntityId) : Option (EntityState F) :=
  (s.entityManager.get k).filter fun state => state.networkOwner = some source

/-- The entity under an id, if it is the player's: its ped, or one it owns. -/
def mine (source : UInt32) (s : StateIngest F) (k : EntityId) : Option (EntityState F) :=
  if s.playerEntity source = some k then s.entityManager.get k else s.belongings source k

/-- Two zones have the same of a player. -/
structure Agree (source : UInt32) (a b : StateIngest F) : Prop where
  ped : a.ped source = b.ped source
  belongings : ∀ k, a.belongings source k = b.belongings source k

/-- The last zone has of a player what the first has, and what the second has where the first has
nothing. -/
structure Carried (source : UInt32) (a b c : StateIngest F) : Prop where
  ped : c.ped source = (a.ped source).or ((b.playerEntity source).bind fun k =>
    (a.mine source k).or (b.entityManager.get k))
  belongings : ∀ k, c.belongings source k
    = if (a.mine source k).isSome then a.belongings source k else b.belongings source k

/-- The zone has nothing of the player's. -/
structure Stranger (source : UInt32) (s : StateIngest F) : Prop where
  ped : s.playerEntity source = none
  belongings : ∀ k, s.belongings source k = none

/-- What goes from one zone is in another. -/
def Survives (a a' b : StateIngest F) : Prop :=
  ∀ k, (a.entityManager.get k).isSome → a'.entityManager.get k = none →
    (b.entityManager.get k).isSome

/-- What goes from one zone is in another as it was. -/
def SurvivesAsIs (a a' b : StateIngest F) : Prop :=
  ∀ k state, a.entityManager.get k = some state → a'.entityManager.get k = none →
    b.entityManager.get k = some state

variable {source : UInt32} {a b c : StateIngest F}

theorem Agree.refl (a : StateIngest F) : Agree source a a := ⟨rfl, fun _ => rfl⟩

theorem Agree.symm (h : Agree source a b) : Agree source b a :=
  ⟨h.ped.symm, fun k => (h.belongings k).symm⟩

theorem Agree.trans (h : Agree source a b) (h' : Agree source b c) : Agree source a c :=
  ⟨h.ped.trans h'.ped, fun k => (h.belongings k).trans (h'.belongings k)⟩

theorem get_of_mine {k : EntityId} {state : EntityState F} (h : a.mine source k = some state) :
    a.entityManager.get k = some state := by
  unfold mine at h
  split at h
  · exact h
  · exact (Option.filter_eq_some_iff.mp h).1

theorem belongings_of_not_mine {k : EntityId} (h : a.mine source k = none) :
    a.belongings source k = none := by
  unfold mine at h
  split at h
  · rw [belongings, h]
    rfl
  · exact h

/-- In a zone that has nothing of the player's, what is carried there is all there is. -/
theorem Stranger.carried_iff (h : b.Stranger source) : Carried source a b c ↔ Agree source c a := by
  have hbelongings : ∀ k, (if (a.mine source k).isSome then a.belongings source k
      else b.belongings source k) = a.belongings source k := by
    intro k
    cases hmine : a.mine source k with
    | some state => rfl
    | none => exact (h.belongings k).trans (belongings_of_not_mine hmine).symm
  constructor
  · intro hc
    refine ⟨?_, fun k => (hc.belongings k).trans (hbelongings k)⟩
    rw [hc.ped, h.ped, Option.bind_none, Option.or_none]
  · intro hagree
    refine ⟨?_, fun k => (hagree.belongings k).trans (hbelongings k).symm⟩
    rw [hagree.ped, h.ped, Option.bind_none, Option.or_none]

/-! ### Taking and restoring a snapshot -/

/-- A list in which the ids are those of a store says of each what the store does. -/
theorem carried_of_mem {restored : List (EntityState F)} {k : EntityId} {state : EntityState F}
    (hmem : state ∈ restored) (hid : state.entityId = k)
    (hunique : ∀ other ∈ restored, other.entityId = k → other = state) :
    EntityManager.carried restored k = some state := by
  unfold EntityManager.carried
  cases hfind : restored.reverse.find? fun state => state.entityId = k with
  | none =>
      have hnone := List.find?_eq_none.mp hfind state (List.mem_reverse.mpr hmem)
      simp [hid] at hnone
  | some found =>
      have hfound := List.find?_some hfind
      have hin := List.mem_reverse.mp (List.mem_of_find?_eq_some hfind)
      exact congrArg some (hunique found hin (by simpa using hfound))

theorem mem_buildSnapshot {ord : IterOrder EntityId} {coords : Vec3 F}
    (hkeyed : a.entityManager.Keyed) {state : EntityState F} :
    state ∈ (a.buildSnapshot ord source coords).entities
      ↔ a.entityManager.get state.entityId = some state
        ∧ (a.playerEntity source = some state.entityId ∨ state.networkOwner = some source) := by
  unfold PlayerStateSnapshot.entities buildSnapshot EntityManager.entitiesOwnedBy
  simp only [List.mem_append, List.mem_filter, List.mem_map, Option.mem_toList,
    decide_eq_true_eq, Option.bind_eq_some_iff]
  constructor
  · rintro (⟨⟨⟨⟨k, state'⟩, hvisit, rfl⟩, howner⟩, -⟩ | ⟨k, hped, hget⟩)
    · have hget := Map.mem_visit.mp hvisit
      rw [hkeyed k state' hget]
      exact ⟨hget, .inr howner⟩
    · rw [hkeyed k state hget]
      exact ⟨hget, .inl hped⟩
  · rintro ⟨hget, hmine⟩
    by_cases hped : a.playerEntity source = some state.entityId
    · exact .inr ⟨_, hped, hget⟩
    · refine .inl ⟨⟨⟨(state.entityId, state), Map.mem_visit.mpr hget, rfl⟩, ?_⟩,
        fun h => hped h.symm⟩
      exact hmine.resolve_left hped

/-- What a snapshot carries under an id. -/
theorem carried_buildSnapshot (hkeyed : a.entityManager.Keyed) (ord : IterOrder EntityId)
    (coords : Vec3 F) (k : EntityId) :
    EntityManager.carried (a.buildSnapshot ord source coords).entities k = a.mine source k := by
  have hsome : ∀ state, a.entityManager.get k = some state →
      (a.playerEntity source = some k ∨ state.networkOwner = some source) →
      EntityManager.carried (a.buildSnapshot ord source coords).entities k = some state := by
    intro state hget hmine
    have hid := hkeyed k state hget
    refine carried_of_mem ((mem_buildSnapshot hkeyed).mpr ?_) hid ?_
    · rw [hid]
      exact ⟨hget, hmine⟩
    · intro other hother hk
      have hget' := ((mem_buildSnapshot hkeyed).mp hother).1
      rw [hk] at hget'
      exact Option.some.inj (hget'.symm.trans hget)
  have hnone : (∀ state, a.entityManager.get k = some state →
      ¬ (a.playerEntity source = some k ∨ state.networkOwner = some source)) →
      EntityManager.carried (a.buildSnapshot ord source coords).entities k = none := by
    intro hnot
    unfold EntityManager.carried
    rw [List.find?_eq_none]
    intro state hmem
    have hstate := (mem_buildSnapshot hkeyed).mp (List.mem_reverse.mp hmem)
    rw [decide_eq_true_eq]
    rintro rfl
    exact hnot state hstate.1 hstate.2
  unfold mine belongings
  by_cases hped : a.playerEntity source = some k
  · rw [if_pos hped]
    cases hget : a.entityManager.get k with
    | some state => exact hsome state hget (.inl hped)
    | none =>
        refine hnone ?_
        intro state hstate
        rw [hget] at hstate
        cases hstate
  · rw [if_neg hped]
    cases hget : a.entityManager.get k with
    | some state =>
        by_cases howner : state.networkOwner = some source
        · rw [Option.filter_some, if_pos (by simpa using howner)]
          exact hsome state hget (.inr howner)
        · rw [Option.filter_some, if_neg (by simpa using howner)]
          refine hnone ?_
          rintro state' hstate' (hped' | howner')
          · exact hped hped'
          · rw [hget] at hstate'
            obtain rfl := Option.some.inj hstate'
            exact howner howner'
    | none =>
        refine hnone ?_
        intro state hstate
        rw [hget] at hstate
        cases hstate

/-- What a zone has under an id once a player has been restored there. -/
theorem get_restored (hkeyed : a.entityManager.Keyed) (ord : IterOrder EntityId) (coords : Vec3 F)
    (now : Nat) (k : EntityId) :
    (b.restorePlayerState now (a.buildSnapshot ord source coords)).1.entityManager.get k
      = (a.mine source k).or (b.entityManager.get k) :=
  (get_restorePlayerState now _ k).trans
    (congrArg (Option.or · _) (carried_buildSnapshot hkeyed ord coords k))

/-- The ped of a restored player is the one its snapshot was taken of. -/
theorem ped_restored (hkeyed : a.entityManager.Keyed) (ord : IterOrder EntityId) (coords : Vec3 F)
    (now : Nat) :
    (b.restorePlayerState now (a.buildSnapshot ord source coords)).1.ped source
      = (a.ped source).or ((b.playerEntity source).bind fun k =>
        (a.mine source k).or (b.entityManager.get k)) := by
  have hplayer : (b.restorePlayerState now
      (a.buildSnapshot ord source coords)).1.playerEntity source
        = ((a.ped source).map fun ped => ped.entityId).or (b.playerEntity source) := by
    refine (restorePlayerState_playerEntity now _ source).trans ?_
    rw [show (a.buildSnapshot ord source coords).sourceId = source from rfl, if_pos rfl]
    rfl
  show (StateIngest.playerEntity source _).bind _ = _
  rw [hplayer]
  cases hped : a.ped source with
  | some state =>
      obtain ⟨k, hk, hget⟩ := Option.bind_eq_some_iff.mp hped
      have hmine : a.mine source k = some state := (if_pos hk).trans hget
      rw [Option.map_some, Option.some_or, Option.bind_some, hkeyed k state hget,
        get_restored hkeyed, hmine, Option.some_or, Option.some_or]
  | none =>
      rw [Option.map_none, Option.none_or, Option.none_or]
      exact congrArg _ (funext fun k => get_restored hkeyed ord coords now k)

/-- A restored player owns what its snapshot was taken of. -/
theorem belongings_restored (hkeyed : a.entityManager.Keyed) (ord : IterOrder EntityId)
    (coords : Vec3 F) (now : Nat) (k : EntityId) :
    (b.restorePlayerState now (a.buildSnapshot ord source coords)).1.belongings source k
      = if (a.mine source k).isSome then a.belongings source k else b.belongings source k := by
  unfold belongings
  rw [get_restored hkeyed]
  cases hmine : a.mine source k with
  | some state => rw [Option.some_or, Option.isSome_some, if_pos rfl, get_of_mine hmine]
  | none => rfl

/-- **A restored player has what its snapshot was taken of**, and what the zone had of the player's
besides. -/
theorem restored_agree_iff (hkeyed : a.entityManager.Keyed) (ord : IterOrder EntityId)
    (coords : Vec3 F) (now : Nat) :
    Agree source (b.restorePlayerState now (a.buildSnapshot ord source coords)).1 c
      ↔ Carried source a b c := by
  have hped : ped source (b.restorePlayerState now (a.buildSnapshot ord source coords)).1 = _ :=
    ped_restored hkeyed ord coords now
  have hbelongings : ∀ k, belongings source
      (b.restorePlayerState now (a.buildSnapshot ord source coords)).1 k = _ :=
    belongings_restored hkeyed ord coords now
  constructor
  · intro h
    exact ⟨h.ped.symm.trans hped, fun k => (h.belongings k).symm.trans (hbelongings k)⟩
  · intro h
    exact ⟨hped.trans h.ped.symm, fun k => (hbelongings k).trans (h.belongings k).symm⟩

/-! ### Every entity under its own id -/

theorem mount_keyed {m : EntityManager F} (h : m.Keyed) (source : UInt32)
    (extra : Option (EntityExtra F)) : (mount source extra m).Keyed := by
  intro k state hk
  rw [get_mount] at hk
  by_cases hmounted : mounted extra = some k
  · rw [if_pos hmounted] at hk
    obtain ⟨old, hold, rfl⟩ := Option.map_eq_some_iff.mp hk
    exact h k old hold
  · rw [if_neg hmounted] at hk
    exact h k state hk

theorem spawnAll_keyed {m : EntityManager F} (h : m.Keyed) (restored : List (EntityState F)) :
    (m.spawnAll restored).Keyed := by
  refine List.foldlRecOn (motive := fun m => EntityManager.Keyed m) restored _ h ?_
  intro m hm entity _ k state hk
  rw [EntityManager.get_spawnEntity] at hk
  by_cases hid : k = entity.entityId
  · rw [if_pos hid] at hk
    rw [← Option.some.inj hk, hid]
  · rw [if_neg hid] at hk
    exact hm k state hk

theorem removeEntity_keyed {m : EntityManager F} (h : m.Keyed) (id : EntityId) :
    (m.removeEntity id).1.Keyed := by
  intro k state hk
  rw [EntityManager.get_removeEntity] at hk
  by_cases hid : k = id
  · rw [if_pos hid] at hk
    cases hk
  · rw [if_neg hid] at hk
    exact h k state hk

theorem write_keyed [Scalar F] [BEq F] (h : a.entityManager.Keyed) (now : Nat) (id : EntityId)
    (update : ClientStateUpdate F) : (a.write now source id update).1.entityManager.Keyed := by
  cases hnear : a.teleports now id update.coords with
  | true =>
      rw [write_teleports hnear]
      exact h
  | false =>
      intro k state hk
      rw [get_write hnear] at hk
      by_cases hid : k = id
      · rw [if_pos hid] at hk
        obtain ⟨old, hold, rfl⟩ := Option.map_eq_some_iff.mp hk
        exact (applyUpdate_sameIdentity _ old).entityId.trans (mount_keyed h source _ k old hold)
      · rw [if_neg hid] at hk
        exact mount_keyed h source _ k state hk

theorem apply_keyed [Scalar F] [BEq F] (h : a.entityManager.Keyed) (now : Nat) (fresh : EntityId)
    (update : ClientStateUpdate F) :
    (a.apply now fresh source update).1.entityManager.Keyed := by
  have hspec := apply_spec now fresh source update a
  generalize a.apply now fresh source update = r at hspec
  cases hspec with
  | written _ => exact write_keyed h now _ update
  | firstPed _ _ => exact spawnAll_keyed h [_]
  | registered _ _ _ => exact spawnAll_keyed h [_]
  | refused _ _ _ => exact h

theorem onPlayerDropped_keyed (h : a.entityManager.Keyed) (source : UInt32) :
    (a.onPlayerDropped source).entityManager.Keyed := by
  unfold onPlayerDropped
  cases a.playerEntities.lookup source with
  | none => exact h
  | some ped => exact removeEntity_keyed h ped

theorem step_keyed [Scalar F] [BEq F] {call : Call F}
    {answer : Option (Except RejectReason EntityId)} (h : a.entityManager.Keyed)
    (hstep : step call a = some (b, answer)) : b.entityManager.Keyed := by
  cases call with
  | apply now fresh source update =>
      simp only [step] at hstep
      split at hstep
      · cases hstep
      · obtain ⟨rfl, rfl⟩ := Prod.mk.inj (Option.some.inj hstep)
        exact apply_keyed h now fresh update
  | restorePlayerState now snapshot =>
      obtain ⟨rfl, rfl⟩ := Prod.mk.inj (Option.some.inj hstep)
      rw [restorePlayerState_manager]
      exact spawnAll_keyed h snapshot.entities
  | onPlayerDropped source =>
      obtain ⟨rfl, rfl⟩ := Prod.mk.inj (Option.some.inj hstep)
      exact onPlayerDropped_keyed h source

theorem postHandoffCleanup_keyed (h : a.entityManager.Keyed) (ord : IterOrder EntityId)
    (source : UInt32) : (a.postHandoffCleanup ord source).entityManager.Keyed := by
  refine onPlayerDropped_keyed ?_ source
  exact List.foldlRecOn (motive := fun m => EntityManager.Keyed m) _ _ h
    fun _ hm entity _ => removeEntity_keyed hm (EntityState.entityId entity)

/-- A release destroys the player's ped and what the player owns, and nothing else. -/
theorem get_postHandoffCleanup (hkeyed : a.entityManager.Keyed) (ord : IterOrder EntityId)
    (k : EntityId) :
    (a.postHandoffCleanup ord source).entityManager.get k
      = if (a.mine source k).isSome then none else a.entityManager.get k := by
  have hgone : (∃ state ∈ a.entityManager.entitiesOwnedBy ord source, state.entityId = k)
      ↔ (a.belongings source k).isSome := by
    unfold EntityManager.entitiesOwnedBy belongings
    simp only [List.mem_filter, List.mem_map, decide_eq_true_eq, Option.isSome_iff_exists,
      Option.filter_eq_some_iff]
    constructor
    · rintro ⟨state, ⟨⟨⟨k', state'⟩, hvisit, rfl⟩, howner⟩, hid⟩
      have hget := Map.mem_visit.mp hvisit
      obtain rfl : k' = k := (hkeyed k' state' hget).symm.trans hid
      exact ⟨state', hget, howner⟩
    · rintro ⟨state, hget, howner⟩
      exact ⟨state, ⟨⟨(k, state), Map.mem_visit.mpr hget, rfl⟩, howner⟩, hkeyed k state hget⟩
  have hcleanup : (a.postHandoffCleanup ord source).entityManager.get k
      = if a.playerEntity source = some k then none
        else (a.entityManager.removeAll (a.entityManager.entitiesOwnedBy ord source)).get k :=
    get_onPlayerDropped source k
  rw [hcleanup, EntityManager.get_removeAll]
  simp only [hgone]
  unfold mine
  by_cases hped : a.playerEntity source = some k
  · rw [if_pos hped, if_pos hped]
    cases a.entityManager.get k with
    | some state => rfl
    | none => rfl
  · rw [if_neg hped, if_neg hped]

/-- What a release destroys was the player's. -/
theorem destroyed_iff (hkeyed : a.entityManager.Keyed) (ord : IterOrder EntityId) {k : EntityId}
    {state : EntityState F} :
    a.entityManager.get k = some state
        ∧ (a.postHandoffCleanup ord source).entityManager.get k = none
      ↔ a.mine source k = some state := by
  rw [get_postHandoffCleanup hkeyed]
  constructor
  · rintro ⟨hget, hgone⟩
    cases hmine : a.mine source k with
    | some state' => rw [← hget, get_of_mine hmine]
    | none =>
        rw [hmine, Option.isSome_none, if_neg Bool.false_ne_true, hget] at hgone
        cases hgone
  · intro hmine
    exact ⟨get_of_mine hmine, if_pos (by rw [hmine]; rfl)⟩

/-- **What a release destroys is in a zone the player was restored in** exactly when the player had
it when the snapshot was taken, or the zone had it already. -/
theorem survives_iff {p : StateIngest F} (hp : p.entityManager.Keyed) (ha : a.entityManager.Keyed)
    (ord ord' : IterOrder EntityId) (coords : Vec3 F) (now : Nat) :
    Survives a (a.postHandoffCleanup ord' source)
        (b.restorePlayerState now (p.buildSnapshot ord source coords)).1
      ↔ ∀ k, (a.mine source k).isSome →
        (p.mine source k).isSome ∨ (b.entityManager.get k).isSome := by
  unfold Survives
  simp only [get_restored hp, Option.isSome_or, Bool.or_eq_true]
  constructor
  · intro h k hmine
    obtain ⟨state, hstate⟩ := Option.isSome_iff_exists.mp hmine
    obtain ⟨hget, hgone⟩ := (destroyed_iff ha ord').mpr hstate
    exact h k (by rw [hget]; rfl) hgone
  · intro h k hlive hgone
    obtain ⟨state, hget⟩ := Option.isSome_iff_exists.mp hlive
    exact h k (by rw [(destroyed_iff ha ord').mp ⟨hget, hgone⟩]; rfl)

/-- And it is there as it was exactly when it had not changed since. -/
theorem survivesAsIs_iff {p : StateIngest F} (hp : p.entityManager.Keyed)
    (ha : a.entityManager.Keyed) (ord ord' : IterOrder EntityId) (coords : Vec3 F) (now : Nat) :
    SurvivesAsIs a (a.postHandoffCleanup ord' source)
        (b.restorePlayerState now (p.buildSnapshot ord source coords)).1
      ↔ ∀ k state, a.mine source k = some state → p.mine source k = some state
        ∨ p.mine source k = none ∧ b.entityManager.get k = some state := by
  unfold SurvivesAsIs
  simp only [get_restored hp, Option.or_eq_some_iff]
  constructor
  · intro h k state hmine
    obtain ⟨hget, hgone⟩ := (destroyed_iff ha ord').mpr hmine
    exact h k state hget hgone
  · intro h k state hget hgone
    exact h k state ((destroyed_iff ha ord').mp ⟨hget, hgone⟩)

end StateIngest

/-! ### A journey -/

namespace Journey

abbrev Done (F : Type) := Entry (Journey F) (Move F) Answer

/-- The zone the player is in, when the last snapshot was taken. -/
def preparedAt : List (Done F) → Option (StateIngest F)
  | [] => none
  | e :: past => match e.op with
    | .prepare _ _ _ => some (e.pre.zones e.pre.home)
    | _ => preparedAt past

/-- The zone the player is in, when the last crossing was confirmed. -/
def confirmedAt : List (Done F) → Option (StateIngest F)
  | [] => none
  | e :: past => match e.op with
    | .confirm => some (e.pre.zones e.pre.home)
    | _ => confirmedAt past

/-- The zone the player was last activated in, before and after. -/
def activatedAt : List (Done F) → Option (StateIngest F × StateIngest F)
  | [] => none
  | e :: past => match e.op, e.post.stage with
    | .activate _, .activated target => some (e.pre.zones target, e.post.zones target)
    | _, _ => activatedAt past

variable [Scalar F] [BEq F] {source : UInt32}

/-- What is known at any point of a journey: the zones keep entities under their own ids, the zone
being prepared was left the snapshot that was last taken, and the zone that was woken has restored
it. -/
structure Tracked (source : UInt32) (past : List (Done F)) (j : Journey F) : Prop where
  keyed : ∀ zone, (j.zones zone).entityManager.Keyed
  prepared : ∀ target snapshot, j.stage = .ready target ∨ j.stage = .transferring target →
    j.ghosts target = some snapshot → ∃ a ord coords, preparedAt past = some a
      ∧ a.entityManager.Keyed ∧ snapshot = a.buildSnapshot ord source coords
  confirmed : ∀ target, j.stage = .transferring target → ∃ a, confirmedAt past = some a
  activated : ∀ target, j.stage = .activated target → ∃ a b c ord coords now,
    preparedAt past = some a ∧ a.entityManager.Keyed ∧ confirmedAt past = some c
      ∧ activatedAt past
        = some (b, (b.restorePlayerState now (a.buildSnapshot ord source coords)).1)

theorem tracked_step {past : List (Done F)} {j j' : Journey F} {move : Move F} {answer : Answer}
    (h : Tracked source past j) (hstep : step source move j = some (j', answer)) :
    Tracked source (⟨j, move, answer, j'⟩ :: past) j' := by
  have hupdate : ∀ zone (z : StateIngest F), z.entityManager.Keyed →
      ∀ zone', (Function.update j.zones zone z zone').entityManager.Keyed :=
    fun zone z hz => forall_update (P := fun _ (z : StateIngest F) => z.entityManager.Keyed) hz
      fun zone' _ => h.keyed zone'
  cases move with
  | call zone call =>
      obtain ⟨⟨z, answer'⟩, hz, heq⟩ := Option.map_eq_some_iff.mp hstep
      obtain ⟨rfl, rfl⟩ := Prod.mk.inj heq
      exact ⟨hupdate zone z (StateIngest.step_keyed (h.keyed zone) hz), h.prepared, h.confirmed,
        h.activated⟩
  | entities zone call =>
      obtain ⟨rfl, rfl⟩ := Prod.mk.inj (Option.some.inj hstep)
      exact ⟨hupdate zone _ (EntityManager.perform_keyed (h.keyed zone) call), h.prepared,
        h.confirmed, h.activated⟩
  | prepare target coords ord =>
      simp only [step] at hstep
      split at hstep
      · split at hstep
        · cases hstep
        · obtain ⟨rfl, rfl⟩ := Prod.mk.inj (Option.some.inj hstep)
          refine ⟨h.keyed, ?_, fun _ hstage => (by cases hstage), fun _ hstage => (by cases hstage)⟩
          rintro target' snapshot hstage hghost
          obtain rfl : target = target' := by simpa using hstage
          have hsnapshot : some _ = some snapshot :=
            (Function.update_self target _ j.ghosts).symm.trans hghost
          exact ⟨_, ord, coords, rfl, h.keyed _, (Option.some.inj hsnapshot).symm⟩
      · cases hstep
  | cancel =>
      simp only [step] at hstep
      split at hstep
      · obtain ⟨rfl, rfl⟩ := Prod.mk.inj (Option.some.inj hstep)
        exact ⟨h.keyed, fun _ _ hstage => by simp at hstage, fun _ hstage => by simp at hstage,
          fun _ hstage => by simp at hstage⟩
      · cases hstep
  | expire zone =>
      obtain ⟨rfl, rfl⟩ := Prod.mk.inj (Option.some.inj hstep)
      refine ⟨h.keyed, ?_, h.confirmed, h.activated⟩
      intro target snapshot hstage
      exact forall_update (P := fun target ghost => j.stage = .ready target
        ∨ j.stage = .transferring target → ghost = some snapshot → _) (fun _ => nofun)
        (fun target _ hstage => h.prepared target snapshot hstage) target hstage
  | confirm =>
      simp only [step] at hstep
      split at hstep
      · next target hready =>
          obtain ⟨rfl, rfl⟩ := Prod.mk.inj (Option.some.inj hstep)
          refine ⟨h.keyed, ?_, fun _ _ => ⟨_, rfl⟩, fun _ hstage => (by cases hstage)⟩
          intro target' snapshot hstage hghost
          obtain rfl : target = target' := by simpa using hstage
          exact h.prepared target snapshot (.inl hready) hghost
      · cases hstep
  | activate now =>
      simp only [step] at hstep
      split at hstep
      · next target htransferring =>
          split at hstep
          · next snapshot hghost =>
              obtain ⟨rfl, rfl⟩ := Prod.mk.inj (Option.some.inj hstep)
              refine ⟨hupdate target _ ?_, fun _ _ hstage => by simp at hstage,
                fun _ hstage => by simp at hstage, ?_⟩
              · rw [StateIngest.restorePlayerState_manager]
                exact StateIngest.spawnAll_keyed (h.keyed target) _
              · intro target' _
                obtain ⟨a, ord, coords, hprepared, hkeyed, rfl⟩ :=
                  h.prepared target snapshot (.inr htransferring) hghost
                obtain ⟨c, hconfirmed⟩ := h.confirmed target htransferring
                refine ⟨a, j.zones target, c, ord, coords, now, hprepared, hkeyed, hconfirmed, ?_⟩
                exact congrArg (fun z => some (j.zones target, z))
                  (Function.update_self target _ j.zones)
          · obtain ⟨rfl, rfl⟩ := Prod.mk.inj (Option.some.inj hstep)
            exact ⟨h.keyed, fun _ _ hstage => by simp at hstage, fun _ hstage => by simp at hstage,
              fun _ hstage => by simp at hstage⟩
      · cases hstep
  | release ord =>
      simp only [step] at hstep
      split at hstep
      · obtain ⟨rfl, rfl⟩ := Prod.mk.inj (Option.some.inj hstep)
        exact ⟨hupdate _ _ (StateIngest.postHandoffCleanup_keyed (h.keyed _) ord source),
          fun _ _ hstage => by simp at hstage, fun _ hstage => by simp at hstage,
          fun _ hstage => by simp at hstage⟩
      · cases hstep

theorem run_tracked {home : ZoneId} {maxSpeedMps : F} {past : List (Done F)} {j : Journey F}
    (run : Run (step source) (start home maxSpeedMps) past j) : Tracked source past j := by
  induction run with
  | nil =>
      refine ⟨?_, nofun, nofun, nofun⟩
      intro zone k state hk
      cases hk
  | snoc run h ih => exact tracked_step ih h

/-- A zone lets go only when the next one has woken the player. -/
theorem release_spec {j j' : Journey F} {ord : IterOrder EntityId} {answer : Answer}
    (hstep : step source (.release ord) j = some (j', answer)) :
    ∃ target, j.stage = .activated target
      ∧ j'.zones j.home = (j.zones j.home).postHandoffCleanup ord source := by
  simp only [step] at hstep
  split at hstep
  · next target hstage =>
      obtain ⟨rfl, -⟩ := Prod.mk.inj (Option.some.inj hstep)
      exact ⟨target, hstage, Function.update_self j.home _ _⟩
  · cases hstep

/-- **When a handoff carries what the player has.**  The next zone has what the last one had at the
crossing exactly when nothing of the player's changed since the snapshot was taken; what the last
zone destroys when it lets go, the next one was left exactly when the player had it when the
snapshot was taken, and was left as it is exactly when it had not changed since. -/
theorem handoff_current_iff {home : ZoneId} {maxSpeedMps : F} {past : List (Done F)}
    {j j' : Journey F} {ord : IterOrder EntityId} {answer : Answer}
    (run : Run (step source) (start home maxSpeedMps) past j)
    (hrelease : step source (.release ord) j = some (j', answer)) :
    ∃ prepared confirmed before after, preparedAt past = some prepared
      ∧ confirmedAt past = some confirmed ∧ activatedAt past = some (before, after)
      ∧ (after.Agree source confirmed ↔ prepared.Carried source before confirmed)
      ∧ (StateIngest.Survives (j.zones j.home) (j'.zones j.home) after
        ↔ ∀ k, ((j.zones j.home).mine source k).isSome →
          (prepared.mine source k).isSome ∨ (before.entityManager.get k).isSome)
      ∧ (StateIngest.SurvivesAsIs (j.zones j.home) (j'.zones j.home) after
        ↔ ∀ k state, (j.zones j.home).mine source k = some state →
          prepared.mine source k = some state
            ∨ prepared.mine source k = none ∧ before.entityManager.get k = some state) := by
  have htracked := run_tracked run
  obtain ⟨target, hstage, hreleased⟩ := release_spec hrelease
  obtain ⟨prepared, before, confirmed, ord', coords, now, hprepared, hkeyed, hconfirmed,
    hactivated⟩ := htracked.activated target hstage
  refine ⟨prepared, confirmed, before, _, hprepared, hconfirmed, hactivated, ?_⟩
  rw [hreleased]
  exact ⟨StateIngest.restored_agree_iff hkeyed ord' coords now,
    StateIngest.survives_iff hkeyed (htracked.keyed _) ord' ord coords now,
    StateIngest.survivesAsIs_iff hkeyed (htracked.keyed _) ord' ord coords now⟩

/-! ### Two crossings -/

/-- What player 1 reports from the origin: its ped, or a vehicle. -/
def reportOf (id : Option EntityId) (entityType : EntityType) : ClientStateUpdate Float32 where
  entityId := id
  entityType := entityType
  modelHash := 1
  coords := ⟨0.0, 0.0, 0.0⟩
  heading := 0.0
  velocity := ⟨1.0, 0.0, 0.0⟩
  health := 100.0
  armour := 0.0
  extra := none

/-- Player 1 appears in zone a with a vehicle, and crosses to zone b. -/
def crossing : List (Move Float32) :=
  [.call "a" (.apply 0 11 1 (reportOf none .player)),
    .call "a" (.apply 0 12 1 (reportOf (some 5) .vehicle)),
    .prepare "b" ⟨0.0, 0.0, 0.0⟩ (.stored _), .confirm, .activate 0]

/-- The same, with the vehicle registered on the way. -/
def crossingWithVehicle : List (Move Float32) :=
  [.call "a" (.apply 0 11 1 (reportOf none .player)),
    .prepare "b" ⟨0.0, 0.0, 0.0⟩ (.stored _),
    .call "a" (.apply 0 12 1 (reportOf (some 5) .vehicle)), .confirm, .activate 0]

/-- Zone b gets the player that zone a had, with its vehicle. -/
theorem crossing_current :
    ∃ (past : List (Done Float32)) (j j' : Journey Float32)
      (confirmed before after : StateIngest Float32),
      Run (step 1) (start "a" 200.0) past j ∧ step 1 (.release (.stored _)) j = some (j', none)
        ∧ confirmedAt past = some confirmed ∧ activatedAt past = some (before, after)
        ∧ after.Agree 1 confirmed ∧ (after.mine 1 5).isSome
        ∧ StateIngest.SurvivesAsIs (j.zones j.home) (j'.zones j.home) after := by
  have run := run_of_ops (step 1) (start "a" 200.0) crossing rfl
  obtain ⟨prepared, confirmed, before, after, hprepared, hconfirmed, hactivated, hagree, -,
    hsurvives⟩ := @handoff_current_iff _ _ _ 1 "a" 200.0 _ _ _ (.stored _) none run rfl
  have hsame : prepared = confirmed := by
    obtain rfl := Option.some.inj hprepared
    exact Option.some.inj hconfirmed
  obtain ⟨rfl, rfl⟩ := Prod.mk.inj (Option.some.inj hactivated)
  have hstranger : ((start "a" (200.0 : Float32)).zones "b").Stranger 1 :=
    ⟨rfl, fun _ => rfl⟩
  refine ⟨_, _, _, confirmed, _, _, run, rfl, hconfirmed, rfl, ?_, by decide +kernel, ?_⟩
  · exact hagree.mpr (hstranger.carried_iff.mpr (hsame ▸ StateIngest.Agree.refl _))
  · refine hsurvives.mpr fun k state hmine => .inl ?_
    obtain rfl := Option.some.inj hprepared
    exact hmine

/-- **A vehicle acquired on the way is lost**: the snapshot was taken before. -/
theorem vehicle_left_behind :
    ¬ ∀ (past : List (Done Float32)) (j j' : Journey Float32)
      (confirmed before after : StateIngest Float32),
      Run (step 1) (start "a" 200.0) past j → step 1 (.release (.stored _)) j = some (j', none) →
        confirmedAt past = some confirmed → activatedAt past = some (before, after) →
        after.Agree 1 confirmed
          ∧ StateIngest.Survives (j.zones j.home) (j'.zones j.home) after := by
  intro h
  have run := run_of_ops (step 1) (start "a" 200.0) crossingWithVehicle rfl
  have hlost := (h _ _ _ _ _ _ run rfl rfl rfl).2 5 (by decide +kernel) (by decide +kernel)
  revert hlost
  decide +kernel

end Journey

end Baston.Zone
