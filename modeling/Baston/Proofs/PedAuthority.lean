/-
Who may write a player's ped.

The ped of a connected player is its own as long as nobody mounts it: a report that says its
player sits in some entity takes that entity over, whatever it is.  Short of that, and of a
restored snapshot that carries what belongs to somebody else, a ped stays its player's.
-/
import Baston.Lib.Trace
import Baston.Proofs.Ingest

namespace Baston.Zone

open Assoc Trace Baston.Rage

variable {F : Type}

namespace StateIngest

/-- The ped of every connected player is live, is a ped, and is the player's. -/
def Authority (s : StateIngest F) : Prop :=
  ∀ source id, s.playerEntity source = some id → ∃ state,
    s.entityManager.get id = some state ∧ state.entityType = .player
      ∧ state.networkOwner = some source

/-- What one player does leaves the others and their peds as they are. -/
def Spares (source : UInt32) (s s' : StateIngest F) : Prop :=
  ∀ other id, other ≠ source → s.playerEntity other = some id →
    s'.playerEntity other = some id ∧ s'.entityManager.get id = s.entityManager.get id

/-- An accepted report does not mount the ped of another player; a snapshot carries a ped of
the player it is about, and nothing new under the ped of another. -/
def Respects [Scalar F] : Call F → StateIngest F → Prop
  | .apply now _ source update, s => ∀ id vehicle other, target source update s = some id →
      s.teleports now id update.coords = false → mounted update.extra = some vehicle →
      s.playerEntity other = some vehicle → other = source
  | .restorePlayerState _ snapshot, s =>
      (∀ id state, (snapshot.playerEntity.map fun ped => ped.entityId).or
          (s.playerEntity snapshot.sourceId) = some id →
        EntityManager.carried snapshot.entities id = some state →
        state.entityType = .player ∧ state.networkOwner = some snapshot.sourceId)
      ∧ ∀ other id state, other ≠ snapshot.sourceId → s.playerEntity other = some id →
        EntityManager.carried snapshot.entities id = some state →
        s.entityManager.get id = some state
  | .onPlayerDropped _, _ => True

variable {s : StateIngest F} {source : UInt32}

/-- Two players do not share a ped. -/
theorem Authority.ne (h : Authority s) {other : UInt32} {id k : EntityId}
    (hid : s.playerEntity source = some id) (hk : s.playerEntity other = some k)
    (hother : other ≠ source) : k ≠ id := by
  rintro rfl
  obtain ⟨state, hstate, -, howner⟩ := h source k hid
  obtain ⟨state', hstate', -, howner'⟩ := h other k hk
  obtain rfl : state = state' := Option.some.inj (hstate.symm.trans hstate')
  exact hother (Option.some.inj (howner'.symm.trans howner))

/-! ### A report -/

variable {update : ClientStateUpdate F}

/-- A report is not written to the ped of another player. -/
theorem Authority.target_ne (h : Authority s) {other : UInt32} {id k : EntityId}
    (htarget : target source update s = some id) (hk : s.playerEntity other = some k)
    (hother : other ≠ source) : k ≠ id := by
  unfold target at htarget
  cases hid : update.entityId with
  | none =>
      rw [hid] at htarget
      exact h.ne htarget hk hother
  | some named =>
      rw [hid] at htarget
      simp only [] at htarget
      obtain ⟨state, hstate, -, howner⟩ := h other k hk
      split at htarget
      · next hmine =>
          obtain rfl := Option.some.inj htarget
          rintro rfl
          rw [hstate] at hmine
          have hsource : state.networkOwner = some source := by simpa using hmine
          exact hother (Option.some.inj (howner.symm.trans hsource))
      · cases htarget

section Report

variable [Scalar F] [BEq F] {now : Nat} {fresh : EntityId}

/-- An accepted report keeps what an entity is, and gives away only what is mounted. -/
theorem get_write_some (source : UInt32) {id k : EntityId} {state : EntityState F}
    (hnear : s.teleports now id update.coords = false)
    (hstate : s.entityManager.get k = some state) :
    ∃ state', (s.write now source id update).1.entityManager.get k = some state'
      ∧ state'.entityType = state.entityType
      ∧ state'.networkOwner
        = if mounted update.extra = some k then some source else state.networkOwner := by
  rw [get_write hnear, get_mount, hstate]
  by_cases hmounted : mounted update.extra = some k
  · rw [if_pos hmounted, if_pos hmounted]
    by_cases hk : k = id
    · rw [if_pos hk]
      have hsame := applyUpdate_sameIdentity (ClientStateUpdate.fields update)
        { state with networkOwner := some source }
      exact ⟨_, rfl, hsame.entityType, hsame.networkOwner⟩
    · rw [if_neg hk]
      exact ⟨_, rfl, rfl, rfl⟩
  · rw [if_neg hmounted, if_neg hmounted]
    by_cases hk : k = id
    · rw [if_pos hk]
      have hsame := applyUpdate_sameIdentity (ClientStateUpdate.fields update) state
      exact ⟨_, rfl, hsame.entityType, hsame.networkOwner⟩
    · rw [if_neg hk]
      exact ⟨_, rfl, rfl, rfl⟩

omit [BEq F] in
/-- Without a target a report mounts nothing. -/
theorem respects_of_no_target (h : target source update s = none) :
    Respects (.apply now fresh source update) s := by
  intro id _ _ hid
  rw [h] at hid
  cases hid

omit [Scalar F] [BEq F] in
/-- The first ped of a player is its own. -/
theorem Authority.spawnPlayerEntity (h : Authority s) (hfresh : fresh ∉ s.entityManager.entities) :
    Authority (s.spawnPlayerEntity now fresh source update).1
      ∧ Spares source s (s.spawnPlayerEntity now fresh source update).1 := by
  have hget : ∀ k, (s.spawnPlayerEntity now fresh source update).1.entityManager.get k = _ :=
    EntityManager.get_spawnEntity _
  have hpeds : ∀ other, (s.spawnPlayerEntity now fresh source update).1.playerEntity other
      = if other = source then some fresh else s.playerEntity other :=
    fun other => Map.lookup_insert_of _ _ _ _
  have hlive : ∀ other k, s.playerEntity other = some k → k ≠ fresh := by
    rintro other k hk rfl
    obtain ⟨state, hstate, -⟩ := h other k hk
    exact hfresh (AList.lookup_isSome.mp (Option.isSome_of_eq_some hstate))
  refine ⟨?_, ?_⟩
  · intro other k hk
    rw [hpeds] at hk
    rw [hget]
    by_cases hother : other = source
    · rw [if_pos hother] at hk
      obtain rfl := Option.some.inj hk
      rw [if_pos rfl]
      exact ⟨_, rfl, rfl, congrArg some hother.symm⟩
    · rw [if_neg hother] at hk
      rw [if_neg (hlive other k hk)]
      exact h other k hk
  · intro other k hother hk
    rw [hpeds, if_neg hother, hget, if_neg (hlive other k hk)]
    exact ⟨hk, rfl⟩

omit [Scalar F] [BEq F] in
/-- An entity registered under a free id is no ped. -/
theorem Authority.spawnOwnedEntity (h : Authority s) {id : EntityId}
    (hfree : s.entityManager.get id = none) :
    Authority (s.spawnOwnedEntity now source id update).1
      ∧ Spares source s (s.spawnOwnedEntity now source id update).1 := by
  have hget : ∀ k, (s.spawnOwnedEntity now source id update).1.entityManager.get k = _ :=
    EntityManager.get_spawnEntity _
  have hlive : ∀ other k, s.playerEntity other = some k → k ≠ id := by
    rintro other k hk rfl
    obtain ⟨state, hstate, -⟩ := h other k hk
    rw [hfree] at hstate
    cases hstate
  refine ⟨?_, ?_⟩
  · intro other k hk
    rw [hget, if_neg (hlive other k hk)]
    exact h other k hk
  · intro other k _ hk
    rw [hget, if_neg (hlive other k hk)]
    exact ⟨hk, rfl⟩

/-- A report that is written is fine exactly when it mounts nobody else's ped. -/
theorem Authority.write (h : Authority s) {id : EntityId}
    (htarget : target source update s = some id)
    (hnear : s.teleports now id update.coords = false) :
    (Authority (s.write now source id update).1 ∧ Spares source s (s.write now source id update).1)
      ↔ Respects (.apply now fresh source update) s := by
  have hpeds : ∀ other, (s.write now source id update).1.playerEntity other
      = s.playerEntity other := fun other => by
    unfold playerEntity
    rw [write_playerEntities]
  constructor
  · rintro ⟨-, hspares⟩ id' vehicle other hid - hmounted hvehicle
    by_contra hother
    obtain ⟨state, hstate, -, howner⟩ := h other vehicle hvehicle
    obtain ⟨state', hstate', -, howner'⟩ := get_write_some source hnear hstate
    have hsame := (hspares other vehicle hother hvehicle).2
    rw [hstate', hstate] at hsame
    obtain rfl := Option.some.inj hsame
    rw [if_pos hmounted, howner] at howner'
    exact hother (Option.some.inj howner')
  · intro hrespects
    have hfree : ∀ other k, other ≠ source → s.playerEntity other = some k →
        ¬ mounted update.extra = some k := by
      intro other k hother hk hmounted
      exact hother (hrespects id k other htarget hnear hmounted hk)
    refine ⟨?_, ?_⟩
    · intro other k hk
      rw [hpeds] at hk
      obtain ⟨state, hstate, htype, howner⟩ := h other k hk
      obtain ⟨state', hstate', htype', howner'⟩ := get_write_some source hnear hstate
      refine ⟨state', hstate', htype'.trans htype, howner'.trans ?_⟩
      by_cases hother : other = source
      · subst hother
        rw [howner, ite_self]
      · rw [if_neg (hfree other k hother hk), howner]
    · intro other k hother hk
      refine ⟨(hpeds other).trans hk, ?_⟩
      rw [get_write hnear, if_neg (h.target_ne htarget hk hother), get_mount,
        if_neg (hfree other k hother hk)]

/-- A report is fine exactly when it mounts nobody else's ped. -/
theorem Authority.apply (h : Authority s) (hfresh : fresh ∉ s.entityManager.entities) :
    (Authority (s.apply now fresh source update).1
        ∧ Spares source s (s.apply now fresh source update).1)
      ↔ Respects (.apply now fresh source update) s := by
  have hspec := apply_spec now fresh source update s
  generalize s.apply now fresh source update = r at hspec
  cases hspec with
  | refused _ _ htarget =>
      exact iff_of_true ⟨h, fun _ _ _ hid => ⟨hid, rfl⟩⟩ (respects_of_no_target htarget)
  | firstPed hid hped =>
      refine iff_of_true (h.spawnPlayerEntity hfresh) (respects_of_no_target ?_)
      unfold target
      rw [hid]
      exact hped
  | @registered id hid hfree _ =>
      refine iff_of_true (h.spawnOwnedEntity hfree) (respects_of_no_target ?_)
      unfold target
      rw [hid]
      simp [hfree]
  | @written id htarget =>
      cases hnear : s.teleports now id update.coords with
      | true =>
          rw [write_teleports hnear]
          refine iff_of_true ⟨h, fun _ _ _ hid => ⟨hid, rfl⟩⟩ ?_
          intro id' _ _ hid hnear'
          obtain rfl := Option.some.inj (htarget.symm.trans hid)
          exact absurd (hnear.symm.trans hnear') (by decide)
      | false => exact h.write htarget hnear

end Report

/-! ### A handoff and a departure -/

/-- A restored snapshot is fine exactly when it carries only what is its player's. -/
theorem Authority.restorePlayerState [Scalar F] (h : Authority s) (now : Nat)
    (snapshot : PlayerStateSnapshot F) :
    (Authority (s.restorePlayerState now snapshot).1
        ∧ Spares snapshot.sourceId s (s.restorePlayerState now snapshot).1)
      ↔ Respects (.restorePlayerState now snapshot) s := by
  constructor
  · rintro ⟨hauthority, hspares⟩
    refine ⟨?_, ?_⟩
    · intro id state hid hcarried
      obtain ⟨state', hstate', htype, howner⟩ := hauthority snapshot.sourceId id (by
        rw [restorePlayerState_playerEntity, if_pos rfl]
        exact hid)
      rw [get_restorePlayerState, hcarried, Option.some_or] at hstate'
      obtain rfl := Option.some.inj hstate'
      exact ⟨htype, howner⟩
    · intro other id state hother hid hcarried
      rw [← (hspares other id hother hid).2, get_restorePlayerState, hcarried, Option.some_or]
  · rintro ⟨hped, hothers⟩
    have hkept : ∀ other id, other ≠ snapshot.sourceId → s.playerEntity other = some id →
        (s.restorePlayerState now snapshot).1.entityManager.get id
          = s.entityManager.get id := by
      intro other id hother hid
      rw [get_restorePlayerState]
      cases hcarried : EntityManager.carried snapshot.entities id with
      | none => rfl
      | some state => exact (hothers other id state hother hid hcarried).symm
    refine ⟨?_, ?_⟩
    · intro other id hid
      rw [restorePlayerState_playerEntity] at hid
      by_cases hother : other = snapshot.sourceId
      · subst hother
        rw [if_pos rfl] at hid
        cases hcarried : EntityManager.carried snapshot.entities id with
        | some state =>
            refine ⟨state, ?_, hped id state hid hcarried⟩
            rw [get_restorePlayerState, hcarried, Option.some_or]
        | none =>
            cases hsnapshot : snapshot.playerEntity with
            | some ped =>
                rw [hsnapshot] at hid
                obtain rfl := Option.some.inj hid
                unfold EntityManager.carried PlayerStateSnapshot.entities at hcarried
                simp [hsnapshot] at hcarried
            | none =>
                rw [hsnapshot] at hid
                rw [get_restorePlayerState, hcarried, Option.none_or]
                exact h snapshot.sourceId id hid
      · rw [if_neg hother] at hid
        rw [hkept other id hother hid]
        exact h other id hid
    · intro other id hother hid
      refine ⟨?_, hkept other id hother hid⟩
      rw [restorePlayerState_playerEntity, if_neg hother]
      exact hid

theorem Authority.onPlayerDropped (h : Authority s) (source : UInt32) :
    Authority (s.onPlayerDropped source) ∧ Spares source s (s.onPlayerDropped source) := by
  have hkept : ∀ other id, other ≠ source → s.playerEntity other = some id →
      (s.onPlayerDropped source).entityManager.get id = s.entityManager.get id := by
    intro other id hother hid
    rw [get_onPlayerDropped, if_neg]
    intro hped
    exact h.ne hped hid hother rfl
  refine ⟨?_, ?_⟩
  · intro other id hid
    rw [onPlayerDropped_playerEntity] at hid
    by_cases hother : other = source
    · rw [if_pos hother] at hid
      cases hid
    · rw [if_neg hother] at hid
      rw [hkept other id hother hid]
      exact h other id hid
  · intro other id hother hid
    refine ⟨?_, hkept other id hother hid⟩
    rw [onPlayerDropped_playerEntity, if_neg hother]
    exact hid

/-! ### Runs -/

abbrev Done (F : Type) :=
  Entry (StateIngest F) (Call F) (Option (Except RejectReason EntityId))

/-- Every player has authority over its ped, and the last call was of no consequence to the
peds of the other players. -/
def Protected : List (Done F) → StateIngest F → Prop
  | [], s => Authority s
  | e :: _, s => Authority s ∧ Spares e.op.source e.pre s

theorem Protected.authority {past : List (Done F)} (h : Protected past s) : Authority s := by
  cases past with
  | nil => exact h
  | cons e past => exact h.1

/-- **A ped stays its player's exactly as long as nobody mounts it** and no snapshot carries
what is another's. -/
theorem peds_protected_iff [Scalar F] [BEq F] {m : EntityManager F} {maxSpeedMps : F}
    {past : List (Done F)} (run : Run step (new m maxSpeedMps) past s) :
    (∀ later before s', past = later ++ before → Run step (new m maxSpeedMps) before s' →
        Protected before s')
      ↔ Along (fun _ e => Respects e.op e.pre) past := by
  refine Run.always_iff (I := Protected) ?_ ?_ run
  · intro source id hid
    cases hid
  · intro past s call a s' _ _ hprotected h
    have hauthority := hprotected.authority
    cases call with
    | apply now fresh source update =>
        simp only [step] at h
        split at h
        · cases h
        · next hfresh =>
            obtain ⟨rfl, rfl⟩ := Prod.mk.inj (Option.some.inj h)
            exact hauthority.apply hfresh
    | restorePlayerState now snapshot =>
        obtain ⟨rfl, rfl⟩ := Prod.mk.inj (Option.some.inj h)
        exact hauthority.restorePlayerState now snapshot
    | onPlayerDropped source =>
        obtain ⟨rfl, rfl⟩ := Prod.mk.inj (Option.some.inj h)
        exact iff_of_true (hauthority.onPlayerDropped source) trivial

/-! ### Two players and a vehicle -/

/-- A report from the origin. -/
def reportOf (id : Option EntityId) (entityType : EntityType)
    (extra : Option (EntityExtra Float32)) : ClientStateUpdate Float32 where
  entityId := id
  entityType := entityType
  modelHash := 1
  coords := ⟨0.0, 0.0, 0.0⟩
  heading := 0.0
  velocity := ⟨0.0, 0.0, 0.0⟩
  health := 100.0
  armour := 0.0
  extra := extra

/-- Players 1 and 2 appear, under the peds 11 and 12. -/
def appear : List (Call Float32) :=
  [.apply 0 11 1 (reportOf none .player none), .apply 0 12 2 (reportOf none .player none)]

/-- Player 2 registers a vehicle, and player 1 gets into it. -/
def drive : List (Call Float32) :=
  appear ++ [.apply 0 21 2 (reportOf (some 5) .vehicle (some (.vehicle 0.0 1000.0 0))),
    .apply 0 22 1 (reportOf none .player (some (.player true (some 5))))]

/-- Player 2 gets into player 1. -/
def ride : List (Call Float32) :=
  appear ++ [.apply 0 21 2 (reportOf none .player (some (.player true (some 11))))]

/-- The ped of player 1. -/
def firstPed : Map UInt32 EntityId := AList.insert 1 11 ∅

/-- Taking over a vehicle leaves both peds alone. -/
theorem drive_protected :
    ∃ (past : List (Done Float32)) (s : StateIngest Float32),
      Run step (new EntityManager.new 200.0) past s ∧ past.length = 4 ∧ Protected past s := by
  have run := run_of_ops step (new EntityManager.new 200.0) drive rfl
  refine ⟨_, _, run, rfl, (peds_protected_iff run).mpr ?_ [] _ _ rfl run⟩
  refine ⟨?_, ?_, ?_, ?_, trivial⟩
  · rintro id vehicle other - - hmounted hped
    obtain rfl : 5 = vehicle := Option.some.inj hmounted
    have hpeds : (firstPed.insert 2 12).lookup other = some 5 := hped
    rw [firstPed, Map.lookup_insert_of, Map.lookup_insert_of] at hpeds
    by_cases h2 : other = 2
    · rw [if_pos h2] at hpeds
      exact absurd hpeds (by decide)
    · rw [if_neg h2] at hpeds
      by_cases h1 : other = 1
      · rw [if_pos h1] at hpeds
        exact absurd hpeds (by decide)
      · rw [if_neg h1] at hpeds
        cases hpeds
  · rintro id vehicle other - - hmounted -
    cases hmounted
  · rintro id vehicle other - - hmounted -
    cases hmounted
  · rintro id vehicle other - - hmounted -
    cases hmounted

/-- **A player can be mounted**: afterwards its ped is the rider's. -/
theorem ride_takes_ped :
    ¬ ∀ (past : List (Done Float32)) (s : StateIngest Float32),
      Run step (new EntityManager.new 200.0) past s → Protected past s := by
  intro h
  have run := run_of_ops step (new EntityManager.new 200.0) ride rfl
  obtain ⟨state, hstate, -, howner⟩ := (h _ _ run).authority 1 11 rfl
  have htaken := congrArg (Option.map EntityState.networkOwner) hstate
  rw [Option.map_some, howner] at htaken
  revert htaken
  decide +kernel

end StateIngest

end Baston.Zone
