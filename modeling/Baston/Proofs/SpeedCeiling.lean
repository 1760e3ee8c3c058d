/-
How far the speed check lets an entity go.

Every report of an entity is measured against the last one accepted, so the legs of its journey
add up: the distance between two accepted reports is at most what the legs between them allow.
A leg is allowed the time it took, and at least 50 ms, which the source grants so that reports
delivered in one burst do not read as a teleport.  The grant is one of each leg and not one of
the journey: with `n` reports that came less than 50 ms after the one before, the bound is the
ceiling over the time that passed and `n` times 50 ms, and a burst of three can use it.
-/
import Mathlib.Analysis.InnerProductSpace.PiL2
import Baston.Rage.Exact
import Baston.Proofs.PedAuthority
import Baston.Proofs.SpeedCheck

namespace Baston.Zone

open Assoc Trace Baston.Rage

variable {F : Type}

namespace StateIngest

/-! ### The journey of an entity -/

/-- Time and coordinates of a report about the entity that was accepted, if this was one. -/
def accepted (id : EntityId) (e : Done F) : Option (Nat × Vec3 F) :=
  match e.op, e.answer with
  | .apply now _ _ update, some (.ok written) =>
    if written = id then some (now, update.coords) else none
  | _, _ => none

/-- What was accepted for the entity, newest first. -/
def journey (id : EntityId) (past : List (Done F)) : List (Nat × Vec3 F) :=
  past.filterMap (accepted id)

/-- How many reports came less than 50 ms after the one before. -/
def hurried : List (Nat × Vec3 F) → Nat
  | later :: earlier :: rest =>
    (if later.1 - earlier.1 < 50 * 10 ^ 6 then 1 else 0) + hurried (earlier :: rest)
  | _ => 0

/-- When a report came, if this was one. -/
def reportedAt (e : Done F) : Option Nat :=
  match e.op with
  | .apply now _ _ _ => some now
  | _ => none

/-- A report, and none before it came later. -/
def InOrder (past : List (Done F)) (e : Done F) : Prop :=
  ∃ now, reportedAt e = some now
    ∧ ∀ earlier ∈ past, ∀ time, reportedAt earlier = some time → time ≤ now

/-- The entity is in the manager if it is the ped of a player. -/
def PedLives (id : EntityId) (s : StateIngest F) : Prop :=
  ∀ source, s.playerEntity source = some id → (s.entityManager.get id).isSome

theorem reportedAt_of_accepted {id : EntityId} {e : Done F} {r : Nat × Vec3 F}
    (h : accepted id e = some r) : reportedAt e = some r.1 := by
  unfold accepted at h
  unfold reportedAt
  split at h
  · next hop _ =>
      split at h
      · rw [hop, ← Option.some.inj h]
      · cases h
  · cases h

/-! ### One report -/

/-- An entity found is one that lives. -/
theorem lives_of_target {s : StateIngest F} {id : EntityId} {source : UInt32}
    {update : ClientStateUpdate F} (hped : PedLives id s)
    (h : target source update s = some id) :
    (s.entityManager.get id).isSome := by
  unfold target at h
  cases hid : update.entityId with
  | none =>
      rw [hid] at h
      exact hped source h
  | some named =>
      simp only [hid] at h
      split at h
      · next howner =>
          obtain rfl := Option.some.inj h
          obtain ⟨state, hlive, -⟩ := (Option.any_eq_true _ _).mp howner
          rw [hlive]
          rfl
      · cases h

section Report

variable [Scalar F] [BEq F] {s : StateIngest F} {id fresh : EntityId} {now : Nat}
  {source : UInt32} {update : ClientStateUpdate F}

/-- **An accepted report** is what the next one is measured against, and if the entity was there
before, it was not too fast. -/
theorem apply_accepts (hped : PedLives id s) (hfresh : fresh ∉ s.entityManager.entities)
    (h : (s.apply now fresh source update).2 = .ok id) :
    (s.apply now fresh source update).1.lastAccepted.lookup id = some (now, update.coords)
      ∧ ((s.apply now fresh source update).1.entityManager.get id).isSome
      ∧ ((s.entityManager.get id).isSome →
        tooFast s.maxSpeedMps (s.lastAccepted.lookup id) now update.coords = false) := by
  have hlives := get_apply_isSome now fresh source update id (s := s)
  have hspec := apply_spec now fresh source update s
  generalize s.apply now fresh source update = r at h hlives hspec
  cases hspec with
  | @written named htarget =>
      cases hnear : s.teleports now named update.coords with
      | true =>
          rw [write_teleports hnear] at h
          cases h
      | false =>
          have hwrite : (s.write now source named update).2 = .ok named := by
            unfold write
            rw [hnear, if_neg Bool.false_ne_true]
          obtain rfl : named = id := Except.ok.inj (hwrite.symm.trans h)
          refine ⟨?_, hlives.mpr (.inl (lives_of_target hped htarget)), fun _ => ?_⟩
          · unfold write
            rw [hnear, if_neg Bool.false_ne_true]
            exact AList.lookup_insert _
          · rw [← teleports_eq]
            exact hnear
  | firstPed hid hped' =>
      obtain rfl : fresh = id := Except.ok.inj h
      have hnone : s.entityManager.get fresh = none := AList.lookup_eq_none.mpr hfresh
      refine ⟨AList.lookup_insert _, hlives.mpr (.inr ⟨hnone, .inr ⟨hid, hped', rfl⟩⟩), ?_⟩
      intro hlive
      rw [hnone] at hlive
      cases hlive
  | @registered named hid hfree htype =>
      obtain rfl : named = id := Except.ok.inj h
      refine ⟨AList.lookup_insert _, hlives.mpr (.inr ⟨hfree, .inl ⟨hid, htype⟩⟩), ?_⟩
      intro hlive
      rw [hfree] at hlive
      cases hlive
  | refused _ _ _ => cases h

/-- A report that was not accepted for the entity leaves alone what the next one is measured
against. -/
theorem apply_elsewhere (h : (s.apply now fresh source update).2 ≠ .ok id) :
    (s.apply now fresh source update).1.lastAccepted.lookup id = s.lastAccepted.lookup id := by
  have hspec := apply_spec now fresh source update s
  generalize s.apply now fresh source update = r at h hspec
  cases hspec with
  | @written named _ =>
      cases hnear : s.teleports now named update.coords with
      | true => rw [write_teleports hnear]
      | false =>
          unfold write at h ⊢
          rw [hnear, if_neg Bool.false_ne_true] at h ⊢
          exact AList.lookup_insert_ne fun heq => h (congrArg Except.ok heq.symm)
  | firstPed _ _ => exact AList.lookup_insert_ne fun heq => h (congrArg Except.ok heq.symm)
  | registered _ _ _ => exact AList.lookup_insert_ne fun heq => h (congrArg Except.ok heq.symm)
  | refused _ _ _ => rfl

/-- A report takes no entity away. -/
theorem lives_apply (h : (s.entityManager.get id).isSome) :
    ((s.apply now fresh source update).1.entityManager.get id).isSome :=
  (get_apply_isSome now fresh source update id).mpr (.inl h)

theorem PedLives.apply (h : PedLives id s) (hfresh : fresh ∉ s.entityManager.entities) :
    PedLives id (s.apply now fresh source update).1 := by
  intro other hother
  have hlives := get_apply_isSome now fresh source update id (s := s)
  have hspec := apply_spec now fresh source update s
  generalize s.apply now fresh source update = r at hother hlives hspec
  cases hspec with
  | written _ =>
      refine hlives.mpr (.inl (h other ?_))
      unfold playerEntity at hother ⊢
      rwa [write_playerEntities] at hother
  | firstPed hid hped =>
      have hlookup : (s.playerEntities.insert source fresh).lookup other = some id := hother
      rw [Map.lookup_insert_of] at hlookup
      split at hlookup
      · obtain rfl := Option.some.inj hlookup
        exact hlives.mpr (.inr ⟨AList.lookup_eq_none.mpr hfresh, .inr ⟨hid, hped, rfl⟩⟩)
      · exact hlives.mpr (.inl (h other hlookup))
  | registered _ _ _ => exact hlives.mpr (.inl (h other hother))
  | refused _ _ _ => exact hlives.mpr (.inl (h other hother))

end Report

/-! ### One leg -/

theorem asSecsF32_real (nanos : Nat) : (asSecsF32 nanos : ℝ) = nanos / 10 ^ 9 := by
  have hsplit : ((10 ^ 9 * (nanos / 10 ^ 9) + nanos % 10 ^ 9 : Nat) : ℝ) = nanos :=
    congrArg _ (Nat.div_add_mod nanos (10 ^ 9))
  show (((nanos / 10 ^ 9 : Nat) : Int) : ℝ)
    + (((nanos % 10 ^ 9 : Nat) : Int) : ℝ) / ((10 ^ 9 : Int) : ℝ) = _
  rw [← hsplit, Int.cast_natCast, Int.cast_natCast]
  push_cast
  ring

/-- Coordinates as a point of space. -/
noncomputable def point (v : Vec3 ℝ) : EuclideanSpace ℝ (Fin 3) :=
  WithLp.toLp _ ![v.x, v.y, v.z]

theorem distance3d_eq_dist (a b : Vec3 ℝ) : distance3d a b = dist (point a) (point b) := by
  rw [EuclideanSpace.dist_eq]
  show Real.sqrt _ = _
  simp only [Fin.sum_univ_three, point, Real.dist_eq, sq_abs]
  congr 1
  simp
  ring

theorem distance3d_triangle (a b c : Vec3 ℝ) :
    distance3d a c ≤ distance3d a b + distance3d b c := by
  simp only [distance3d_eq_dist]
  exact dist_triangle _ _ _

/-- What the check grants a leg on top of the time it took. -/
noncomputable def grant (elapsed : Nat) : ℝ :=
  if elapsed < 50 * 10 ^ 6 then 0.05 else 0

/-- From one accepted report to the next. -/
structure Leg (limit : ℝ) (later earlier : Nat × Vec3 ℝ) : Prop where
  inOrder : earlier.1 ≤ later.1
  within : distance3d earlier.2 later.2
    ≤ limit * (((later.1 - earlier.1 : Nat) : ℝ) / 10 ^ 9 + grant (later.1 - earlier.1))

/-- **A report that is not too fast** is within the ceiling over its time and the grant. -/
theorem within_of_not_tooFast {limit : ℝ} {time now : Nat} {origin coords : Vec3 ℝ}
    (h : tooFast limit (some (time, origin)) now coords = false) :
    distance3d origin coords
      ≤ limit * (((now - time : Nat) : ℝ) / 10 ^ 9 + grant (now - time)) := by
  have hfloor : (OfScientific.ofScientific 5 true 2 : ℝ) = 0.05 := by norm_num
  have hspeed : distance3d origin coords / max (asSecsF32 (now - time) : ℝ) 0.05 ≤ limit := by
    have hlt := of_decide_eq_false h
    rw [not_lt] at hlt
    exact hlt
  rw [asSecsF32_real] at hspeed
  generalize now - time = elapsed at hspeed ⊢
  have hpos : (0 : ℝ) < max ((elapsed : ℝ) / 10 ^ 9) 0.05 := lt_max_of_lt_right (by norm_num)
  have hdist : 0 ≤ distance3d origin coords := by
    rw [distance3d_eq_dist]
    exact dist_nonneg
  have hlimit : 0 ≤ limit := (div_nonneg hdist hpos.le).trans hspeed
  have hmax : max ((elapsed : ℝ) / 10 ^ 9) 0.05 ≤ elapsed / 10 ^ 9 + grant elapsed := by
    unfold grant
    split
    · have htime : (0 : ℝ) ≤ elapsed / 10 ^ 9 := by positivity
      exact max_le (by linarith) (by linarith)
    · next hslow =>
        have hlong : ((50 * 10 ^ 6 : Nat) : ℝ) ≤ elapsed := Nat.cast_le.mpr (not_lt.mp hslow)
        refine max_le (by linarith) ?_
        rw [add_zero, le_div_iff₀ (by norm_num)]
        push_cast at hlong
        linarith
  calc distance3d origin coords
      ≤ limit * max ((elapsed : ℝ) / 10 ^ 9) 0.05 := (div_le_iff₀ hpos).mp hspeed
    _ ≤ limit * (elapsed / 10 ^ 9 + grant elapsed) := mul_le_mul_of_nonneg_left hmax hlimit

/-! ### The whole way -/

theorem hurried_single (r : Nat × Vec3 F) : hurried [r] = 0 := rfl

theorem hurried_cons (later earlier : Nat × Vec3 ℝ) (rest : List (Nat × Vec3 ℝ)) :
    0.05 * (hurried (later :: earlier :: rest) : ℝ)
      = grant (later.1 - earlier.1) + 0.05 * hurried (earlier :: rest) := by
  unfold grant
  rw [hurried]
  split
  · push_cast
    ring
  · push_cast
    ring

/-- **The legs add up**: the ends of a way are no further apart than its legs allow. -/
theorem distance_le_of_legs {limit : ℝ} : ∀ (between : List (Nat × Vec3 ℝ))
    {later earlier : Nat × Vec3 ℝ},
    List.IsChain (Leg limit) (later :: (between ++ [earlier])) →
      distance3d earlier.2 later.2
        ≤ limit * (((later.1 : ℝ) - earlier.1) / 10 ^ 9
          + 0.05 * hurried (later :: (between ++ [earlier]))) := by
  intro between
  induction between with
  | nil =>
      intro later earlier h
      obtain ⟨hleg, -⟩ := List.isChain_cons_cons.mp h
      have hwithin := hleg.within
      rw [Nat.cast_sub hleg.inOrder] at hwithin
      rw [List.nil_append, hurried_cons, hurried_single, Nat.cast_zero, mul_zero, add_zero]
      exact hwithin
  | cons mid rest ih =>
      intro later earlier h
      obtain ⟨hleg, hrest⟩ := List.isChain_cons_cons.mp h
      have hwithin := hleg.within
      rw [Nat.cast_sub hleg.inOrder] at hwithin
      rw [List.cons_append, hurried_cons]
      calc distance3d earlier.2 later.2
          ≤ distance3d earlier.2 mid.2 + distance3d mid.2 later.2 := distance3d_triangle _ _ _
        _ ≤ _ := add_le_add (ih hrest) hwithin
        _ = _ := by ring

/-- What is known of an entity along a run of reports. -/
structure Followed (id : EntityId) (limit : ℝ) (past : List (Done ℝ)) (s : StateIngest ℝ) :
    Prop where
  ceiling : s.maxSpeedMps = limit
  ped : PedLives id s
  last : ∀ r ∈ (journey id past).head?,
    s.lastAccepted.lookup id = some r ∧ (s.entityManager.get id).isSome
  legs : (journey id past).IsChain (Leg limit)

section Run

variable {id : EntityId} {limit : ℝ} {past : List (Done ℝ)} {s init : StateIngest ℝ}

/-- A report accepted before came no later than the next one. -/
theorem time_le_of_inOrder {e : Done ℝ} {now : Nat} {r : Nat × Vec3 ℝ} (h : InOrder past e)
    (hnow : reportedAt e = some now) (hr : r ∈ journey id past) : r.1 ≤ now := by
  obtain ⟨time, htime, hbefore⟩ := h
  obtain rfl : time = now := Option.some.inj (htime.symm.trans hnow)
  obtain ⟨earlier, hmem, haccepted⟩ := List.mem_filterMap.mp hr
  exact hbefore earlier hmem r.1 (reportedAt_of_accepted haccepted)

theorem Followed.step {e : Done ℝ} (h : Followed id limit past e.pre)
    (hstep : step e.op e.pre = some (e.post, e.answer)) (horder : InOrder past e) :
    Followed id limit (e :: past) e.post := by
  have hceiling := (step_maxSpeedMps hstep).trans h.ceiling
  obtain ⟨s, op, answer, s'⟩ := e
  cases op with
  | apply now fresh source update =>
      simp only [StateIngest.step] at hstep
      split at hstep
      · cases hstep
      · next hfresh =>
          obtain ⟨rfl, rfl⟩ := Prod.mk.inj (Option.some.inj hstep)
          have hped : PedLives id (s.apply now fresh source update).1 := h.ped.apply hfresh
          by_cases hok : (s.apply now fresh source update).2 = .ok id
          · obtain ⟨hlast, hlive, hslow⟩ := apply_accepts h.ped hfresh hok
            have hnew : accepted id ⟨s, .apply now fresh source update,
                some (s.apply now fresh source update).2, (s.apply now fresh source update).1⟩
                = some (now, update.coords) := by
              simp only [accepted, hok, if_true]
            have hjourney := List.filterMap_cons_some hnew (l := past)
            refine ⟨hceiling, hped, ?_, ?_⟩
            · intro r hr
              rw [journey, hjourney] at hr
              obtain rfl := Option.some.inj hr
              exact ⟨hlast, hlive⟩
            · rw [journey, hjourney, List.isChain_cons]
              refine ⟨?_, h.legs⟩
              intro r hr
              obtain ⟨hbefore, hthere⟩ := h.last r hr
              have hnear := hslow hthere
              rw [hbefore, h.ceiling] at hnear
              exact ⟨time_le_of_inOrder horder rfl (List.mem_of_mem_head? hr),
                within_of_not_tooFast hnear⟩
          · have hnew : accepted id ⟨s, .apply now fresh source update,
                some (s.apply now fresh source update).2, (s.apply now fresh source update).1⟩
                = none := by
              unfold accepted
              split
              · next hop hanswer =>
                  rw [Option.some.inj hanswer] at hok
                  exact if_neg fun heq => hok (congrArg _ heq)
              · rfl
            have hjourney := List.filterMap_cons_none hnew (l := past)
            refine ⟨hceiling, hped, ?_, ?_⟩
            · intro r hr
              rw [journey, hjourney] at hr
              obtain ⟨hbefore, hthere⟩ := h.last r hr
              exact ⟨(apply_elsewhere hok).trans hbefore, lives_apply hthere⟩
            · rw [journey, hjourney]
              exact h.legs
  | restorePlayerState now snapshot =>
      obtain ⟨time, htime, -⟩ := horder
      cases htime
  | onPlayerDropped source =>
      obtain ⟨time, htime, -⟩ := horder
      cases htime

theorem followed_of_run (hped : PedLives id init) (run : Run step init past s)
    (along : Along InOrder past) : Followed id init.maxSpeedMps past s := by
  refine run.invariant (I := Followed id init.maxSpeedMps) (P := InOrder) ?_ ?_ along
  · exact ⟨rfl, hped, nofun, List.isChain_nil⟩
  · intro past s op answer s' _ h hstep horder
    exact h.step (e := ⟨s, op, answer, s'⟩) hstep horder

/-- **The speed ceiling.**  Between two reports accepted for an entity lies no more than the
ceiling allows over the time between them and 50 ms for each report in between, or the last,
that came less than 50 ms after the one before. -/
theorem ceiling_per_report (hped : PedLives id init) (run : Run step init past s)
    (along : Along InOrder past) {newer between older : List (Nat × Vec3 ℝ)}
    {later earlier : Nat × Vec3 ℝ}
    (hjourney : journey id past = newer ++ later :: (between ++ earlier :: older)) :
    distance3d earlier.2 later.2
      ≤ init.maxSpeedMps * (((later.1 : ℝ) - earlier.1) / 10 ^ 9
        + 0.05 * hurried (later :: (between ++ [earlier]))) := by
  refine distance_le_of_legs between ?_
  have hlegs := (followed_of_run hped run along).legs
  rw [hjourney] at hlegs
  refine hlegs.infix ⟨newer, older, ?_⟩
  simp

end Run

/-! ### A burst uses the whole grant -/

/-- A report of a player about its ped, so far along the x axis. -/
def reportAt (x : ℝ) : ClientStateUpdate ℝ where
  entityId := none
  entityType := .player
  modelHash := 1
  coords := ⟨x, 0, 0⟩
  heading := 0
  velocity := ⟨0, 0, 0⟩
  health := 100
  armour := 0
  extra := none

/-- Reports of one instant, newest first, each a stride further. -/
noncomputable def burst (stride : ℝ) : Nat → List (Nat × Vec3 ℝ)
  | 0 => [(0, ⟨0, 0, 0⟩)]
  | n + 1 => (0, ⟨stride * (n + 1 : Nat), 0, 0⟩) :: burst stride n

theorem distance3d_axis (a b : ℝ) : distance3d ⟨a, 0, 0⟩ ⟨b, 0, 0⟩ = |a - b| := by
  show Real.sqrt ((a - b) * (a - b) + (0 - 0) * (0 - 0) + (0 - 0) * (0 - 0)) = _
  rw [← Real.sqrt_sq_eq_abs]
  congr 1
  ring

/-- The ceiling over 50 ms is not too fast for any two reports. -/
theorem stride_not_tooFast {limit : ℝ} (hlimit : 0 ≤ limit) (x : ℝ) :
    tooFast limit (some (0, ⟨x, 0, 0⟩)) 0 ⟨x + 0.05 * limit, 0, 0⟩ = false := by
  refine decide_eq_false ?_
  have hfloor : (OfScientific.ofScientific 5 true 2 : ℝ) = 0.05 := by norm_num
  have hmax : max (asSecsF32 (0 - 0) : ℝ) 0.05 = 0.05 := by
    rw [asSecsF32_real]
    norm_num
  have hmeasured : measured (0 - 0) ⟨x, 0, 0⟩ ⟨x + 0.05 * limit, 0, 0⟩ = limit := by
    show distance3d _ _ / max (asSecsF32 (0 - 0) : ℝ) 0.05 = limit
    rw [hmax, distance3d_axis, sub_add_cancel_left, abs_neg, abs_of_nonneg (by positivity)]
    ring
  rw [hmeasured]
  exact lt_irrefl limit

/-- Where the burst has come to: the ped is 11, and 12 is not in use. -/
structure Standing (limit x : ℝ) (s : StateIngest ℝ) : Prop where
  ceiling : s.maxSpeedMps = limit
  ped : s.playerEntity 1 = some 11
  last : s.lastAccepted.lookup 11 = some (0, ⟨x, 0, 0⟩)
  unused : s.entityManager.get 12 = none

/-- A report one stride further is accepted. -/
theorem Standing.stride {limit x : ℝ} {s : StateIngest ℝ} (h : Standing limit x s)
    (hlimit : 0 ≤ limit) :
    ∃ s', step (.apply 0 12 1 (reportAt (x + 0.05 * limit))) s = some (s', some (.ok 11))
      ∧ Standing limit (x + 0.05 * limit) s' := by
  have happly : s.apply 0 12 1 (reportAt (x + 0.05 * limit))
      = s.write 0 1 11 (reportAt (x + 0.05 * limit)) := by
    have hped : s.playerEntities.lookup 1 = some 11 := h.ped
    simp only [apply, reportAt, hped]
  have hnear : s.teleports 0 11 (reportAt (x + 0.05 * limit)).coords = false := by
    rw [teleports_eq, h.ceiling, h.last]
    exact stride_not_tooFast hlimit x
  have hfresh : (12 : EntityId) ∉ s.entityManager.entities := AList.lookup_eq_none.mp h.unused
  have hunused : ((s.write 0 1 11 (reportAt (x + 0.05 * limit))).1.entityManager.get 12).isSome
      = (s.entityManager.get 12).isSome := get_write_isSome 12
  refine ⟨(s.write 0 1 11 (reportAt (x + 0.05 * limit))).1, ?_, ?_, ?_, ?_, ?_⟩
  · simp only [step, if_neg hfresh, happly]
    unfold write
    rw [hnear, if_neg Bool.false_ne_true]
  · unfold write
    rw [hnear, if_neg Bool.false_ne_true]
    exact h.ceiling
  · rw [← h.ped]
    unfold playerEntity
    rw [write_playerEntities]
  · unfold write
    rw [hnear, if_neg Bool.false_ne_true]
    exact AList.lookup_insert _
  · rw [h.unused] at hunused
    exact Option.not_isSome_iff_eq_none.mp (by rw [hunused]; exact Bool.false_ne_true)

/-- **A burst of any length is accepted**, and goes the ceiling over 50 ms with each report. -/
theorem exists_burst {limit : ℝ} (hlimit : 0 ≤ limit) (n : Nat) :
    ∃ (past : List (Done ℝ)) (s : StateIngest ℝ), Run step (new EntityManager.new limit) past s
      ∧ Along InOrder past ∧ journey 11 past = burst (0.05 * limit) n := by
  suffices h : ∃ (past : List (Done ℝ)) (s : StateIngest ℝ),
      Run step (new EntityManager.new limit) past s ∧ (∀ e ∈ past, reportedAt e = some 0)
        ∧ Along InOrder past ∧ journey 11 past = burst (0.05 * limit) n
        ∧ Standing limit (0.05 * limit * n) s by
    obtain ⟨past, s, run, -, along, hjourney, -⟩ := h
    exact ⟨past, s, run, along, hjourney⟩
  induction n with
  | zero =>
      have hfirst : step (.apply 0 11 1 (reportAt 0)) (new EntityManager.new limit)
          = some (((new EntityManager.new limit).apply 0 11 1 (reportAt 0)).1, some (.ok 11)) :=
        rfl
      refine ⟨_, _, Run.nil.snoc hfirst, ?_, ?_, rfl, ?_⟩
      · simp [reportedAt]
      · refine ⟨⟨0, rfl, ?_⟩, trivial⟩
        intro earlier hearlier
        exact absurd hearlier List.not_mem_nil
      · rw [Nat.cast_zero, mul_zero]
        refine ⟨rfl, AList.lookup_insert _, AList.lookup_insert _, ?_⟩
        exact (EntityManager.get_spawnEntity _ 12).trans (if_neg (by decide))
  | succ n ih =>
      obtain ⟨past, s, run, hinstant, along, hjourney, hstand⟩ := ih
      obtain ⟨s', hstep, hstand'⟩ := hstand.stride hlimit
      have hreach : 0.05 * limit * n + 0.05 * limit = 0.05 * limit * (n + 1 : Nat) := by
        push_cast
        ring
      rw [hreach] at hstep hstand'
      refine ⟨_, s', run.snoc hstep, ?_, ?_, ?_, hstand'⟩
      · exact List.forall_mem_cons.mpr ⟨rfl, hinstant⟩
      · refine ⟨⟨0, rfl, ?_⟩, along⟩
        intro earlier hearlier time htime
        rw [hinstant earlier hearlier] at htime
        exact (Option.some.inj htime).ge
      · rw [burst, ← hjourney]
        rfl

/-- Under a ceiling of 200 m/s a stride is 10 m. -/
theorem exists_burst_ten (n : Nat) :
    ∃ (past : List (Done ℝ)) (s : StateIngest ℝ), Run step (new EntityManager.new 200) past s
      ∧ Along InOrder past ∧ journey 11 past = burst 10 n := by
  have hlimit : (0 : ℝ) ≤ 200 := by norm_num
  have hstride : (0.05 * 200 : ℝ) = 10 := by norm_num
  have h := exists_burst hlimit n
  rw [hstride] at h
  exact h

/-- Three reports of one instant, at 0 m, 10 m and 20 m: two of them hurried. -/
theorem burst_within_ceiling :
    ∃ (past : List (Done ℝ)) (s : StateIngest ℝ), Run step (new EntityManager.new 200) past s
      ∧ Along InOrder past ∧ journey 11 past = burst 10 2
      ∧ distance3d (⟨0, 0, 0⟩ : Vec3 ℝ) ⟨10 * (2 : Nat), 0, 0⟩
        ≤ (200 : ℝ) * ((((0 : Nat) : ℝ) - (0 : Nat)) / 10 ^ 9
          + 0.05 * hurried (burst (10 : ℝ) 2)) := by
  obtain ⟨past, s, run, along, hjourney⟩ := exists_burst_ten 2
  have hcut : journey 11 past = [] ++ (0, ⟨10 * (2 : Nat), 0, 0⟩)
      :: ([(0, ⟨10 * (1 : Nat), 0, 0⟩)] ++ (0, ⟨0, 0, 0⟩) :: []) := hjourney
  have hped : PedLives 11 (new EntityManager.new (200 : ℝ)) := nofun
  refine ⟨past, s, run, along, hjourney, ?_⟩
  exact ceiling_per_report hped run along hcut

/-- **One interval is not enough**: in a burst of three the entity goes twice as far. -/
theorem burst_outruns_ceiling :
    ¬ ∀ (init s : StateIngest ℝ) (past : List (Done ℝ)) (id : EntityId)
        (newer between older : List (Nat × Vec3 ℝ)) (later earlier : Nat × Vec3 ℝ),
      PedLives id init → Run step init past s → Along InOrder past →
        journey id past = newer ++ later :: (between ++ earlier :: older) →
          distance3d earlier.2 later.2
            ≤ init.maxSpeedMps * (((later.1 : ℝ) - earlier.1) / 10 ^ 9 + 0.05) := by
  intro h
  obtain ⟨past, s, run, along, hjourney⟩ := exists_burst_ten 2
  have hcut : journey 11 past = [] ++ (0, ⟨10 * (2 : Nat), 0, 0⟩)
      :: ([(0, ⟨10 * (1 : Nat), 0, 0⟩)] ++ (0, ⟨0, 0, 0⟩) :: []) := hjourney
  have hped : PedLives 11 (new EntityManager.new (200 : ℝ)) := nofun
  have hbound := h _ s past 11 _ _ _ _ _ hped run along hcut
  rw [distance3d_axis] at hbound
  have hceiling : (new EntityManager.new (200 : ℝ)).maxSpeedMps = 200 := rfl
  rw [hceiling] at hbound
  norm_num at hbound

end StateIngest

end Baston.Zone
