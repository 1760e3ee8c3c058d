/-
The speed check along a player's journey.

Within a zone a report is measured against the last one the zone accepted, so a player who
keeps to the limit is never refused.  A restored player is measured against the place where its
snapshot was taken, over the time since it was activated: the way between the two counts, the
time does not.  So the first report after a crossing is the only one that can be refused.
-/
import Baston.Proofs.Snapshots

namespace Baston.Zone

open Assoc Trace Baston.Rage

variable {F : Type}

namespace StateIngest

/-! ### One zone -/

/-- The speed the check reads off a displacement. -/
def measured [Scalar F] (elapsed : Nat) (origin coords : Vec3 F) : F :=
  distance3d origin coords / Scalar.max (asSecsF32 elapsed) 0.05

/-- The check, against what was last accepted. -/
def tooFast [Scalar F] (maxSpeedMps : F) (last : Option (Nat × Vec3 F)) (now : Nat)
    (coords : Vec3 F) : Bool :=
  last.any fun (at_, origin) => Scalar.lt maxSpeedMps (measured (now - at_) origin coords)

/-- What the player's next report is measured against. -/
def baseline (source : UInt32) (s : StateIngest F) : Option (Nat × Vec3 F) :=
  (s.playerEntity source).bind s.lastAccepted.lookup

/-- The report is about the player's ped, named or not. -/
def aboutPed (source : UInt32) (update : ClientStateUpdate F) (s : StateIngest F) : Bool :=
  update.entityId.isNone
    || (target source update s).isSome && target source update s == s.playerEntity source

variable {s : StateIngest F} {source : UInt32} {now : Nat} {update : ClientStateUpdate F}

theorem teleports_eq [Scalar F] (id : EntityId) (coords : Vec3 F) :
    s.teleports now id coords = tooFast s.maxSpeedMps (s.lastAccepted.lookup id) now coords := by
  unfold teleports tooFast
  cases s.lastAccepted.lookup id with
  | none => rfl
  | some last => rfl

theorem restorePlayerState_maxSpeedMps {snapshot : PlayerStateSnapshot F} :
    (s.restorePlayerState now snapshot).1.maxSpeedMps = s.maxSpeedMps := by
  unfold restorePlayerState
  split
  · rfl
  · rfl

theorem onPlayerDropped_maxSpeedMps :
    (s.onPlayerDropped source).maxSpeedMps = s.maxSpeedMps := by
  unfold onPlayerDropped
  split
  · rfl
  · rfl

theorem step_maxSpeedMps [Scalar F] [BEq F] {call : Call F} {s' : StateIngest F}
    {answer : Option (Except RejectReason EntityId)} (h : step call s = some (s', answer)) :
    s'.maxSpeedMps = s.maxSpeedMps := by
  cases call with
  | apply now fresh source update =>
      simp only [step] at h
      split at h
      · cases h
      · obtain ⟨rfl, rfl⟩ := Prod.mk.inj (Option.some.inj h)
        have hspec := apply_spec now fresh source update s
        generalize s.apply now fresh source update = r at hspec
        cases hspec with
        | written _ =>
            unfold write
            split
            · rfl
            · rfl
        | firstPed _ _ => rfl
        | registered _ _ _ => rfl
        | refused _ _ _ => rfl
  | restorePlayerState now snapshot =>
      obtain ⟨rfl, rfl⟩ := Prod.mk.inj (Option.some.inj h)
      exact restorePlayerState_maxSpeedMps
  | onPlayerDropped source =>
      obtain ⟨rfl, rfl⟩ := Prod.mk.inj (Option.some.inj h)
      exact onPlayerDropped_maxSpeedMps

/-- **A report about the ped** is refused when it is too fast; otherwise it is what the next one
is measured against. -/
theorem apply_aboutPed [Scalar F] [BEq F] (now : Nat) (fresh : EntityId)
    (habout : s.aboutPed source update = true) :
    if tooFast s.maxSpeedMps (s.baseline source) now update.coords then
      s.apply now fresh source update = (s, .error .teleport)
    else (∃ id, (s.apply now fresh source update).2 = .ok id)
      ∧ (s.apply now fresh source update).1.baseline source = some (now, update.coords) := by
  have hspec := apply_spec now fresh source update s
  generalize s.apply now fresh source update = r at hspec
  cases hspec with
  | @written id htarget =>
      have hped : s.playerEntity source = some id := by
        unfold aboutPed at habout
        cases hid : update.entityId with
        | none =>
            unfold target at htarget
            rw [hid] at htarget
            exact htarget
        | some named =>
            rw [hid, htarget] at habout
            have hsame : some id = s.playerEntity source := by simpa using habout
            exact hsame.symm
      have hcheck : s.teleports now id update.coords
          = tooFast s.maxSpeedMps (s.baseline source) now update.coords := by
        rw [teleports_eq, baseline, hped, Option.bind_some]
      rw [← hcheck]
      cases hnear : s.teleports now id update.coords with
      | true =>
          rw [if_pos rfl]
          exact write_teleports hnear
      | false =>
          rw [if_neg Bool.false_ne_true]
          unfold write
          rw [hnear, if_neg Bool.false_ne_true]
          refine ⟨⟨id, rfl⟩, ?_⟩
          show (s.playerEntity source).bind _ = _
          rw [hped]
          exact AList.lookup_insert _
  | firstPed hid hped =>
      have hnone : s.baseline source = none := by
        rw [baseline, hped]
        rfl
      rw [hnone]
      refine ⟨⟨fresh, rfl⟩, ?_⟩
      show ((s.playerEntities.insert source fresh).lookup source).bind _ = _
      rw [AList.lookup_insert]
      exact AList.lookup_insert _
  | @registered id hid hfree _ =>
      unfold aboutPed target at habout
      simp [hid, hfree] at habout
  | refused hid _ htarget =>
      unfold aboutPed at habout
      simp [hid, htarget] at habout

/-- A restored player is measured against where the snapshot was taken, from now on. -/
theorem baseline_restorePlayerState {snapshot : PlayerStateSnapshot F}
    (hsource : snapshot.sourceId = source) :
    (s.restorePlayerState now snapshot).1.baseline source
      = if snapshot.playerEntity.isSome then some (now, snapshot.coords)
        else s.baseline source := by
  unfold restorePlayerState
  cases snapshot.playerEntity with
  | none => rfl
  | some ped =>
      subst hsource
      show ((s.playerEntities.insert snapshot.sourceId ped.entityId).lookup _).bind _ = _
      rw [AList.lookup_insert]
      exact AList.lookup_insert _

theorem baseline_of_absent (h : s.playerEntity source = none) : s.baseline source = none := by
  rw [baseline, h]
  rfl

end StateIngest

namespace Journey

/-! ### A whole journey -/

/-- The report about the player's ped that the serving zone was sent, if this was one. -/
def reported (source : UInt32) (e : Done F) : Option (Nat × Vec3 F) :=
  match e.op with
  | .call zone (.apply now _ sender update) =>
    if zone = e.pre.serving ∧ sender = source
        ∧ (e.pre.zones zone).aboutPed source update = true then some (now, update.coords)
    else none
  | _ => none

/-- When the player was activated, and where its snapshot was taken, if this was it. -/
def seeded (e : Done F) : Option (Nat × PlayerStateSnapshot F) :=
  match e.op, e.pre.stage with
  | .activate now, .transferring target => (e.pre.ghosts target).map fun snapshot => (now, snapshot)
  | _, _ => none

/-- What the player's next report will be measured against. -/
inductive Anchor (F : Type)
  | unplaced
  | reported (now : Nat) (coords : Vec3 F)
  | seeded (now : Nat) (coords : Vec3 F)

def Anchor.baseline : Anchor F → Option (Nat × Vec3 F)
  | .unplaced => none
  | .reported now coords => some (now, coords)
  | .seeded now coords => some (now, coords)

/-- The activation, where no report came after it. -/
def Anchor.seed : Anchor F → Option (Nat × Vec3 F)
  | .seeded now coords => some (now, coords)
  | _ => none

def anchor (source : UInt32) : List (Done F) → Anchor F
  | [] => .unplaced
  | e :: past =>
    match reported source e, seeded e with
    | some (now, coords), _ => .reported now coords
    | none, some (now, snapshot) =>
      if snapshot.playerEntity.isSome then .seeded now snapshot.coords else .unplaced
    | none, none => anchor source past

/-- The last report the player sent. -/
def lastReport (source : UInt32) : List (Done F) → Option (Nat × Vec3 F)
  | [] => none
  | e :: past => (reported source e).or (lastReport source past)

variable [Scalar F]

/-- **The player keeps to the limit**: from each report to the next it is no faster, wherever
it was in between. -/
def Steady (source : UInt32) (maxSpeedMps : F) (past : List (Done F)) : Prop :=
  Along (fun past e => ∀ r ∈ reported source e,
    StateIngest.tooFast maxSpeedMps (lastReport source past) r.1 r.2 = false) past

/-- The first report after an activation is within reach of the place the snapshot was taken
at, in the time since the activation. -/
def Reaches (source : UInt32) (maxSpeedMps : F) (past : List (Done F)) (e : Done F) : Prop :=
  ∀ r ∈ reported source e, ∀ seed ∈ (anchor source past).seed,
    StateIngest.tooFast maxSpeedMps (some seed) r.1 r.2 = false

/-- Calls that are no reports of the player about its ped to the zone that serves it leave alone
what the player is measured against. -/
def Undisturbed (source : UInt32) (e : Done F) : Prop :=
  reported source e = none → ∀ zone call, e.op = .call zone call →
    (e.post.zones zone).playerEntity source = (e.pre.zones zone).playerEntity source
      ∧ (e.post.zones zone).baseline source = (e.pre.zones zone).baseline source

/-- No report of the player about its ped was refused as a teleport. -/
def NeverRefused (source : UInt32) (past : List (Done F)) : Prop :=
  ∀ e ∈ past, (reported source e).isSome → e.answer ≠ some (.error .teleport)

instance (source : UInt32) (maxSpeedMps : F) (past : List (Done F)) :
    Decidable (Steady source maxSpeedMps past) :=
  Along.decidable past

instance (source : UInt32) (maxSpeedMps : F) (past : List (Done F)) (e : Done F) :
    Decidable (Reaches source maxSpeedMps past e) :=
  inferInstanceAs (Decidable (∀ r ∈ reported source e, ∀ seed ∈ (anchor source past).seed,
    StateIngest.tooFast maxSpeedMps (some seed) r.1 r.2 = false))

instance (source : UInt32) (past : List (Done F)) : Decidable (NeverRefused source past) :=
  inferInstanceAs (Decidable (∀ e ∈ past, (reported source e).isSome →
    e.answer ≠ some (.error .teleport)))

variable [BEq F] {source : UInt32} {maxSpeedMps : F}

/-- What is known of a journey without a refusal. -/
structure Measured (source : UInt32) (maxSpeedMps : F) (past : List (Done F))
    (j : Journey F) : Prop where
  limit : ∀ zone, (j.zones zone).maxSpeedMps = maxSpeedMps
  elsewhere : ∀ zone, zone ≠ j.serving → zone ≠ j.home →
    (j.zones zone).playerEntity source = none
  served : (j.zones j.serving).baseline source = (anchor source past).baseline
  apart : ∀ target, j.stage = .ready target ∨ j.stage = .transferring target
    ∨ j.stage = .activated target → target ≠ j.home
  mine : ∀ zone snapshot, j.ghosts zone = some snapshot → snapshot.sourceId = source

omit [Scalar F] [BEq F] in
theorem reported_call {e : Done F} {now : Nat} {coords : Vec3 F}
    (h : reported source e = some (now, coords)) : ∃ fresh update,
      e.op = .call e.pre.serving (.apply now fresh source update) ∧ coords = update.coords
        ∧ (e.pre.zones e.pre.serving).aboutPed source update = true := by
  unfold reported at h
  split at h
  · next zone now' fresh sender update hop =>
      split at h
      · next hmine =>
          obtain ⟨rfl, rfl, habout⟩ := hmine
          obtain ⟨rfl, rfl⟩ := Prod.mk.inj (Option.some.inj h)
          exact ⟨fresh, update, hop, rfl, habout⟩
      · cases h
  · cases h

/-- **A report is refused exactly when it is too fast** for what it is measured against. -/
theorem report_step {past : List (Done F)} {j j' : Journey F} {move : Move F} {answer : Answer}
    {now : Nat} {coords : Vec3 F} (h : Measured source maxSpeedMps past j)
    (hstep : step source move j = some (j', answer))
    (hreport : reported source ⟨j, move, answer, j'⟩ = some (now, coords)) :
    if StateIngest.tooFast maxSpeedMps (anchor source past).baseline now coords then
      answer = some (.error .teleport)
    else answer ≠ some (.error .teleport)
      ∧ Measured source maxSpeedMps (⟨j, move, answer, j'⟩ :: past) j' := by
  obtain ⟨fresh, update, hop, rfl, habout⟩ := reported_call hreport
  obtain rfl : move = .call j.serving (.apply now fresh source update) := hop
  obtain ⟨⟨z, answer'⟩, hz, heq⟩ := Option.map_eq_some_iff.mp hstep
  obtain ⟨rfl, rfl⟩ := Prod.mk.inj heq
  have hlimit := StateIngest.step_maxSpeedMps hz
  have hcheck := StateIngest.apply_aboutPed now fresh habout
  rw [h.limit, h.served] at hcheck
  simp only [StateIngest.step] at hz
  split at hz
  · cases hz
  · obtain ⟨rfl, rfl⟩ := Prod.mk.inj (Option.some.inj hz)
    by_cases hfast : StateIngest.tooFast maxSpeedMps (anchor source past).baseline now
        update.coords = true
    · rw [if_pos hfast] at hcheck ⊢
      rw [hcheck]
    · rw [if_neg hfast] at hcheck ⊢
      obtain ⟨⟨id, hok⟩, hbaseline⟩ := hcheck
      refine ⟨?_, ?_, ?_, ?_, h.apart, h.mine⟩
      · rw [hok]
        intro heq
        cases heq
      · exact forall_update (P := fun _ (z : StateIngest F) => z.maxSpeedMps = maxSpeedMps)
          (hlimit.trans (h.limit _)) fun zone _ => h.limit zone
      · intro zone hserving hhome
        show StateIngest.playerEntity source (Function.update j.zones j.serving _ zone) = none
        have haway : zone ≠ j.serving := hserving
        rw [Function.update_of_ne haway]
        exact h.elsewhere zone hserving hhome
      · show StateIngest.baseline source (Function.update j.zones j.serving _ j.serving) = _
        rw [Function.update_self, hbaseline, anchor, hreport]
        rfl

omit [Scalar F] [BEq F] in
/-- A zone that keeps what it knows of the player can be put in the place of another. -/
theorem Measured.zones_update {past past' : List (Done F)} {j : Journey F}
    (h : Measured source maxSpeedMps past j) {zone : ZoneId} {z : StateIngest F}
    (hlimit : z.maxSpeedMps = maxSpeedMps)
    (hped : z.playerEntity source = (j.zones zone).playerEntity source)
    (hbaseline : z.baseline source = (j.zones zone).baseline source)
    (hanchor : anchor source past' = anchor source past) :
    Measured source maxSpeedMps past' { j with zones := Function.update j.zones zone z } := by
  have hzones : ∀ zone', (Function.update j.zones zone z zone').maxSpeedMps = maxSpeedMps
      ∧ (Function.update j.zones zone z zone').playerEntity source
        = (j.zones zone').playerEntity source
      ∧ (Function.update j.zones zone z zone').baseline source
        = (j.zones zone').baseline source :=
    forall_update (P := fun zone' (z : StateIngest F) => z.maxSpeedMps = maxSpeedMps
      ∧ z.playerEntity source = (j.zones zone').playerEntity source
      ∧ z.baseline source = (j.zones zone').baseline source)
      ⟨hlimit, hped, hbaseline⟩ fun zone' _ => ⟨h.limit zone', rfl, rfl⟩
  refine ⟨fun zone' => (hzones zone').1, ?_, ?_, h.apart, h.mine⟩
  · intro zone' hserving hhome
    exact (hzones zone').2.1.trans (h.elsewhere zone' hserving hhome)
  · rw [hanchor]
    exact (hzones _).2.2.trans h.served

omit [Scalar F] [BEq F] in
/-- A snapshot of the player may be left in a zone, or none. -/
theorem Measured.ghosts_update {past : List (Done F)} {j : Journey F}
    (h : Measured source maxSpeedMps past j) (target : ZoneId)
    {ghost : Option (PlayerStateSnapshot F)}
    (hghost : ∀ snapshot, ghost = some snapshot → snapshot.sourceId = source) :
    ∀ zone snapshot, Function.update j.ghosts target ghost zone = some snapshot →
      snapshot.sourceId = source :=
  forall_update (P := fun _ (ghost : Option (PlayerStateSnapshot F)) => ∀ snapshot,
    ghost = some snapshot → snapshot.sourceId = source) hghost fun zone _ => h.mine zone

omit [Scalar F] [BEq F] in
/-- A step of the handoff that leaves every zone as it is, and the home zone serving. -/
theorem Measured.atHome {past past' : List (Done F)} {j j' : Journey F}
    (h : Measured source maxSpeedMps past j) (hbefore : j.serving = j.home)
    (hzones : j'.zones = j.zones) (hhome : j'.home = j.home) (hafter : j'.serving = j'.home)
    (hapart : ∀ target, j'.stage = .ready target ∨ j'.stage = .transferring target
      ∨ j'.stage = .activated target → target ≠ j'.home)
    (hmine : ∀ zone snapshot, j'.ghosts zone = some snapshot → snapshot.sourceId = source)
    (hanchor : anchor source past' = anchor source past) :
    Measured source maxSpeedMps past' j' := by
  refine ⟨?_, ?_, ?_, hapart, hmine⟩
  · rw [hzones]
    exact h.limit
  · rw [hzones, hafter, hhome]
    intro zone _ haway
    exact h.elsewhere zone (by rw [hbefore]; exact haway) haway
  · rw [hzones, hafter, hhome, hanchor, ← hbefore]
    exact h.served

/-- The target zone measures the player against its ghost. -/
theorem Measured.activate {past : List (Done F)} {j j' : Journey F} {now : Nat} {answer : Answer}
    (h : Measured source maxSpeedMps past j)
    (hstep : step source (.activate now) j = some (j', answer)) :
    Measured source maxSpeedMps (⟨j, .activate now, answer, j'⟩ :: past) j' := by
  simp only [step] at hstep
  split at hstep
  · next target htransferring =>
      have hserving : j.serving = j.home := by
        unfold serving
        rw [htransferring]
      have haway := h.apart target (.inr (.inl htransferring))
      split at hstep
      · next snapshot hghost =>
          obtain ⟨rfl, rfl⟩ := Prod.mk.inj (Option.some.inj hstep)
          have hmine := h.mine target snapshot hghost
          have habsent := h.elsewhere target (by rw [hserving]; exact haway) haway
          refine ⟨?_, ?_, ?_, ?_, h.ghosts_update target fun _ hnone => by cases hnone⟩
          · refine forall_update (P := fun _ (z : StateIngest F) => z.maxSpeedMps = maxSpeedMps) ?_
              fun zone _ => h.limit zone
            exact StateIngest.restorePlayerState_maxSpeedMps.trans (h.limit target)
          · intro zone hactive hhome
            show StateIngest.playerEntity source (Function.update j.zones target _ zone) = none
            have hothers : zone ≠ target := hactive
            rw [Function.update_of_ne hothers]
            exact h.elsewhere zone (by rw [hserving]; exact hhome) hhome
          · show StateIngest.baseline source (Function.update j.zones target _ target) = _
            rw [Function.update_self, StateIngest.baseline_restorePlayerState hmine,
              StateIngest.baseline_of_absent habsent]
            have hseeded : ∀ j', seeded (⟨j, .activate now, none, j'⟩ : Done F)
                = some (now, snapshot) := by
              intro j'
              simp only [seeded, htransferring, hghost, Option.map_some]
            rw [anchor, reported, hseeded]
            simp only []
            split
            · rfl
            · rfl
          · intro target' hstage
            obtain rfl : target = target' := by simpa using hstage
            exact haway
      · next hghost =>
          obtain ⟨rfl, rfl⟩ := Prod.mk.inj (Option.some.inj hstep)
          refine h.atHome hserving rfl rfl rfl (fun _ hstage => by simp at hstage) h.mine ?_
          rw [anchor, reported]
          simp only [seeded, htransferring, hghost, Option.map_none]
  · cases hstep

/-- Without the player the home zone measures nobody. -/
theorem Measured.release {past : List (Done F)} {j j' : Journey F} {ord : IterOrder EntityId}
    {answer : Answer} (h : Measured source maxSpeedMps past j)
    (hstep : step source (.release ord) j = some (j', answer)) :
    Measured source maxSpeedMps (⟨j, .release ord, answer, j'⟩ :: past) j' := by
  simp only [step] at hstep
  split at hstep
  · next target hactivated =>
      obtain ⟨rfl, rfl⟩ := Prod.mk.inj (Option.some.inj hstep)
      have hserving : j.serving = target := by
        unfold serving
        rw [hactivated]
      have haway := h.apart target (.inr (.inr hactivated))
      refine ⟨?_, ?_, ?_, fun _ hstage => by simp at hstage, h.mine⟩
      · refine forall_update (P := fun _ (z : StateIngest F) => z.maxSpeedMps = maxSpeedMps) ?_
          fun zone _ => h.limit zone
        exact StateIngest.onPlayerDropped_maxSpeedMps.trans (h.limit j.home)
      · intro zone hactive _
        show StateIngest.playerEntity source (Function.update j.zones j.home _ zone) = none
        by_cases hzone : zone = j.home
        · rw [hzone, Function.update_self]
          exact (StateIngest.onPlayerDropped_playerEntity source source).trans (if_pos rfl)
        · rw [Function.update_of_ne hzone]
          exact h.elsewhere zone (by rw [hserving]; exact hactive) hzone
      · show StateIngest.baseline source (Function.update j.zones j.home _ target) = _
        rw [Function.update_of_ne haway]
        exact hserving ▸ h.served
  · cases hstep

/-- What is no report changes what the player is measured against only by an activation. -/
theorem other_step {past : List (Done F)} {j j' : Journey F} {move : Move F} {answer : Answer}
    (h : Measured source maxSpeedMps past j) (hstep : step source move j = some (j', answer))
    (hother : reported source ⟨j, move, answer, j'⟩ = none)
    (hundisturbed : Undisturbed source ⟨j, move, answer, j'⟩) :
    Measured source maxSpeedMps (⟨j, move, answer, j'⟩ :: past) j' := by
  have hanchor : seeded ⟨j, move, answer, j'⟩ = none →
      anchor source (⟨j, move, answer, j'⟩ :: past) = anchor source past := by
    intro hseeded
    rw [anchor, hother, hseeded]
  cases move with
  | call zone call =>
      obtain ⟨⟨z, answer'⟩, hz, heq⟩ := Option.map_eq_some_iff.mp hstep
      obtain ⟨rfl, rfl⟩ := Prod.mk.inj heq
      have hkept := hundisturbed hother zone call rfl
      have hself : Function.update j.zones zone z zone = z := Function.update_self _ _ _
      simp only [hself] at hkept
      exact h.zones_update ((StateIngest.step_maxSpeedMps hz).trans (h.limit zone)) hkept.1
        hkept.2 (hanchor rfl)
  | entities zone call =>
      obtain ⟨rfl, rfl⟩ := Prod.mk.inj (Option.some.inj hstep)
      exact h.zones_update (h.limit zone) rfl rfl (hanchor rfl)
  | prepare target coords ord =>
      simp only [step] at hstep
      split at hstep
      · next hsettled =>
          split at hstep
          · cases hstep
          · next haway =>
              obtain ⟨rfl, rfl⟩ := Prod.mk.inj (Option.some.inj hstep)
              have hserving : j.serving = j.home := by
                unfold serving
                rw [hsettled]
              refine h.atHome hserving rfl rfl rfl ?_ ?_ (hanchor rfl)
              · intro target' hstage
                obtain rfl : target = target' := by simpa using hstage
                exact haway
              · refine h.ghosts_update target ?_
                intro snapshot hghost
                rw [← Option.some.inj hghost]
                rfl
      · cases hstep
  | cancel =>
      simp only [step] at hstep
      split at hstep
      · next target hready =>
          obtain ⟨rfl, rfl⟩ := Prod.mk.inj (Option.some.inj hstep)
          have hserving : j.serving = j.home := by
            unfold serving
            rw [hready]
          exact h.atHome hserving rfl rfl rfl (fun _ hstage => by simp at hstage) h.mine
            (hanchor rfl)
      · cases hstep
  | expire zone =>
      obtain ⟨rfl, rfl⟩ := Prod.mk.inj (Option.some.inj hstep)
      refine ⟨h.limit, h.elsewhere, ?_, h.apart, h.ghosts_update zone fun _ hnone => by cases hnone⟩
      rw [hanchor rfl]
      exact h.served
  | confirm =>
      simp only [step] at hstep
      split at hstep
      · next target hready =>
          obtain ⟨rfl, rfl⟩ := Prod.mk.inj (Option.some.inj hstep)
          have hserving : j.serving = j.home := by
            unfold serving
            rw [hready]
          refine h.atHome hserving rfl rfl rfl ?_ h.mine (hanchor rfl)
          intro target' hstage
          obtain rfl : target = target' := by simpa using hstage
          exact h.apart target (.inl hready)
      · cases hstep
  | activate now => exact h.activate hstep
  | release ord => exact h.release hstep

omit [Scalar F] [BEq F] in
/-- What was reported last is what a report would be measured against. -/
theorem lastReport_of_anchor : ∀ {past : List (Done F)} {now : Nat} {coords : Vec3 F},
    anchor source past = .reported now coords → lastReport source past = some (now, coords) := by
  intro past
  induction past with
  | nil =>
      intro now coords h
      cases h
  | cons e past ih =>
      intro now coords h
      unfold anchor at h
      unfold lastReport
      cases hreport : reported source e with
      | some r =>
          rw [hreport] at h
          simp only [Anchor.reported.injEq] at h
          rw [Option.some_or, ← h.1, ← h.2]
      | none =>
          rw [hreport] at h
          rw [Option.none_or]
          cases hseeded : seeded e with
          | none =>
              rw [hseeded] at h
              exact ih h
          | some r =>
              rw [hseeded] at h
              simp only [] at h
              split at h
              · cases h
              · cases h

theorem run_measured {home : ZoneId} {past : List (Done F)} {j : Journey F}
    (run : Run (step source) (start home maxSpeedMps) past j)
    (hundisturbed : Along (fun _ e => Undisturbed source e) past)
    (hnever : NeverRefused source past) : Measured source maxSpeedMps past j := by
  induction run with
  | nil => exact ⟨fun _ => rfl, fun _ _ _ => rfl, rfl, by simp [start], nofun⟩
  | snoc run h ih =>
      have hbefore := ih hundisturbed.2 fun e he => hnever e (List.mem_cons_of_mem _ he)
      cases hreport : reported source ⟨_, _, _, _⟩ with
      | none => exact other_step hbefore h hreport hundisturbed.1
      | some r =>
          have hspec := report_step hbefore h hreport
          split at hspec
          · have hsome := congrArg Option.isSome hreport
            exact absurd hspec (hnever _ List.mem_cons_self hsome)
          · exact hspec.2

/-- **A player who keeps to the limit is never refused exactly when the first report after each
activation is within reach of the place its snapshot was taken at.** -/
theorem never_refused_iff {home : ZoneId} {past : List (Done F)} {j : Journey F}
    (run : Run (step source) (start home maxSpeedMps) past j)
    (hundisturbed : Along (fun _ e => Undisturbed source e) past)
    (hsteady : Steady source maxSpeedMps past) :
    NeverRefused source past ↔ Along (Reaches source maxSpeedMps) past := by
  induction run with
  | nil => exact iff_of_true (fun _ he => absurd he List.not_mem_nil) trivial
  | @snoc past j j' move answer run h ih =>
      have hbefore := ih hundisturbed.2 hsteady.2
      have hsplit : NeverRefused source (⟨j, move, answer, j'⟩ :: past)
          ↔ ((reported source ⟨j, move, answer, j'⟩).isSome → answer ≠ some (.error .teleport))
            ∧ NeverRefused source past := List.forall_mem_cons
      rw [hsplit]
      refine Iff.trans ?_ (and_congr_right fun _ => hbefore)
      refine and_congr_left fun hnever => ?_
      have hmeasured := run_measured run hundisturbed.2 hnever
      cases hreport : reported source ⟨j, move, answer, j'⟩ with
      | none =>
          refine iff_of_true nofun ?_
          intro r hsome
          rw [hreport] at hsome
          cases hsome
      | some r =>
          obtain ⟨now, coords⟩ := r
          have hspec := report_step hmeasured h hreport
          -- what is refused was not measured against a report
          have hclose : ∀ at_ origin, anchor source past = .reported at_ origin →
              StateIngest.tooFast maxSpeedMps (some (at_, origin)) now coords = false := by
            intro at_ origin hanchor
            have hsteady' := hsteady.1 (now, coords) hreport
            rw [lastReport_of_anchor hanchor] at hsteady'
            exact hsteady'
          have hreaches : Reaches source maxSpeedMps past ⟨j, move, answer, j'⟩
              ↔ StateIngest.tooFast maxSpeedMps (anchor source past).baseline now coords
                = false := by
            constructor
            · intro hreach
              have hseed := hreach (now, coords) hreport
              cases hanchor : anchor source past with
              | unplaced => rfl
              | reported at_ origin => exact hclose at_ origin hanchor
              | seeded at_ origin =>
                  rw [hanchor] at hseed
                  exact hseed (at_, origin) rfl
            · intro hslow r hr seed hseed
              obtain rfl : (now, coords) = r := Option.some.inj (hreport.symm.trans hr)
              cases hanchor : anchor source past with
              | unplaced =>
                  rw [hanchor] at hseed
                  cases hseed
              | reported at_ origin =>
                  rw [hanchor] at hseed
                  cases hseed
              | seeded at_ origin =>
                  rw [hanchor] at hseed hslow
                  obtain rfl : (at_, origin) = seed := Option.some.inj hseed
                  exact hslow
          rw [hreaches]
          cases hfast : StateIngest.tooFast maxSpeedMps (anchor source past).baseline now coords
            with
          | true =>
              rw [hfast, if_pos rfl] at hspec
              exact iff_of_false (fun hok => hok rfl hspec) nofun
          | false =>
              rw [hfast, if_neg Bool.false_ne_true] at hspec
              exact iff_of_true (fun _ => hspec.1) rfl

/-! ### Walking across -/

/-- A report of player 1, some metres from the origin. -/
def walked (metres : Float32) : ClientStateUpdate Float32 where
  entityId := none
  entityType := .player
  modelHash := 1
  coords := ⟨metres, 0.0, 0.0⟩
  heading := 0.0
  velocity := ⟨10.0, 0.0, 0.0⟩
  health := 100.0
  armour := 0.0
  extra := none

/-- Player 1 walks at 10 m/s, and is prepared for the crossing on the way, at some place. -/
def walk (early late : List (Move Float32)) : List (Move Float32) :=
  .call "a" (.apply 0 11 1 (walked 0.0)) :: early
    ++ .call "a" (.apply (20 * 10 ^ 9) 12 1 (walked 200.0)) :: late
    ++ [.confirm, .activate (20 * 10 ^ 9), .release (.stored _),
      .call "b" (.apply (20 * 10 ^ 9 + 10 ^ 8) 13 1 (walked 201.0))]

/-- Prepared at the border. -/
def preparedLate : List (Move Float32) :=
  walk [] [.prepare "b" ⟨200.0, 0.0, 0.0⟩ (.stored _)]

/-- Prepared when it came near, 200 m before. -/
def preparedEarly : List (Move Float32) :=
  walk [.prepare "b" ⟨0.0, 0.0, 0.0⟩ (.stored _)] []

/-- Nothing happens but reports and the handoff. -/
def alone {F : Type} (source : UInt32) (past : List (Done F)) : Bool :=
  past.all fun e => (reported source e).isSome || match e.op with
    | .call _ _ => false
    | _ => true

theorem undisturbed_of_alone {F : Type} {source : UInt32} : ∀ {past : List (Done F)},
    alone source past = true → Along (fun _ e => Undisturbed source e) past := by
  intro past
  induction past with
  | nil =>
      intro _
      trivial
  | cons e past ih =>
      intro h
      obtain ⟨hfirst, hrest⟩ := Bool.and_eq_true_iff.mp h
      refine ⟨?_, ih hrest⟩
      intro hnone zone call hop
      simp only [hnone, hop] at hfirst
      cases hfirst

/-- Prepared at the border, the player is welcome. -/
theorem late_never_refused :
    ∃ (past : List (Done Float32)) (j : Journey Float32),
      Run (step 1) (start "a" 200.0) past j ∧ past.length = 7 ∧ NeverRefused 1 past := by
  obtain ⟨past, j, run, hcheck⟩ := exists_run (step 1) (start "a" 200.0) preparedLate
    (fun past _ => decide (past.length = 7 ∧ alone 1 past = true ∧ Steady 1 200.0 past
      ∧ Along (Reaches 1 200.0) past)) (by decide +kernel)
  obtain ⟨hlength, halone, hsteady, hreaches⟩ := of_decide_eq_true hcheck
  exact ⟨past, j, run, hlength,
    (never_refused_iff run (undisturbed_of_alone halone) hsteady).mpr hreaches⟩

/-- **Prepared on the way, it is taken for a teleport**: the 200 m it walked since count, the
20 s do not. -/
theorem early_refused :
    ¬ ∀ (past : List (Done Float32)) (j : Journey Float32),
      Run (step 1) (start "a" 200.0) past j → Along (fun _ e => Undisturbed 1 e) past →
        Steady 1 200.0 past → NeverRefused 1 past := by
  intro h
  obtain ⟨past, j, run, hcheck⟩ := exists_run (step 1) (start "a" 200.0) preparedEarly
    (fun past _ => decide (alone 1 past = true ∧ Steady 1 200.0 past ∧ ¬ NeverRefused 1 past))
    (by decide +kernel)
  obtain ⟨halone, hsteady, hrefused⟩ := of_decide_eq_true hcheck
  exact hrefused (h past j run (undisturbed_of_alone halone) hsteady)

end Journey

end Baston.Zone
