/-
What a step of the handoff mesh can do: to the zone that takes it, and to everything else.

Most steps belong to a preparation and move nothing.  A crossing begins at one place only, and a
zone prepares and hands over only to others.
-/
import Baston.Lib.Trace
import Baston.Gateway.HandoffMesh

namespace Baston.Gateway

open Assoc Trace Baston.Zone

namespace HandoffMesh

abbrev Done := Entry HandoffMesh HandoffEvent Unit

/-! ### What a zone does by itself -/

/-- A zone prepares and hands over only to others. -/
structure Aims (zone : ZoneId) (z : ZoneMesh) : Prop where
  ready : ∀ target, z.manager.pending = some (.readyToTransfer target) → target ≠ zone
  relayed : ∀ target done, z.preparing = some (.relayed target done) → target ≠ zone
  answered : ∀ target, z.preparing = some (.answered (some target)) → target ≠ zone

section Zone

variable {z z' : ZoneMesh} {now : Nat} {zone : ZoneId}

theorem Aims.of_manager (h : Aims zone z) {m : HandoffManager}
    (hm : ∀ target, m.pending = some (.readyToTransfer target) →
      z.manager.pending = some (.readyToTransfer target)) : Aims zone { z with manager := m } :=
  ⟨fun target ht => h.ready target (hm target ht), h.relayed, h.answered⟩

theorem cancel_ready {m : HandoffManager} {target : ZoneId}
    (h : (m.cancel now).pending = some (.readyToTransfer target)) : False := by
  unfold HandoffManager.cancel at h
  split at h
  · cases h
  · next hnone =>
      rw [h] at hnone
      exact hnone rfl

theorem approach_spec (h : z.approach now = some z') :
    z'.live = z.live ∧ z'.crossing = z.crossing ∧ ∀ zone, Aims zone z' := by
  unfold ZoneMesh.approach at h
  split at h
  · obtain ⟨m, hm, rfl⟩ := Option.map_eq_some_iff.mp h
    unfold HandoffManager.requestHandoff at hm
    split at hm
    · cases hm
    · rw [← Option.some.inj hm]
      exact ⟨rfl, rfl, fun zone => ⟨nofun, nofun, nofun⟩⟩
  · cases h

theorem turnAround_spec (h : z.turnAround now = some z') :
    z'.live = z.live ∧ z'.crossing = z.crossing ∧ ∀ zone, Aims zone z → Aims zone z' := by
  unfold ZoneMesh.turnAround at h
  split at h
  · rw [← Option.some.inj h]
    exact ⟨rfl, rfl, fun _ haims => haims.of_manager fun target ht => (cancel_ready ht).elim⟩
  · cases h

/-- A crossing begins at a zone that holds the player and is ready. -/
theorem crossed_spec (h : z.crossed = some z') :
    z.live = true ∧ z.crossing = none ∧ ∃ target,
      z.manager.pending = some (.readyToTransfer target) ∧ z'.live = true
        ∧ z'.crossing = some (.confirming target, none) ∧ ∀ zone, Aims zone z → Aims zone z' := by
  unfold ZoneMesh.crossed at h
  split at h
  · next hscans =>
      simp only [ZoneMesh.scans, Bool.and_eq_true, Option.isNone_iff_eq_none] at hscans
      obtain ⟨⟨m, target⟩, hm, rfl⟩ := Option.map_eq_some_iff.mp h
      unfold HandoffManager.confirmCrossing at hm
      split at hm
      · next target' hpending =>
          obtain ⟨rfl, rfl⟩ := Prod.mk.inj (Option.some.inj hm)
          exact ⟨hscans.1.1, hscans.2, target', hpending, hscans.1.1, rfl,
            fun _ haims => ⟨nofun, haims.relayed, haims.answered⟩⟩
      · cases hm
  · cases h

theorem prune_aims (h : Aims zone z) :
    Aims zone { z with manager := z.manager.pruneExpired now } :=
  h.of_manager fun _ ht => (Option.filter_eq_some_iff.mp ht).1

/-- Waking the player changes nothing, or makes it live. -/
theorem activatePlayer_spec (z : ZoneMesh) :
    z.activatePlayer.1.crossing = z.crossing
      ∧ (z.activatePlayer.2 = true → z.activatePlayer.1.live = true)
      ∧ (z.activatePlayer.2 = false → z.activatePlayer.1.live = z.live)
      ∧ ∀ zone, Aims zone z → Aims zone z.activatePlayer.1 := by
  unfold ZoneMesh.activatePlayer
  split
  · exact ⟨rfl, nofun, fun _ => rfl, fun _ => id⟩
  · exact ⟨rfl, nofun, fun _ => rfl, fun _ h => ⟨h.ready, h.relayed, h.answered⟩⟩
  · exact ⟨rfl, fun _ => rfl, nofun, fun _ h => ⟨h.ready, h.relayed, h.answered⟩⟩

/-- Only a ghost that sleeps is woken. -/
theorem activatePlayer_refused (h : ∀ createdAt, z.ghost ≠ some (.pending createdAt)) :
    z.activatePlayer.2 = false := by
  unfold ZoneMesh.activatePlayer
  split
  · rfl
  · rfl
  · next createdAt hghost => exact absurd hghost (h createdAt)

theorem prepareReturns_aims {target : Option ZoneId} (h : ∀ t, target = some t → t ≠ zone) :
    Aims zone (z.prepareReturns now target) := by
  refine ⟨?_, nofun, nofun⟩
  intro t ht
  unfold ZoneMesh.prepareReturns HandoffManager.prepared at ht
  cases target with
  | some target =>
      obtain rfl := HandoffState.readyToTransfer.inj (Option.some.inj ht)
      exact h _ rfl
  | none => exact (cancel_ready ht).elim

theorem callReturns_aims (h : Aims zone z) (at_ : Crossing) (answer : Option Bool) :
    Aims zone (z.callReturns now at_ answer) := by
  unfold ZoneMesh.callReturns
  cases at_ with
  | confirming target =>
      refine ⟨?_, h.relayed, h.answered⟩
      intro t ht
      simp only [HandoffManager.confirmed] at ht
      split at ht
      · cases ht
      · exact (cancel_ready ht).elim
  | activating target =>
      simp only []
      split
      · exact ⟨h.ready, h.relayed, h.answered⟩
      · exact ⟨h.ready, h.relayed, h.answered⟩
  | rollingBack => exact ⟨h.ready, h.relayed, h.answered⟩

theorem release_aims (zone : ZoneId) (h : Aims zone z) : Aims zone z.releasePlayer :=
  ⟨nofun, h.relayed, h.answered⟩

/-- Where `complete_handoff` goes on after a call. -/
def afterCall (answer : Option Bool) : Crossing → Option (Crossing × Option Bool)
  | .confirming target => if answer = some true then some (.activating target, none) else none
  | .activating _ => if answer = some true then none else some (.rollingBack, none)
  | .rollingBack => none

/-- Whether the zone then still holds the player. -/
def heldAfter (answer : Option Bool) (live : Bool) : Crossing → Bool
  | .activating _ => if answer = some true then false else live
  | _ => live

theorem callReturns_spec (z : ZoneMesh) (now : Nat) (at_ : Crossing) (answer : Option Bool) :
    (z.callReturns now at_ answer).crossing = afterCall answer at_
      ∧ (z.callReturns now at_ answer).live = heldAfter answer z.live at_ := by
  unfold ZoneMesh.callReturns afterCall heldAfter
  cases at_ with
  | confirming target => exact ⟨rfl, rfl⟩
  | activating target =>
      by_cases hok : answer = some true
      · simp [hok]
      · simp [hok]
  | rollingBack => exact ⟨rfl, rfl⟩

end Zone

/-! ### A zone of the mesh -/

variable {source : UInt32} {home zone : ZoneId} {s s' : HandoffMesh}

@[simp] theorem zones_setZone (zone zone' : ZoneId) (z : ZoneMesh) (s : HandoffMesh) :
    (s.setZone zone z).zones zone' = if zone' = zone then z else s.zones zone' := by
  unfold setZone
  simp only [Function.update_apply]

theorem crossing_setZone {z : ZoneMesh} (h : z.crossing = (s.zones zone).crossing)
    (zone' : ZoneId) : ((s.setZone zone z).zones zone').crossing = (s.zones zone').crossing := by
  rw [zones_setZone]
  split
  · next heq => rw [heq, h]
  · rfl

/-! ### What a step comes to -/

/-- A preparation ends with its answer, or with none; what was not done by then goes astray. -/
theorem prepareReturns_cases {now : Nat} {heard : Bool}
    (hstep : step source (.prepareReturns zone now heard) s = some (s', ())) :
    ∃ target strays,
      (∀ t, target = some t → (s.zones zone).preparing = some (.answered (some t)))
      ∧ s' = { s.setZone zone ((s.zones zone).prepareReturns now target) with
          strays := strays } := by
  simp only [step] at hstep
  split at hstep
  · next target hanswered =>
      obtain ⟨rfl, -⟩ := Prod.mk.inj (Option.some.inj hstep)
      refine ⟨_, _, ?_, rfl⟩
      intro t ht
      split at ht
      · rw [hanswered, ht]
      · cases ht
  · split at hstep
    · cases hstep
    · obtain ⟨rfl, -⟩ := Prod.mk.inj (Option.some.inj hstep)
      exact ⟨none, _, nofun, rfl⟩
  · cases hstep

theorem serve_cases {registered : Bool}
    (hstep : step source (.serve zone registered) s = some (s', ())) :
    ∃ at_, (s.zones zone).crossing = some (at_, none)
      ∧ s' = (s.carryOut source registered zone at_).1.setZone zone
        { (s.carryOut source registered zone at_).1.zones zone with
          crossing := some (at_, some (s.carryOut source registered zone at_).2) } := by
  simp only [step] at hstep
  split at hstep
  · next at_ hopen =>
      obtain ⟨rfl, -⟩ := Prod.mk.inj (Option.some.inj hstep)
      exact ⟨at_, hopen, rfl⟩
  · cases hstep

/-- A call ends with its answer, or is given up; what was not carried out by then goes astray. -/
theorem callReturns_cases {now : Nat} {heard : Bool}
    (hstep : step source (.callReturns zone now heard) s = some (s', ())) :
    ∃ at_ carried strays, (s.zones zone).crossing = some (at_, carried)
      ∧ s' = { s.setZone zone
          ((s.zones zone).callReturns now at_ (if heard then carried else none)) with
          strays := strays } := by
  simp only [step] at hstep
  split at hstep
  · next at_ ok hcrossing =>
      obtain ⟨rfl, -⟩ := Prod.mk.inj (Option.some.inj hstep)
      exact ⟨at_, some ok, _, hcrossing, rfl⟩
  · next at_ hcrossing =>
      split at hstep
      · cases hstep
      · obtain ⟨rfl, -⟩ := Prod.mk.inj (Option.some.inj hstep)
        exact ⟨at_, none, _, hcrossing, by rw [ite_self]⟩
  · cases hstep

theorem disconnect_zones {reachable : Bool}
    (hstep : step source (.disconnect reachable) s = some (s', ())) : s'.zones = s.zones := by
  simp only [step] at hstep
  split at hstep
  · split at hstep
    · obtain ⟨rfl, -⟩ := Prod.mk.inj (Option.some.inj hstep)
      rfl
    · split at hstep
      · obtain ⟨rfl, -⟩ := Prod.mk.inj (Option.some.inj hstep)
        rfl
      · obtain ⟨rfl, -⟩ := Prod.mk.inj (Option.some.inj hstep)
        rfl
  · cases hstep

theorem serveRelease_cases (hstep : step source .serveRelease s = some (s', ())) :
    ∃ zone, s.releasing = some (zone, false)
      ∧ s' = { s.setZone zone (s.zones zone).releasePlayer with
          releasing := some (zone, true) } := by
  simp only [step] at hstep
  split at hstep
  · next zone hreleasing =>
      obtain ⟨rfl, -⟩ := Prod.mk.inj (Option.some.inj hstep)
      exact ⟨zone, hreleasing, rfl⟩
  · cases hstep

theorem releaseReturns_cases (hstep : step source .releaseReturns s = some (s', ())) :
    ∃ zone done strays, s.releasing = some (zone, done)
      ∧ s' = { s with
          strays := strays
          releasing := none
          routes := (s.routes.remove source).1 } := by
  simp only [step] at hstep
  split at hstep
  · next zone done hreleasing =>
      obtain ⟨rfl, -⟩ := Prod.mk.inj (Option.some.inj hstep)
      exact ⟨zone, done, _, hreleasing, rfl⟩
  · cases hstep

/-! ### Steps that change neither where the player is nor where it is routed -/

structure Alike (source : UInt32) (s s' : HandoffMesh) : Prop where
  live : ∀ zone, (s'.zones zone).live = (s.zones zone).live
  crossing : ∀ zone, (s'.zones zone).crossing = (s.zones zone).crossing
  route : s'.routes.zoneOf source = s.routes.zoneOf source
  connected : s'.connected = s.connected
  releasing : s'.releasing = s.releasing

theorem Alike.trans {s'' : HandoffMesh} (h : Alike source s s') (h' : Alike source s' s'') :
    Alike source s s'' :=
  ⟨fun zone => (h'.live zone).trans (h.live zone),
    fun zone => (h'.crossing zone).trans (h.crossing zone), h'.route.trans h.route,
    h'.connected.trans h.connected, h'.releasing.trans h.releasing⟩

theorem Alike.setZone {z : ZoneMesh} (hlive : z.live = (s.zones zone).live)
    (hcrossing : z.crossing = (s.zones zone).crossing) : Alike source s (s.setZone zone z) := by
  refine ⟨?_, crossing_setZone hcrossing, rfl, rfl, rfl⟩
  intro zone'
  rw [zones_setZone]
  split
  · next h => rw [h, hlive]
  · rfl

theorem Alike.strays (h : Alike source s s') (strays : List Request) :
    Alike source s { s' with strays := strays } :=
  ⟨h.live, h.crossing, h.route, h.connected, h.releasing⟩

theorem Alike.refl (source : UInt32) (s : HandoffMesh) : Alike source s s :=
  ⟨fun _ => rfl, fun _ => rfl, rfl, rfl, rfl⟩

/-- The preparation of the player somewhere leaves everything else alone. -/
theorem prepareForPlayer_alike (zone : ZoneId) (now : Nat) (s : HandoffMesh) :
    Alike source s (s.setZone zone ((s.zones zone).prepareForPlayer now)) :=
  .setZone rfl rfl

/-- The events of a preparation. -/
def prepares : HandoffEvent → Bool
  | .approach _ _ | .turnAround _ _ | .prune _ _ | .expireGhosts _ _ _ | .resolve _ _ _
  | .servePrepare _ _ | .relayReturns _ _ | .prepareReturns _ _ _ => true
  | _ => false

/-- A preparation moves nothing. -/
theorem step_alike {event : HandoffEvent} (hstep : step source event s = some (s', ()))
    (hprepares : prepares event = true) : Alike source s s' := by
  cases event with
  | approach zone now =>
      obtain ⟨z, hz, heq⟩ := Option.map_eq_some_iff.mp hstep
      obtain ⟨rfl, -⟩ := Prod.mk.inj heq
      obtain ⟨hlive, hcrossing, -⟩ := approach_spec hz
      exact .setZone hlive hcrossing
  | turnAround zone now =>
      obtain ⟨z, hz, heq⟩ := Option.map_eq_some_iff.mp hstep
      obtain ⟨rfl, -⟩ := Prod.mk.inj heq
      obtain ⟨hlive, hcrossing, -⟩ := turnAround_spec hz
      exact .setZone hlive hcrossing
  | prune zone now =>
      obtain ⟨rfl, -⟩ := Prod.mk.inj (Option.some.inj hstep)
      exact .setZone rfl rfl
  | expireGhosts zone now maxAge =>
      obtain ⟨rfl, -⟩ := Prod.mk.inj (Option.some.inj hstep)
      exact .setZone rfl rfl
  | resolve zone covering reachable =>
      simp only [step] at hstep
      split at hstep
      · split at hstep
        · obtain ⟨rfl, -⟩ := Prod.mk.inj (Option.some.inj hstep)
          exact .setZone rfl rfl
        · obtain ⟨rfl, -⟩ := Prod.mk.inj (Option.some.inj hstep)
          exact .setZone rfl rfl
      · cases hstep
  | servePrepare zone now =>
      simp only [step] at hstep
      split at hstep
      · next target _ =>
          obtain ⟨rfl, -⟩ := Prod.mk.inj (Option.some.inj hstep)
          exact (prepareForPlayer_alike target now s).trans (.setZone rfl rfl)
      · cases hstep
  | relayReturns zone heard =>
      simp only [step] at hstep
      split at hstep
      · obtain ⟨rfl, -⟩ := Prod.mk.inj (Option.some.inj hstep)
        refine Alike.strays (.setZone ?_ ?_) _
        · rfl
        · rfl
      · cases hstep
  | prepareReturns zone now heard =>
      obtain ⟨target, strays, -, rfl⟩ := prepareReturns_cases hstep
      refine Alike.strays (.setZone ?_ ?_) _
      · rfl
      · rfl
  | crossed zone => cases hprepares
  | serve zone registered => cases hprepares
  | callReturns zone now heard => cases hprepares
  | serveStray i now registered covering reachable => cases hprepares
  | disconnect reachable => cases hprepares
  | serveRelease => cases hprepares
  | releaseReturns => cases hprepares

/-! ### Every zone aims at others -/

theorem aims_setZone {z : ZoneMesh} (h : ∀ zone, Aims zone (s.zones zone)) (hz : Aims zone z) :
    ∀ zone', Aims zone' ((s.setZone zone z).zones zone') := by
  intro zone'
  rw [zones_setZone]
  split
  · next heq =>
      rw [heq]
      exact hz
  · exact h zone'

theorem resolveTarget_ne {fromZone target : ZoneId} {covering : Option ZoneId} {reachable : Bool}
    (h : resolveTarget fromZone covering reachable = some target) : target ≠ fromZone := by
  have hne := (Option.filter_eq_some_iff.mp (Option.filter_eq_some_iff.mp h).1).2
  simpa using hne

theorem aims_carryOut (h : ∀ zone, Aims zone (s.zones zone)) (registered : Bool) (zone : ZoneId)
    (at_ : Crossing) : ∀ zone', Aims zone' ((s.carryOut source registered zone at_).1.zones zone') := by
  cases at_ with
  | confirming target =>
      unfold carryOut confirmHandoff
      simp only []
      split <;> exact h
  | activating target =>
      exact aims_setZone h ((activatePlayer_spec (s.zones target)).2.2.2 target (h target))
  | rollingBack =>
      unfold carryOut confirmHandoff
      simp only []
      split <;> exact h

theorem aims_carryOutStray (h : ∀ zone, Aims zone (s.zones zone)) (now : Nat)
    (registered : Bool) (covering : Option ZoneId) (reachable : Bool) (request : Request) :
    ∀ zone', Aims zone'
      ((s.carryOutStray source now registered covering reachable request).zones zone') := by
  cases request with
  | prepareHandoff fromZone =>
      unfold carryOutStray
      simp only []
      split <;> exact h
  | prepareForPlayer zone =>
      exact aims_setZone h ⟨(h zone).ready, (h zone).relayed, (h zone).answered⟩
  | confirmHandoff fromZone toZone =>
      unfold carryOutStray confirmHandoff
      simp only []
      split <;> exact h
  | activatePlayer zone =>
      exact aims_setZone h ((activatePlayer_spec (s.zones zone)).2.2.2 zone (h zone))
  | releasePlayer zone => exact aims_setZone h (release_aims zone (h zone))

theorem aims_step (h : ∀ zone, Aims zone (s.zones zone)) {event : HandoffEvent}
    (hstep : step source event s = some (s', ())) : ∀ zone, Aims zone (s'.zones zone) := by
  cases event with
  | approach zone now =>
      obtain ⟨z, hz, heq⟩ := Option.map_eq_some_iff.mp hstep
      obtain ⟨rfl, -⟩ := Prod.mk.inj heq
      exact aims_setZone h ((approach_spec hz).2.2 zone)
  | turnAround zone now =>
      obtain ⟨z, hz, heq⟩ := Option.map_eq_some_iff.mp hstep
      obtain ⟨rfl, -⟩ := Prod.mk.inj heq
      exact aims_setZone h ((turnAround_spec hz).2.2 zone (h zone))
  | crossed zone =>
      obtain ⟨z, hz, heq⟩ := Option.map_eq_some_iff.mp hstep
      obtain ⟨rfl, -⟩ := Prod.mk.inj heq
      obtain ⟨-, -, target, -, -, -, haims⟩ := crossed_spec hz
      exact aims_setZone h (haims zone (h zone))
  | prune zone now =>
      obtain ⟨rfl, -⟩ := Prod.mk.inj (Option.some.inj hstep)
      exact aims_setZone h (prune_aims (h zone))
  | expireGhosts zone now maxAge =>
      obtain ⟨rfl, -⟩ := Prod.mk.inj (Option.some.inj hstep)
      exact aims_setZone h ⟨(h zone).ready, (h zone).relayed, (h zone).answered⟩
  | resolve zone covering reachable =>
      simp only [step] at hstep
      split at hstep
      · split at hstep
        · obtain ⟨rfl, -⟩ := Prod.mk.inj (Option.some.inj hstep)
          exact aims_setZone h ⟨(h zone).ready, nofun, nofun⟩
        · next target htarget =>
            obtain ⟨rfl, -⟩ := Prod.mk.inj (Option.some.inj hstep)
            refine aims_setZone h ⟨(h zone).ready, ?_, nofun⟩
            intro t done ht
            obtain ⟨rfl, -⟩ := Preparing.relayed.inj (Option.some.inj ht)
            exact resolveTarget_ne htarget
      · cases hstep
  | servePrepare zone now =>
      simp only [step] at hstep
      split at hstep
      · next target hrelayed =>
          obtain ⟨rfl, -⟩ := Prod.mk.inj (Option.some.inj hstep)
          have hprepared : ∀ zone', Aims zone'
              ((s.setZone target ((s.zones target).prepareForPlayer now)).zones zone') :=
            aims_setZone h ⟨(h target).ready, (h target).relayed, (h target).answered⟩
          refine aims_setZone hprepared ⟨(hprepared zone).ready, ?_, nofun⟩
          intro t done ht
          obtain ⟨rfl, -⟩ := Preparing.relayed.inj (Option.some.inj ht)
          exact (h zone).relayed _ _ hrelayed
      · cases hstep
  | relayReturns zone heard =>
      simp only [step] at hstep
      split at hstep
      · next target done hrelayed =>
          obtain ⟨rfl, -⟩ := Prod.mk.inj (Option.some.inj hstep)
          refine aims_setZone h ⟨(h zone).ready, nofun, ?_⟩
          intro t ht
          have hanswer := Preparing.answered.inj (Option.some.inj ht)
          split at hanswer
          · rw [← Option.some.inj hanswer]
            exact (h zone).relayed _ _ hrelayed
          · cases hanswer
      · cases hstep
  | prepareReturns zone now heard =>
      obtain ⟨target, strays, hanswered, rfl⟩ := prepareReturns_cases hstep
      exact aims_setZone h (prepareReturns_aims fun t ht => (h zone).answered t (hanswered t ht))
  | serve zone registered =>
      obtain ⟨at_, -, rfl⟩ := serve_cases hstep
      have hserved : ∀ zone', Aims zone'
          ((s.carryOut source registered zone at_).1.zones zone') :=
        aims_carryOut h registered zone at_
      exact aims_setZone hserved
        ⟨(hserved zone).ready, (hserved zone).relayed, (hserved zone).answered⟩
  | callReturns zone now heard =>
      obtain ⟨at_, carried, strays, -, rfl⟩ := callReturns_cases hstep
      exact aims_setZone h (callReturns_aims (h zone) _ _)
  | serveStray i now registered covering reachable =>
      obtain ⟨request, -, heq⟩ := Option.map_eq_some_iff.mp hstep
      obtain ⟨rfl, -⟩ := Prod.mk.inj heq
      exact aims_carryOutStray (s := { s with strays := s.strays.eraseIdx i }) h now registered
        covering reachable request
  | disconnect reachable =>
      rw [disconnect_zones hstep]
      exact h
  | serveRelease =>
      obtain ⟨zone, -, rfl⟩ := serveRelease_cases hstep
      exact aims_setZone h (release_aims zone (h zone))
  | releaseReturns =>
      obtain ⟨zone, done, strays, -, rfl⟩ := releaseReturns_cases hstep
      exact h

theorem start_aims (source : UInt32) (home : ZoneId) (cooldown : Nat) (zone : ZoneId) :
    Aims zone ((start source home cooldown).zones zone) :=
  ⟨nofun, nofun, nofun⟩

/-! ### Where nothing was begun -/

theorem crossing_carryOut (registered : Bool) (zone : ZoneId) (at_ : Crossing) (zone' : ZoneId) :
    ((s.carryOut source registered zone at_).1.zones zone').crossing
      = (s.zones zone').crossing := by
  cases at_ with
  | confirming target =>
      unfold carryOut confirmHandoff
      simp only []
      split <;> rfl
  | activating target => exact crossing_setZone (activatePlayer_spec (s.zones target)).1 zone'
  | rollingBack =>
      unfold carryOut confirmHandoff
      simp only []
      split <;> rfl

theorem crossing_carryOutStray (now : Nat) (registered : Bool) (covering : Option ZoneId)
    (reachable : Bool) (request : Request) (zone' : ZoneId) :
    ((s.carryOutStray source now registered covering reachable request).zones zone').crossing
      = (s.zones zone').crossing := by
  cases request with
  | prepareHandoff fromZone =>
      unfold carryOutStray
      simp only []
      split <;> rfl
  | prepareForPlayer zone =>
      exact crossing_setZone (z := (s.zones zone).prepareForPlayer now) rfl zone'
  | confirmHandoff fromZone toZone =>
      unfold carryOutStray confirmHandoff
      simp only []
      split <;> rfl
  | activatePlayer zone => exact crossing_setZone (activatePlayer_spec (s.zones zone)).1 zone'
  | releasePlayer zone => exact crossing_setZone (z := (s.zones zone).releasePlayer) rfl zone'

/-- Only `crossed` begins a crossing. -/
theorem idle_step (hidle : (s.zones zone).crossing = none) {event : HandoffEvent}
    (hstep : HandoffMesh.step source event s = some (s', ())) (hne : event ≠ .crossed zone) :
    (s'.zones zone).crossing = none := by
  by_cases hprepares : prepares event = true
  · rw [(step_alike hstep hprepares).crossing]
    exact hidle
  cases event with
  | crossed other =>
      obtain ⟨z, hz, heq⟩ := Option.map_eq_some_iff.mp hstep
      obtain ⟨rfl, -⟩ := Prod.mk.inj heq
      rw [zones_setZone, if_neg fun h => hne (by rw [h])]
      exact hidle
  | serve other registered =>
      obtain ⟨at_, hopen, rfl⟩ := serve_cases hstep
      have hother : zone ≠ other := by
        rintro rfl
        rw [hidle] at hopen
        cases hopen
      rw [zones_setZone, if_neg hother, crossing_carryOut]
      exact hidle
  | callReturns other now heard =>
      obtain ⟨at_, carried, strays, hcrossing, rfl⟩ := callReturns_cases hstep
      have hother : zone ≠ other := by
        rintro rfl
        rw [hidle] at hcrossing
        cases hcrossing
      show ((s.setZone other _).zones zone).crossing = none
      rw [zones_setZone, if_neg hother]
      exact hidle
  | serveStray i now registered covering reachable =>
      obtain ⟨request, -, heq⟩ := Option.map_eq_some_iff.mp hstep
      obtain ⟨rfl, -⟩ := Prod.mk.inj heq
      rw [crossing_carryOutStray]
      exact hidle
  | disconnect reachable =>
      rw [disconnect_zones hstep]
      exact hidle
  | serveRelease =>
      obtain ⟨other, -, rfl⟩ := serveRelease_cases hstep
      exact (crossing_setZone (z := ZoneMesh.releasePlayer _) rfl zone).trans hidle
  | releaseReturns =>
      obtain ⟨other, done, strays, -, rfl⟩ := releaseReturns_cases hstep
      exact hidle
  | _ => exact absurd rfl hprepares

theorem run_idle {cooldown : Nat} {past : List Done}
    (run : Run (HandoffMesh.step source) (start source home cooldown) past s)
    (hnever : Along (fun _ e => e.op ≠ .crossed zone) past) : (s.zones zone).crossing = none :=
  run.invariant (I := fun _ s => (s.zones zone).crossing = none) rfl
    (fun _ hidle hstep hne => idle_step hidle hstep hne) hnever

end HandoffMesh

end Baston.Gateway
