/-
Where a player is live and where the gateway routes it, through any number of handoffs.

At every moment one zone is the player's home: the one that holds the player and may hand it on.
The home changes when the target carries out the activation, not when the old home hears of it;
until then the old home still holds the player and has only its release left to do.
-/
import Baston.Proofs.HandoffSteps

namespace Baston.Gateway

open Assoc Trace Baston.Zone

namespace HandoffMesh

/-! ### What is to hold -/

/-- `complete_handoff` is under way nowhere. -/
def Returned (s : HandoffMesh) : Prop := ∀ zone, (s.zones zone).crossing = none

/-- The player is live in the zone it is routed to and in no other; and it is live as long as
it is connected. -/
structure Agreed (source : UInt32) (s : HandoffMesh) : Prop where
  routed : ∀ zone, (s.zones zone).live = true → s.routes.zoneOf source = some zone
  somewhere : s.connected = true → ∃ zone, (s.zones zone).live = true

/-- Nothing is lost on the way: the answer to a confirm or an activation that was carried out is
heard, one that is given up is not carried out to any effect, and a rollback succeeds.  Nor does
the client disconnect during a handoff, or a zone wake the player that has yet to release it. -/
def Kept (source : UInt32) (e : Done) : Prop :=
  match e.op with
  | .crossed _ => e.pre.connected = true
  | .serve zone _ =>
    match (e.pre.zones zone).crossing with
    | some (.activating target, none) => (e.pre.zones target).crossing = none
    | _ => True
  | .callReturns zone _ heard =>
    match (e.pre.zones zone).crossing with
    | some (.rollingBack, answer) => answer = some true
    | some (_, answer) => answer = some true → heard = true
    | none => True
  | .serveStray i _ registered _ _ =>
    match e.pre.strays[i]? with
    | some (.confirmHandoff _ toZone) =>
      registered = true → e.pre.routes.zoneOf source = some toZone
    | some (.activatePlayer zone) =>
      ∀ createdAt, (e.pre.zones zone).ghost ≠ some (.pending createdAt)
    | some (.releasePlayer zone) => (e.pre.zones zone).live = false
    | _ => True
  | .disconnect reachable => reachable = true ∧ Returned e.pre
  | .releaseReturns =>
    ∀ zone done, e.pre.releasing = some (zone, done) →
      done = true ∨ (e.pre.zones zone).live = false
  | _ => True

/-! ### The invariant -/

/-- A zone that is not the player's home: it does not hold the player, or has only its release
left to do. -/
def Away (z : ZoneMesh) : Prop :=
  (z.live = false ∧ z.crossing = none) ∨ ∃ target, z.crossing = some (.activating target, some true)

/-- What holds about the home at each point of `complete_handoff`. -/
def AtHome (source : UInt32) (home : ZoneId) (s : HandoffMesh) : Prop :=
  match (s.zones home).crossing with
  | some (.confirming target, answer) =>
    (s.zones home).live = true ∧ target ≠ home ∧ s.connected = true
      ∧ s.routes.zoneOf source = some (if answer = some true then target else home)
  | some (.activating target, answer) =>
    (s.zones home).live = true ∧ target ≠ home ∧ s.connected = true
      ∧ s.routes.zoneOf source = some target ∧ answer ≠ some true
  | some (.rollingBack, answer) =>
    (s.zones home).live = true ∧ s.connected = true
      ∧ (answer = some true → s.routes.zoneOf source = some home)
  | none =>
    (s.connected = true → (s.zones home).live = true ∧ s.routes.zoneOf source = some home)
      ∧ (s.connected = false → (s.zones home).live = true →
        s.routes.zoneOf source = some home ∧ s.releasing = some (home, false))

structure HomeIs (source : UInt32) (home : ZoneId) (s : HandoffMesh) : Prop where
  here : AtHome source home s
  away : ∀ zone, zone ≠ home → Away (s.zones zone)
  staying : s.connected = true → s.releasing = none
  leaving : s.connected = false → Returned s

variable {source : UInt32} {home zone : ZoneId} {s s' : HandoffMesh}

theorem HomeIs.alike (h : HomeIs source home s) (halike : Alike source s s') :
    HomeIs source home s' := by
  refine ⟨?_, ?_, ?_, ?_⟩
  · unfold AtHome
    rw [halike.crossing, halike.live, halike.connected, halike.route, halike.releasing]
    exact h.here
  · intro zone hne
    unfold Away
    rw [halike.live, halike.crossing]
    exact h.away zone hne
  · rw [halike.connected, halike.releasing]
    exact h.staying
  · intro hgone zone
    rw [halike.crossing]
    exact h.leaving (halike.connected ▸ hgone) zone

/-- A request that was given up has no effect, if the step is kept. -/
theorem carryOutStray_alike {request : Request} {now : Nat} {registered reachable : Bool}
    {covering : Option ZoneId}
    (h : match request with
      | .confirmHandoff _ toZone => registered = true → s.routes.zoneOf source = some toZone
      | .activatePlayer zone => ∀ createdAt, (s.zones zone).ghost ≠ some (.pending createdAt)
      | .releasePlayer zone => (s.zones zone).live = false
      | _ => True) :
    Alike source s (s.carryOutStray source now registered covering reachable request) := by
  cases request with
  | prepareHandoff fromZone =>
      unfold carryOutStray
      simp only []
      split
      · exact ⟨fun _ => rfl, fun _ => rfl, rfl, rfl, rfl⟩
      · exact ⟨fun _ => rfl, fun _ => rfl, rfl, rfl, rfl⟩
  | prepareForPlayer zone => exact prepareForPlayer_alike zone now s
  | confirmHandoff fromZone toZone =>
      unfold carryOutStray confirmHandoff
      simp only []
      split
      · next hregistered =>
          refine ⟨fun _ => rfl, fun _ => rfl, ?_, rfl, rfl⟩
          rw [h hregistered]
          exact AList.lookup_insert _
      · exact ⟨fun _ => rfl, fun _ => rfl, rfl, rfl, rfl⟩
  | activatePlayer zone =>
      obtain ⟨hcrossing, -, hlive, -⟩ := activatePlayer_spec (s.zones zone)
      exact .setZone (hlive (activatePlayer_refused h)) hcrossing
  | releasePlayer zone => exact .setZone h.symm rfl

/-! ### The steps of a crossing -/

theorem Away.ne_live {z : ZoneMesh} (h : Away z) (hcrossing : z.crossing = none) :
    z.live = false := by
  rcases h with ⟨hlive, -⟩ | ⟨target, hdone⟩
  · exact hlive
  · rw [hdone] at hcrossing
    cases hcrossing

/-- Only the home can begin to hand the player over. -/
theorem HomeIs.crossed (h : HomeIs source home s) (haims : ∀ zone, Aims zone (s.zones zone))
    {z : ZoneMesh} (hz : (s.zones zone).crossed = some z) (hconnected : s.connected = true) :
    HomeIs source home (s.setZone zone z) := by
  obtain ⟨hlive, hcrossing, target, hready, hlive', hcrossing', -⟩ := crossed_spec hz
  have hhome : zone = home := by
    by_contra hne
    have hnot := (h.away zone hne).ne_live hcrossing
    rw [hlive] at hnot
    cases hnot
  subst hhome
  have hhere := h.here
  unfold AtHome at hhere
  rw [hcrossing] at hhere
  refine ⟨?_, ?_, h.staying, ?_⟩
  · unfold AtHome
    rw [zones_setZone, if_pos rfl, hcrossing']
    exact ⟨hlive', (haims zone).ready target hready, hconnected, (hhere.1 hconnected).2⟩
  · intro zone' hne
    rw [zones_setZone, if_neg hne]
    exact h.away zone' hne
  · intro hgone
    exact nomatch hconnected.symm.trans hgone

/-- Only the home waits for a call that has yet to be carried out. -/
theorem HomeIs.eq_of_open (h : HomeIs source home s) {at_ : Crossing}
    (hopen : (s.zones zone).crossing = some (at_, none)) : zone = home := by
  by_contra hne
  rcases h.away zone hne with ⟨-, hnone⟩ | ⟨target, hdone⟩
  · rw [hopen] at hnone
    cases hnone
  · rw [hopen] at hdone
    cases hdone

theorem HomeIs.connected_of_crossing (h : HomeIs source home s) (zone : ZoneId)
    (hcrossing : (s.zones zone).crossing ≠ none) : s.connected = true := by
  by_contra hgone
  rw [Bool.not_eq_true] at hgone
  exact hcrossing (h.leaving hgone zone)

/-- A confirm or a rollback carried out at the gateway. -/
theorem HomeIs.commit (h : HomeIs source home s) {at_ : Crossing} {toZone : ZoneId}
    {registered : Bool} (hopen : (s.zones home).crossing = some (at_, none))
    (hat : at_ = .confirming toZone ∨ (at_ = .rollingBack ∧ toZone = home)) :
    HomeIs source home
      ((s.confirmHandoff source toZone registered).1.setZone home
        { (s.confirmHandoff source toZone registered).1.zones home with
          crossing := some (at_, some (s.confirmHandoff source toZone registered).2) }) := by
  have hconnected := h.connected_of_crossing home (by rw [hopen]; nofun)
  have hhere := h.here
  unfold AtHome at hhere
  rw [hopen] at hhere
  have hzones : (s.confirmHandoff source toZone registered).1.zones = s.zones := by
    unfold confirmHandoff
    split <;> rfl
  have hstays : (s.confirmHandoff source toZone registered).1.connected = s.connected
      ∧ (s.confirmHandoff source toZone registered).1.releasing = s.releasing := by
    unfold confirmHandoff
    split <;> exact ⟨rfl, rfl⟩
  have hroute : (s.confirmHandoff source toZone registered).1.routes.zoneOf source
      = if (s.confirmHandoff source toZone registered).2 then some toZone
        else s.routes.zoneOf source := by
    unfold confirmHandoff
    split
    · exact AList.lookup_insert _
    · rfl
  generalize (s.confirmHandoff source toZone registered).2 = ok at hroute ⊢
  generalize (s.confirmHandoff source toZone registered).1 = t at hzones hstays hroute ⊢
  refine ⟨?_, ?_, ?_, ?_⟩
  · unfold AtHome
    rw [zones_setZone, if_pos rfl, hzones]
    rcases hat with rfl | ⟨rfl, rfl⟩
    · obtain ⟨hlive, hne, -, hbefore⟩ := hhere
      refine ⟨hlive, hne, hstays.1.trans hconnected, ?_⟩
      refine hroute.trans ?_
      cases ok with
      | true => rfl
      | false => exact hbefore
    · obtain ⟨hlive, -, -⟩ := hhere
      refine ⟨hlive, hstays.1.trans hconnected, ?_⟩
      intro hok
      obtain rfl := Option.some.inj hok
      exact hroute
  · intro zone hne
    rw [zones_setZone, if_neg hne, hzones]
    exact h.away zone hne
  · intro _
    exact hstays.2.trans (h.staying hconnected)
  · intro hgone
    exact nomatch (hstays.1.trans hconnected).symm.trans hgone

/-- **The player moves when the target wakes it**: from then on the target is its home, and the
old one has its release left to do. -/
theorem HomeIs.activate (h : HomeIs source home s) {target : ZoneId}
    (hopen : (s.zones home).crossing = some (.activating target, none))
    (hfree : (s.zones target).crossing = none) :
    ∃ home', HomeIs source home'
      ((s.setZone target (s.zones target).activatePlayer.1).setZone home
        { (s.setZone target (s.zones target).activatePlayer.1).zones home with
          crossing := some (.activating target, some (s.zones target).activatePlayer.2) }) := by
  have hconnected := h.connected_of_crossing home (by rw [hopen]; nofun)
  have hhere := h.here
  unfold AtHome at hhere
  rw [hopen] at hhere
  obtain ⟨hlive, hne, -, hroute, -⟩ := hhere
  have hasleep := (h.away target hne).ne_live hfree
  obtain ⟨hcrossing, hwoken, hrefused, -⟩ := activatePlayer_spec (s.zones target)
  have hstays : ∀ t : HandoffMesh, t.connected = s.connected → t.connected = false → Returned t := by
    intro t ht hgone
    exact nomatch (ht.trans hconnected).symm.trans hgone
  rw [zones_setZone, if_neg hne.symm]
  cases hok : (s.zones target).activatePlayer.2 with
  | true =>
      refine ⟨target, ?_, ?_, h.staying, hstays _ rfl⟩
      · unfold AtHome
        rw [zones_setZone, if_neg hne, zones_setZone, if_pos rfl, hcrossing, hfree]
        refine ⟨fun _ => ⟨hwoken hok, hroute⟩, ?_⟩
        intro hgone
        exact nomatch hconnected.symm.trans hgone
      · intro zone hzone
        rw [zones_setZone]
        by_cases hhome : zone = home
        · rw [if_pos hhome]
          exact .inr ⟨target, rfl⟩
        · rw [if_neg hhome, zones_setZone, if_neg hzone]
          exact h.away zone hhome
  | false =>
      refine ⟨home, ?_, ?_, h.staying, hstays _ rfl⟩
      · unfold AtHome
        rw [zones_setZone, if_pos rfl]
        exact ⟨hlive, hne, hconnected, hroute, nofun⟩
      · intro zone hzone
        rw [zones_setZone, if_neg hzone, zones_setZone]
        split
        · exact .inl ⟨(hrefused hok).trans hasleep, hcrossing.trans hfree⟩
        · exact h.away zone hzone

/-- A call of `complete_handoff` returns, and what was carried out is known. -/
theorem HomeIs.callReturns (h : HomeIs source home s) {at_ : Crossing} {carried answer : Option Bool}
    (hcrossing : (s.zones zone).crossing = some (at_, carried))
    (hheard : at_ ≠ .rollingBack → (answer = some true ↔ carried = some true))
    (hrolled : at_ = .rollingBack → carried = some true) (now : Nat) :
    HomeIs source home (s.setZone zone ((s.zones zone).callReturns now at_ answer)) := by
  have hconnected := h.connected_of_crossing zone (by rw [hcrossing]; nofun)
  obtain ⟨hafter, hlive⟩ := callReturns_spec (s.zones zone) now at_ answer
  by_cases hzone : zone = home
  · subst hzone
    have hhere := h.here
    unfold AtHome at hhere
    rw [hcrossing] at hhere
    refine ⟨?_, ?_, h.staying, fun hgone => nomatch hconnected.symm.trans hgone⟩
    · unfold AtHome
      rw [zones_setZone, if_pos rfl, hafter, hlive]
      cases at_ with
      | confirming target =>
          obtain ⟨hhere, hne, -, hroute⟩ := hhere
          by_cases hok : answer = some true
          · rw [if_pos ((hheard nofun).mp hok)] at hroute
            rw [show afterCall answer (.confirming target) = some (.activating target, none) from
              if_pos hok]
            exact ⟨hhere, hne, hconnected, hroute, nofun⟩
          · rw [if_neg fun hcarried => hok ((hheard nofun).mpr hcarried)] at hroute
            rw [show afterCall answer (.confirming target) = none from if_neg hok]
            exact ⟨fun _ => ⟨hhere, hroute⟩, fun hgone => nomatch hconnected.symm.trans hgone⟩
      | activating target =>
          obtain ⟨hhere, hne, -, hroute, hnot⟩ := hhere
          have hok : ¬ answer = some true := fun hok => hnot ((hheard nofun).mp hok)
          rw [show afterCall answer (.activating target) = some (.rollingBack, none) from
              if_neg hok,
            show heldAfter answer (s.zones zone).live (.activating target) = (s.zones zone).live from
              if_neg hok]
          exact ⟨hhere, hconnected, nofun⟩
      | rollingBack =>
          obtain ⟨hhere, -, hroute⟩ := hhere
          exact ⟨fun _ => ⟨hhere, hroute (hrolled rfl)⟩,
            fun hgone => nomatch hconnected.symm.trans hgone⟩
    · intro zone' hne
      rw [zones_setZone, if_neg hne]
      exact h.away zone' hne
  · refine ⟨?_, ?_, h.staying, fun hgone => nomatch hconnected.symm.trans hgone⟩
    · unfold AtHome
      rw [zones_setZone, if_neg (Ne.symm hzone)]
      exact h.here
    · intro zone' hne
      rw [zones_setZone]
      split
      · -- the old home hears that its target is awake, and lets go
        rcases h.away zone hzone with ⟨-, hnone⟩ | ⟨target, hdone⟩
        · rw [hcrossing] at hnone
          cases hnone
        · obtain ⟨rfl, rfl⟩ := Prod.mk.inj (Option.some.inj (hcrossing.symm.trans hdone))
          have hok : answer = some true := (hheard nofun).mpr rfl
          refine .inl ⟨?_, ?_⟩
          · rw [hlive]
            exact if_pos hok
          · rw [hafter]
            exact if_pos hok
      · exact h.away zone' hne

/-- A confirm that was carried out and not heard of parts the player from its route. -/
theorem HomeIs.unheard (h : HomeIs source home s) {target : ZoneId} {now : Nat}
    (hcrossing : (s.zones zone).crossing = some (.confirming target, some true))
    (hstep : HandoffMesh.step source (.callReturns zone now false) s = some (s', ())) :
    (s'.zones zone).crossing = none ∧ ¬ Agreed source s' := by
  have hhome : zone = home := by
    by_contra hne
    rcases h.away zone hne with ⟨-, hnone⟩ | ⟨target', hdone⟩
    · rw [hcrossing] at hnone
      cases hnone
    · rw [hcrossing] at hdone
      cases hdone
  subst hhome
  have hhere := h.here
  unfold AtHome at hhere
  rw [hcrossing] at hhere
  obtain ⟨hlive, hne, -, hroute⟩ := hhere
  simp only [HandoffMesh.step, hcrossing] at hstep
  obtain ⟨rfl, -⟩ := Prod.mk.inj (Option.some.inj hstep)
  obtain ⟨hafter, hheld⟩ := callReturns_spec (s.zones zone) now (.confirming target) none
  refine ⟨?_, ?_⟩
  · rw [zones_setZone, if_pos rfl]
    exact hafter
  · intro hagreed
    have hrouted := hagreed.routed zone (by
      rw [zones_setZone, if_pos rfl]
      exact hheld.trans hlive)
    exact hne (Option.some.inj (hroute.symm.trans hrouted))

/-! ### The client leaves -/

theorem HomeIs.disconnect (h : HomeIs source home s) (hconnected : s.connected = true)
    (hreturned : Returned s) :
    s.routes.zoneOf source = some home
      ∧ HomeIs source home { s with connected := false, releasing := some (home, false) } := by
  have hhere := h.here
  unfold AtHome at hhere
  rw [hreturned home] at hhere
  refine ⟨(hhere.1 hconnected).2, ?_, h.away, nofun, fun _ => hreturned⟩
  have hnone : (({ s with connected := false, releasing := some (home, false) } :
      HandoffMesh).zones home).crossing = none := hreturned home
  unfold AtHome
  rw [hnone]
  exact ⟨nofun, fun _ _ => ⟨(hhere.1 hconnected).2, rfl⟩⟩

/-- What holds once the client is gone. -/
theorem HomeIs.of_gone (h : HomeIs source home s) (hgone : s.connected = false) :
    Returned s ∧ ∀ zone, (s.zones zone).live = true →
      zone = home ∧ s.releasing = some (home, false) := by
  have hreturned := h.leaving hgone
  have hhere := h.here
  unfold AtHome at hhere
  rw [hreturned home] at hhere
  refine ⟨hreturned, ?_⟩
  intro zone hlive
  by_cases hzone : zone = home
  · subst hzone
    exact ⟨rfl, (hhere.2 hgone hlive).2⟩
  · rw [(h.away zone hzone).ne_live (hreturned zone)] at hlive
    cases hlive

/-- A mesh that holds the player nowhere, after the client is gone. -/
theorem homeIs_of_dead (hgone : s.connected = false) (hreturned : Returned s)
    (hdead : ∀ zone, (s.zones zone).live = false) : HomeIs source home s := by
  refine ⟨?_, ?_, ?_, fun _ => hreturned⟩
  · unfold AtHome
    rw [hreturned home]
    refine ⟨fun hconnected => (nomatch hconnected.symm.trans hgone), fun _ hlive => ?_⟩
    rw [hdead home] at hlive
    cases hlive
  · exact fun zone _ => .inl ⟨hdead zone, hreturned zone⟩
  · exact fun hconnected => nomatch hconnected.symm.trans hgone

theorem HomeIs.released (h : HomeIs source home s) (hreleasing : s.releasing = some (zone, false)) :
    HomeIs source home
      { s.setZone zone (s.zones zone).releasePlayer with releasing := some (zone, true) } := by
  have hgone : s.connected = false := by
    by_contra hconnected
    rw [Bool.not_eq_false] at hconnected
    rw [h.staying hconnected] at hreleasing
    cases hreleasing
  obtain ⟨hreturned, hlast⟩ := h.of_gone hgone
  refine homeIs_of_dead hgone ?_ ?_
  · intro zone'
    show ((s.setZone zone _).zones zone').crossing = none
    rw [zones_setZone]
    split
    · exact hreturned zone
    · exact hreturned zone'
  · intro zone'
    show ((s.setZone zone _).zones zone').live = false
    rw [zones_setZone]
    split
    · rfl
    · next hne =>
        rw [← Bool.not_eq_true]
        intro hlive
        obtain ⟨rfl, hhome⟩ := hlast zone' hlive
        rw [hreleasing] at hhome
        exact hne (Prod.mk.inj (Option.some.inj hhome)).1.symm

/-- The gateway forgets the route once nobody holds the player. -/
theorem HomeIs.forgotten (h : HomeIs source home s) {done : Bool}
    (hreleasing : s.releasing = some (zone, done))
    (hreleased : done = true ∨ (s.zones zone).live = false) (strays : List Request) :
    HomeIs source home { s with
      strays := strays
      releasing := none
      routes := (s.routes.remove source).1 } := by
  have hgone : s.connected = false := by
    by_contra hconnected
    rw [Bool.not_eq_false] at hconnected
    rw [h.staying hconnected] at hreleasing
    cases hreleasing
  obtain ⟨hreturned, hlast⟩ := h.of_gone hgone
  refine homeIs_of_dead hgone hreturned ?_
  intro zone'
  show (s.zones zone').live = false
  rw [← Bool.not_eq_true]
  intro hlive
  obtain ⟨rfl, hhome⟩ := hlast zone' hlive
  obtain ⟨rfl, rfl⟩ := Prod.mk.inj (Option.some.inj (hreleasing.symm.trans hhome))
  rcases hreleased with hdone | hdead
  · cases hdone
  · rw [hlive] at hdead
    cases hdead

/-! ### Every step, and every run -/

/-- **One kept step keeps the player at home somewhere.** -/
theorem HomeIs.step (h : HomeIs source home s) (haims : ∀ zone, Aims zone (s.zones zone))
    {event : HandoffEvent} (hstep : HandoffMesh.step source event s = some (s', ()))
    (hkept : Kept source ⟨s, event, (), s'⟩) : ∃ home', HomeIs source home' s' := by
  by_cases hprepares : prepares event = true
  · exact ⟨home, h.alike (step_alike hstep hprepares)⟩
  cases event with
  | crossed zone =>
      obtain ⟨z, hz, heq⟩ := Option.map_eq_some_iff.mp hstep
      obtain ⟨rfl, -⟩ := Prod.mk.inj heq
      exact ⟨home, h.crossed haims hz hkept⟩
  | serve zone registered =>
      obtain ⟨at_, hopen, rfl⟩ := serve_cases hstep
      obtain rfl := h.eq_of_open hopen
      unfold Kept at hkept
      simp only [hopen] at hkept
      cases at_ with
      | confirming target => exact ⟨zone, h.commit hopen (.inl rfl)⟩
      | activating target => exact h.activate hopen hkept
      | rollingBack => exact ⟨zone, h.commit hopen (.inr ⟨rfl, rfl⟩)⟩
  | callReturns zone now heard =>
      obtain ⟨at_, carried, strays, hcrossing, rfl⟩ := callReturns_cases hstep
      unfold Kept at hkept
      simp only [hcrossing] at hkept
      refine ⟨home, (h.callReturns hcrossing ?_ ?_ now).alike ((Alike.refl source _).strays _)⟩
      · intro hat
        have hheard : carried = some true → heard = true := by
          cases at_ with
          | confirming target => exact hkept
          | activating target => exact hkept
          | rollingBack => exact absurd rfl hat
        constructor
        · intro hanswer
          split at hanswer
          · exact hanswer
          · cases hanswer
        · intro hok
          rw [if_pos (hheard hok)]
          exact hok
      · rintro rfl
        exact hkept
  | serveStray i now registered covering reachable =>
      obtain ⟨request, hi, heq⟩ := Option.map_eq_some_iff.mp hstep
      obtain ⟨rfl, -⟩ := Prod.mk.inj heq
      unfold Kept at hkept
      simp only [hi] at hkept
      refine ⟨home, (h.alike ((Alike.refl source s).strays _)).alike (carryOutStray_alike ?_)⟩
      cases request <;> exact hkept
  | disconnect reachable =>
      simp only [HandoffMesh.step] at hstep
      obtain ⟨rfl, hreturned⟩ := hkept
      split at hstep
      · next hconnected =>
          obtain ⟨hroute, hhome⟩ := h.disconnect hconnected hreturned
          rw [hroute] at hstep
          obtain ⟨rfl, -⟩ := Prod.mk.inj (Option.some.inj hstep)
          exact ⟨home, hhome⟩
      · cases hstep
  | serveRelease =>
      obtain ⟨zone, hreleasing, rfl⟩ := serveRelease_cases hstep
      exact ⟨home, h.released hreleasing⟩
  | releaseReturns =>
      obtain ⟨zone, done, strays, hreleasing, rfl⟩ := releaseReturns_cases hstep
      exact ⟨home, h.forgotten hreleasing (hkept zone done hreleasing) _⟩
  | _ => exact absurd rfl hprepares

theorem start_homeIs (source : UInt32) (home : ZoneId) (cooldown : Nat) :
    HomeIs source home (start source home cooldown) := by
  refine ⟨⟨fun _ => ⟨?_, ?_⟩, nofun⟩, ?_, fun _ => rfl, nofun⟩
  · simp [start]
  · exact AList.lookup_insert _
  · intro zone hne
    exact .inl ⟨by simp [start, hne], rfl⟩

theorem run_homeIs {cooldown : Nat} {past : List Done}
    (run : Run (HandoffMesh.step source) (start source home cooldown) past s)
    (hkept : Along (fun _ e => Kept source e) past) :
    (∀ zone, Aims zone (s.zones zone)) ∧ ∃ home', HomeIs source home' s := by
  refine run.invariant
    (I := fun _ s => (∀ zone, Aims zone (s.zones zone)) ∧ ∃ home', HomeIs source home' s)
    ⟨start_aims source home cooldown, home, start_homeIs source home cooldown⟩ ?_ hkept
  rintro past s event ⟨⟩ s' - ⟨haims, home', hhome⟩ hstep hkept
  exact ⟨aims_step haims hstep, hhome.step haims hstep hkept⟩

/-- **Handoffs agree as long as nothing is lost**: in a run whose steps are all kept, whenever no
`complete_handoff` is under way, the player is live in no zone but the one it is routed to, and
in that one as long as it is connected. -/
theorem handoffs_agree {cooldown : Nat} {past : List Done}
    (run : Run (HandoffMesh.step source) (start source home cooldown) past s)
    (hkept : Along (fun _ e => Kept source e) past) (hreturned : Returned s) : Agreed source s := by
  obtain ⟨-, home', hhome⟩ := run_homeIs run hkept
  have hhere := hhome.here
  unfold AtHome at hhere
  rw [hreturned home'] at hhere
  refine ⟨?_, ?_⟩
  · intro zone hlive
    have hzone : zone = home' := by
      by_contra hne
      rw [(hhome.away zone hne).ne_live (hreturned zone)] at hlive
      cases hlive
    subst hzone
    cases hconnected : s.connected with
    | true => exact (hhere.1 hconnected).2
    | false => exact (hhere.2 hconnected hlive).1
  · intro hconnected
    exact ⟨home', (hhere.1 hconnected).1⟩

/-! ### Two zones -/

/-- Zone `a` prepares zone `b` for the player. -/
def preparation : List HandoffEvent :=
  [.approach "a" 0, .resolve "a" (some "b") true, .servePrepare "a" 0, .relayReturns "a" true,
    .prepareReturns "a" 0 true]

/-- Everything is answered. -/
def handedOver : List HandoffEvent :=
  preparation ++ [.crossed "a", .serve "a" true, .callReturns "a" 0 true, .serve "a" true,
    .callReturns "a" 0 true]

/-- The gateway moves the route, and zone `a` does not hear of it. -/
def confirmUnheard : List HandoffEvent :=
  preparation ++ [.crossed "a", .serve "a" true, .callReturns "a" 0 false]

/-- Zone `b` wakes the player, and zone `a` does not hear of it and takes the route back. -/
def activationUnheard : List HandoffEvent :=
  preparation ++ [.crossed "a", .serve "a" true, .callReturns "a" 0 true, .serve "a" true,
    .callReturns "a" 0 false, .serve "a" true, .callReturns "a" 0 true]

/-- The player arrives in zone `b`. -/
theorem handedOver_agrees :
    ∃ (past : List Done) (s : HandoffMesh), Run (step 1) (start 1 "a" 0) past s
      ∧ (s.zones "b").live = true ∧ Agreed 1 s := by
  have run := run_of_ops (step 1) (start 1 "a" 0) handedOver rfl
  refine ⟨_, _, run, rfl, handoffs_agree run ?_ ?_⟩
  · exact ⟨fun _ => rfl, rfl, fun _ => rfl, trivial, rfl, trivial, trivial, trivial, trivial,
      trivial, trivial⟩
  · intro zone
    by_cases hzone : zone = "a"
    · subst hzone
      rfl
    · exact run_idle run ⟨nofun, nofun, nofun, nofun, fun h => hzone (HandoffEvent.crossed.inj h).symm,
        nofun, nofun, nofun, nofun, nofun, trivial⟩

/-- **An unheard confirm leaves the player in one zone and its route at another.** -/
theorem confirmUnheard_disagrees :
    ¬ ∀ (source : UInt32) (home : ZoneId) (cooldown : Nat) (past : List Done) (s : HandoffMesh),
      Run (step source) (start source home cooldown) past s → Returned s → Agreed source s := by
  intro h
  have run := run_of_ops (step 1) (start 1 "a" 0) confirmUnheard rfl
  have hagreed := h 1 "a" 0 _ _ run ?_
  · have hrouted := hagreed.routed "a" rfl
    revert hrouted
    decide
  · intro zone
    by_cases hzone : zone = "a"
    · subst hzone
      rfl
    · exact run_idle run ⟨nofun, nofun, fun h => hzone (HandoffEvent.crossed.inj h).symm, nofun,
        nofun, nofun, nofun, nofun, trivial⟩

/-- An unheard activation leaves the player live in both, though the route is taken back. -/
example : (history (step 1) [] activationUnheard (start 1 "a" 0)).any (fun r =>
    (r.2.zones "a").live && (r.2.zones "b").live && (r.2.zones "a").crossing = none
      && r.2.routes.zoneOf 1 = some "a") = true := by
  decide

end HandoffMesh

end Baston.Gateway
