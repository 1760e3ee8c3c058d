/-
When draining a zone respects what the others can hold.

The loop asks the same question for every player, and nothing it does changes the answer: all of
them go to one zone.  So the whole burst has to fit into that zone, and the last of it must not
find a zone with fewer players.
-/
import Baston.Gateway.Rebalance

namespace Baston.Gateway

open Assoc Baston.Zone

namespace ConnectionRouter

variable {router : ConnectionRouter} {source : UInt32} {zone toZone zoneId : ZoneId}

/-- The entries of other zones, without one that is none of them. -/
theorem filter_kerase (l : List (Sigma fun _ : UInt32 => ZoneId)) (h : l.dlookup source = some zoneId)
    (hne : zoneId ≠ zone) :
    ((l.kerase source).filter fun e => e.2 = zone) = l.filter fun e => e.2 = zone := by
  induction l with
  | nil => rfl
  | cons e rest ih =>
      obtain ⟨source', zone'⟩ := e
      by_cases hs : source = source'
      · subst hs
        rw [List.dlookup_cons_eq] at h
        obtain rfl := Option.some.inj h
        have herase : List.kerase source (⟨source, zone'⟩ :: rest) = rest := List.kerase_cons_eq rfl
        rw [herase, List.filter_cons_of_neg (by simpa using hne)]
      · rw [List.dlookup_cons_ne _ _ hs] at h
        rw [List.kerase_cons_ne hs, List.filter_cons, List.filter_cons, ih h]

theorem lookup_commitHandoff (other : UInt32) :
    (router.commitHandoff source toZone).routingTable.lookup other
      = if other = source then some toZone else router.routingTable.lookup other :=
  Map.lookup_insert_of source other toZone router.routingTable

/-- A player that moves is counted where it goes, and no zone but its own counts it less. -/
theorem countInZone_commitHandoff (toZone : ZoneId)
    (h : router.routingTable.lookup source = some zoneId)
    (hne : zoneId ≠ zone) :
    (router.commitHandoff source toZone).countInZone zone
      = router.countInZone zone + if toZone = zone then 1 else 0 := by
  have hentries : (router.commitHandoff source toZone).routingTable.entries
      = ⟨source, toZone⟩ :: List.kerase source router.routingTable.entries := rfl
  unfold countInZone
  rw [hentries, List.filter_cons, filter_kerase _ h hne]
  by_cases hto : toZone = zone
  · simp [hto]
  · simp [hto]

/-- The players of a zone are routed to it, each once. -/
theorem playersInZone_spec (ord : IterOrder UInt32) (zone : ZoneId) (router : ConnectionRouter) :
    (router.playersInZone ord zone).Nodup ∧
      ∀ source ∈ router.playersInZone ord zone, router.routingTable.lookup source = some zone := by
  unfold playersInZone
  constructor
  · exact (Map.nodup_visit ord router.routingTable).sublist
      ((List.filter_sublist).map Prod.fst)
  · intro source hsource
    obtain ⟨e, he, rfl⟩ := List.mem_map.mp hsource
    obtain ⟨hvisit, hzone⟩ := List.mem_filter.mp he
    rw [← of_decide_eq_true hzone]
    exact Map.mem_visit.mp hvisit

end ConnectionRouter

/-! ### The burst -/

/-- The routing table after some reroutes. -/
def routedAfter (router : ConnectionRouter) (moved : List (UInt32 × ZoneId)) : ConnectionRouter :=
  moved.foldl (fun router m => router.commitHandoff m.1 m.2) router

/-- Every reroute of a zone's drain goes to another zone, one that has room then and holds no more
than any other zone with room. -/
def RespectsRoom (zones : ZoneRooms) (router : ConnectionRouter) (zoneId : ZoneId)
    (moved : List (UInt32 × ZoneId)) : Prop :=
  ∀ before m after, moved = before ++ m :: after →
    m.2 ≠ zoneId ∧
      ∃ room, zones.lookup m.2 = some room ∧
        (routedAfter router before).countInZone m.2 < room.maxPlayers.toNat ∧
        ∀ other room', other ≠ zoneId → zones.lookup other = some room' →
          (routedAfter router before).countInZone other < room'.maxPlayers.toNat →
          (routedAfter router before).countInZone m.2
            ≤ (routedAfter router before).countInZone other

variable {zones : ZoneRooms} {ord : IterOrder ZoneId} {zoneId fallback : ZoneId}

theorem findLeastLoaded_spec
    (h : zones.findLeastLoadedZoneExcluding ord (some zoneId) = some fallback) :
    fallback ≠ zoneId ∧ ∃ room, zones.lookup fallback = some room := by
  obtain ⟨⟨zone, room⟩, hmin, rfl⟩ := Option.map_eq_some_iff.mp h
  obtain ⟨hvisit, hne⟩ := List.mem_filter.mp (List.argmin_mem hmin)
  refine ⟨fun heq => ?_, room, Map.mem_visit.mp hvisit⟩
  simp only [decide_eq_true_eq] at hne
  exact hne (congrArg some heq)

/-- All of them go to one zone, or none goes anywhere. -/
theorem Drain.run_moved (players : List UInt32) : ∀ d : Drain,
    (Drain.run zones ord zoneId players d).moved
      = d.moved ++ match zones.findLeastLoadedZoneExcluding ord (some zoneId) with
        | none => []
        | some fallback => players.map fun source => (source, fallback) := by
  induction players with
  | nil =>
      intro d
      cases zones.findLeastLoadedZoneExcluding ord (some zoneId) <;> simp [Drain.run]
  | cons source rest ih =>
      intro d
      unfold Drain.run
      cases h : zones.findLeastLoadedZoneExcluding ord (some zoneId) with
      | none => simp
      | some fallback =>
          dsimp only
          rw [ih, h]
          simp

/-- The table is what the reroutes make of it. -/
theorem Drain.run_router (start : ConnectionRouter) (players : List UInt32) : ∀ d : Drain,
    d.router = routedAfter start d.moved →
      (Drain.run zones ord zoneId players d).router
        = routedAfter start (Drain.run zones ord zoneId players d).moved := by
  induction players with
  | nil =>
      intro d h
      exact h
  | cons source rest ih =>
      intro d h
      unfold Drain.run
      split
      · exact h
      · refine ih _ ?_
        unfold routedAfter at h ⊢
        rw [List.foldl_append, ← h]
        rfl

/-- The router after a drain is what the moves it reports make of it. -/
theorem drainZone_router (zones : ZoneRooms) (ord : IterOrder ZoneId)
    (playersOrd : IterOrder UInt32) (zoneId : ZoneId) (router : ConnectionRouter) :
    (drainZone zones ord playersOrd zoneId router).router
      = routedAfter router (drainZone zones ord playersOrd zoneId router).moved :=
  Drain.run_router router _ ⟨router, []⟩ rfl

/-- What the zones hold when some players of the drained one have gone to another. -/
theorem countInZone_routedAfter {zone : ZoneId} (hne : zoneId ≠ zone) (players : List UInt32) :
    ∀ router : ConnectionRouter, players.Nodup →
      (∀ source ∈ players, router.routingTable.lookup source = some zoneId) →
      (routedAfter router (players.map fun source => (source, fallback))).countInZone zone
        = router.countInZone zone + if fallback = zone then players.length else 0 := by
  induction players with
  | nil =>
      intro router _ _
      simp [routedAfter]
  | cons source rest ih =>
      intro router hnodup hrouted
      obtain ⟨hfresh, hrest⟩ := List.nodup_cons.mp hnodup
      have hstill : ∀ other ∈ rest,
          (router.commitHandoff source fallback).routingTable.lookup other = some zoneId := by
        intro other hother
        have hother' : other ≠ source := fun heq => hfresh (heq ▸ hother)
        rw [ConnectionRouter.lookup_commitHandoff, if_neg hother']
        exact hrouted other (List.mem_cons_of_mem _ hother)
      have hone := ConnectionRouter.countInZone_commitHandoff fallback
        (hrouted source List.mem_cons_self) hne
      have hrec := ih (router.commitHandoff source fallback) hrest hstill
      show (routedAfter (router.commitHandoff source fallback)
        (rest.map fun source => (source, fallback))).countInZone zone = _
      rw [hrec, hone, List.length_cons]
      by_cases hto : fallback = zone
      · simp only [if_pos hto]
        omega
      · simp only [if_neg hto]

/-- The zone has room for the whole burst, and the last of it finds no zone with room that holds
less. -/
def BurstFits (zones : ZoneRooms) (router : ConnectionRouter) (zoneId fallback : ZoneId)
    (burst : Nat) : Prop :=
  ∃ room, zones.lookup fallback = some room ∧
    router.countInZone fallback + burst ≤ room.maxPlayers.toNat ∧
    ∀ other room', other ≠ zoneId → other ≠ fallback → zones.lookup other = some room' →
      router.countInZone other < room'.maxPlayers.toNat →
      router.countInZone fallback + burst ≤ router.countInZone other + 1

section Burst

variable {router : ConnectionRouter} {players : List UInt32}

/-- What the zones hold before the reroute of the next player. -/
theorem countInZone_before {before after : List UInt32} (hnodup : (before ++ after).Nodup)
    (hrouted : ∀ source ∈ before ++ after, router.routingTable.lookup source = some zoneId)
    {zone : ZoneId} (hne : zoneId ≠ zone) :
    (routedAfter router (before.map fun source => (source, fallback))).countInZone zone
      = router.countInZone zone + if fallback = zone then before.length else 0 :=
  countInZone_routedAfter hne before router (List.nodup_append.mp hnodup).1
    fun source hsource => hrouted source (List.mem_append_left _ hsource)

theorem respectsRoom_of_fits (hne : fallback ≠ zoneId) (hnodup : players.Nodup)
    (hrouted : ∀ source ∈ players, router.routingTable.lookup source = some zoneId)
    (hfits : BurstFits zones router zoneId fallback players.length) :
    RespectsRoom zones router zoneId (players.map fun source => (source, fallback)) := by
  intro before m after hsplit
  obtain ⟨front, back, rfl, rfl, hback⟩ := List.map_eq_append_iff.mp hsplit
  obtain ⟨source, rest, rfl, rfl, -⟩ := List.map_eq_cons_iff.mp hback
  obtain ⟨room, hlookup, hroom, hleast⟩ := hfits
  rw [List.length_append, List.length_cons] at hroom
  have hcount : ∀ {zone : ZoneId}, zone ≠ zoneId →
      (routedAfter router (front.map fun source => (source, fallback))).countInZone zone
        = router.countInZone zone + if fallback = zone then front.length else 0 :=
    fun h => countInZone_before hnodup hrouted (Ne.symm h)
  refine ⟨hne, room, hlookup, ?_, ?_⟩
  · rw [hcount hne, if_pos rfl]
    omega
  · intro other room' hother hlookup' hroom'
    rw [hcount hother] at hroom' ⊢
    rw [hcount hne, if_pos rfl]
    by_cases hsame : fallback = other
    · subst hsame
      rw [if_pos rfl]
    · rw [if_neg hsame] at hroom' ⊢
      have hle := hleast other room' hother (Ne.symm hsame) hlookup' hroom'
      rw [List.length_append, List.length_cons] at hle
      omega

theorem fits_of_respectsRoom (hne : fallback ≠ zoneId) (hnodup : players.Nodup)
    (hrouted : ∀ source ∈ players, router.routingTable.lookup source = some zoneId)
    (hsome : players ≠ [])
    (h : RespectsRoom zones router zoneId (players.map fun source => (source, fallback))) :
    BurstFits zones router zoneId fallback players.length := by
  obtain ⟨front, source, rfl⟩ := (List.eq_nil_or_concat players).resolve_left hsome
  rw [List.concat_eq_append] at *
  have hcount : ∀ {zone : ZoneId}, zone ≠ zoneId →
      (routedAfter router (front.map fun source => (source, fallback))).countInZone zone
        = router.countInZone zone + if fallback = zone then front.length else 0 :=
    fun h => countInZone_before hnodup hrouted (Ne.symm h)
  -- the last player of the burst decides
  obtain ⟨-, room, hlookup, hroom, hleast⟩ := h (front.map fun source => (source, fallback))
    (source, fallback) [] (by rw [List.map_append]; rfl)
  rw [hcount hne, if_pos rfl] at hroom
  refine ⟨room, hlookup, ?_, ?_⟩
  · rw [List.length_append, List.length_singleton]
    omega
  · intro other room' hother hdiff hlookup' hroom'
    have hle := hleast other room' hother hlookup' (by
      rw [hcount hother, if_neg (Ne.symm hdiff)]
      exact hroom')
    rw [hcount hother, hcount hne, if_pos rfl, if_neg (Ne.symm hdiff)] at hle
    rw [List.length_append, List.length_singleton]
    omega

end Burst

/-- **When a drain respects what the other zones can hold.**  All players of the zone go to the
other zone with the fewest players at its last heartbeat.  That is right if and only if there are
none, or there is no other zone, or the burst fits: the zone has room for all of them, and the last
of them finds no zone with room that holds fewer. -/
theorem drain_respects_iff (zones : ZoneRooms) (ord : IterOrder ZoneId)
    (playersOrd : IterOrder UInt32) (zoneId : ZoneId) (router : ConnectionRouter) :
    RespectsRoom zones router zoneId (drainZone zones ord playersOrd zoneId router).moved ↔
      (router.playersInZone playersOrd zoneId = [] ∨
        ∀ fallback, zones.findLeastLoadedZoneExcluding ord (some zoneId) = some fallback →
          BurstFits zones router zoneId fallback
            (router.playersInZone playersOrd zoneId).length) := by
  obtain ⟨hnodup, hrouted⟩ := ConnectionRouter.playersInZone_spec playersOrd zoneId router
  unfold drainZone
  rw [Drain.run_moved, List.nil_append]
  cases hfind : zones.findLeastLoadedZoneExcluding ord (some zoneId) with
  | none =>
      refine iff_of_true ?_ (.inr fun fallback h => nomatch h)
      intro before m after hsplit
      exact absurd hsplit (by simp)
  | some fallback =>
      obtain ⟨hne, -⟩ := findLeastLoaded_spec hfind
      dsimp only
      constructor
      · intro h
        by_cases hsome : router.playersInZone playersOrd zoneId = []
        · exact .inl hsome
        · right
          intro fallback' heq
          obtain rfl := Option.some.inj heq
          exact fits_of_respectsRoom hne hnodup hrouted hsome h
      · rintro (hnone | hfits)
        · rw [hnone]
          intro before m after hsplit
          exact absurd hsplit (by simp)
        · exact respectsRoom_of_fits hne hnodup hrouted (hfits fallback rfl)

/-- Two players in zone `a`; two empty zones, the first with room for one.  The heartbeats are
accurate. -/
def smallZones : ZoneRooms :=
  (((∅ : ZoneRooms).insert "a" ⟨8, 2⟩).insert "b" ⟨8, 0⟩).insert "c" ⟨1, 0⟩

def twoPlayers : ConnectionRouter :=
  ⟨((∅ : Map UInt32 ZoneId).insert 1 "a").insert 2 "a"⟩

/-- Both go to the zone that has room for one. -/
theorem drained_over_capacity :
    (∀ z ∈ smallZones.visit (.stored ZoneId),
      z.2.playerCount.toNat = twoPlayers.countInZone z.1) ∧
    ¬ RespectsRoom smallZones twoPlayers "a"
      (drainZone smallZones (.stored ZoneId) (.stored UInt32) "a" twoPlayers).moved := by
  refine ⟨by decide +kernel, fun h => ?_⟩
  have hmoved : (drainZone smallZones (.stored ZoneId) (.stored UInt32) "a" twoPlayers).moved
      = [(2, "c")] ++ (1, "c") :: [] := by decide +kernel
  obtain ⟨-, room, hlookup, hroom, -⟩ := h _ _ _ hmoved
  have hone : (routedAfter twoPlayers [(2, "c")]).countInZone "c" = 1 := by decide +kernel
  obtain rfl : (⟨1, 0⟩ : ZoneRoom) = room := Option.some.inj hlookup
  rw [hone] at hroom
  exact absurd hroom (by decide)

end Baston.Gateway
