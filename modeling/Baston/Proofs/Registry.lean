/-
The map of the zones and their index, under calls that interleave.

A call owes the index its second step about the zones it named.  As long as some call still
owes the index about a zone, the two may disagree about it; once nobody does, they agree
exactly when the call that settled its debt last had the last word in the map as well.
-/
import Baston.Lib.Trace
import Baston.Gateway.ZoneRegistry
import Baston.Proofs.QuadTree

namespace Baston.Gateway

open Assoc Trace Baston.Rage Baston.Zone

variable {F : Type}

namespace ZoneRegistry

/-- The bounds a zone is registered with. -/
def registered (id : ZoneId) (r : ZoneRegistry F) : Option (Aabb F) :=
  (r.zones.lookup id).map (·.bounds)

/-- Map and index agree about a zone: it is stored once, with its bounds, or not at all. -/
def CoherentAt (id : ZoneId) (r : ZoneRegistry F) : Prop :=
  r.quadtree.boxesOf id = (registered id r).toList

/-- The zones an indexing step is about. -/
def Indexing.zoneIds : Indexing F → List ZoneId
  | .insert id _ => [id]
  | .remove ids => ids

/-- What an indexing step says of them. -/
def Indexing.says : Indexing F → Option (Aabb F)
  | .insert _ bounds => some bounds
  | .remove _ => none

/-! ### The two steps of a call -/

theorem lookup_eraseAll (k : ZoneId) : ∀ (ids : List ZoneId) (zones : Map ZoneId (ZoneEntry F)),
    (ids.foldl (fun zones id => zones.erase id) zones).lookup k
      = if k ∈ ids then none else zones.lookup k := by
  intro ids
  induction ids with
  | nil =>
      intro zones
      rfl
  | cons id rest ih =>
      intro zones
      rw [List.foldl_cons, ih, Map.lookup_erase_of]
      by_cases hrest : k ∈ rest
      · rw [if_pos hrest, if_pos (List.mem_cons_of_mem _ hrest)]
      · rw [if_neg hrest]
        by_cases hk : k = id
        · subst hk
          rw [if_pos rfl, if_pos List.mem_cons_self]
        · rw [if_neg hk, if_neg (by simp [hk, hrest])]

/-- The first step of a call changes the map for the zones the second one is about, to what
the second one says, and nothing else. -/
structure Started (r r' : ZoneRegistry F) (rest : Option (Indexing F)) : Prop where
  tree : r'.quadtree = r.quadtree
  named : ∀ i ∈ rest, ∀ k ∈ i.zoneIds, registered k r' = i.says
  others : ∀ k, (∀ i ∈ rest, k ∉ i.zoneIds) → registered k r' = registered k r

theorem start_spec (c : Call F) (r : ZoneRegistry F) :
    Started r (r.start c).1 (r.start c).2 := by
  cases c with
  | registerZone id bounds addressOk now =>
      cases addressOk with
      | false => exact ⟨rfl, nofun, fun _ _ => rfl⟩
      | true =>
          refine ⟨rfl, ?_, ?_⟩
          · rintro i ⟨⟩ k hk
            obtain rfl : k = id := by simpa [Indexing.zoneIds] using hk
            simp [start, registered, Indexing.says]
          · intro k hk
            have hne : k ≠ id := by
              simpa [start, Indexing.zoneIds] using hk
            simp only [start, registered, if_true, AList.lookup_insert_ne hne]
  | heartbeat id now =>
      refine ⟨rfl, nofun, ?_⟩
      intro k _
      simp only [start, registered, Map.lookup_modify]
      split
      · cases r.zones.lookup k <;> rfl
      · rfl
  | evictSilentZones ord now =>
      have hzones : ∀ k, registered k (r.start (.evictSilentZones ord now)).1
          = if k ∈ r.silent ord now then none else registered k r := by
        intro k
        simp only [start, registered, lookup_eraseAll]
        split <;> rfl
      refine ⟨rfl, ?_, ?_⟩
      · intro i hi k hk
        simp only [start] at hi
        split at hi
        · cases hi
        · obtain rfl := Option.some.inj hi
          have hmem : k ∈ r.silent ord now := hk
          rw [hzones, if_pos hmem]
          rfl
      · intro k hk
        rw [hzones, if_neg]
        intro hmem
        refine hk (.remove (r.silent ord now)) ?_ hmem
        have hne : ¬ (r.silent ord now).isEmpty = true := by
          intro hempty
          rw [List.isEmpty_iff.mp hempty] at hmem
          cases hmem
        simp only [start]
        rw [if_neg hne]
        rfl
  | removeZone id =>
      by_cases hid : id ∈ r.zones
      · simp only [start, if_pos hid]
        refine ⟨rfl, ?_, ?_⟩
        · rintro i ⟨⟩ k hk
          obtain rfl : k = id := by simpa [Indexing.zoneIds] using hk
          simp [registered, Indexing.says]
        · intro k hk
          have hne : k ≠ id := by simpa [Indexing.zoneIds] using hk
          simp only [registered, AList.lookup_erase_ne hne]
      · simp only [start, if_neg hid]
        exact ⟨rfl, nofun, fun _ _ => rfl⟩

theorem boxesOf_removeAll (k : ZoneId) : ∀ (ids : List ZoneId) {t : QuadTree F}, t.Single →
    (ids.foldl (fun t id => (t.remove id).1) t).Single
      ∧ (ids.foldl (fun t id => (t.remove id).1) t).boxesOf k
        = if k ∈ ids then [] else t.boxesOf k := by
  intro ids
  induction ids with
  | nil =>
      intro t h
      exact ⟨h, rfl⟩
  | cons id rest ih =>
      intro t h
      obtain ⟨hsingle, hboxes⟩ := ih (QuadTree.single_remove h id)
      refine ⟨hsingle, ?_⟩
      rw [List.foldl_cons, hboxes, QuadTree.boxesOf_remove h]
      by_cases hrest : k ∈ rest
      · rw [if_pos hrest, if_pos (List.mem_cons_of_mem _ hrest)]
      · rw [if_neg hrest]
        by_cases hk : k = id
        · subst hk
          rw [if_pos rfl, if_pos List.mem_cons_self]
        · rw [if_neg hk, if_neg (by simp [hk, hrest])]

/-- The second step of a call makes the index say of its zones what it says. -/
theorem finish_spec [Scalar F] {r : ZoneRegistry F} (h : r.quadtree.Single) (i : Indexing F) :
    (r.finish i).zones = r.zones ∧ (r.finish i).quadtree.Single
      ∧ ∀ k, (r.finish i).quadtree.boxesOf k
        = if k ∈ i.zoneIds then i.says.toList else r.quadtree.boxesOf k := by
  cases i with
  | insert id bounds =>
      refine ⟨rfl, QuadTree.single_insert h id bounds, ?_⟩
      intro k
      show (r.quadtree.insert id bounds).boxesOf k = _
      rw [QuadTree.boxesOf_insert h]
      simp only [Indexing.zoneIds, List.mem_singleton, Indexing.says, Option.toList_some]
  | remove ids =>
      refine ⟨rfl, (boxesOf_removeAll "" ids h).1, ?_⟩
      intro k
      exact (boxesOf_removeAll k ids h).2

end ZoneRegistry

/-! ### Interleaved calls -/

namespace SharedRegistry

open ZoneRegistry

abbrev Done (F : Type) := Entry (SharedRegistry F) (Move F) Unit

/-- A gateway without zones. -/
def new [Scalar F] (zoneTimeout : Nat) : SharedRegistry F :=
  { registry := { quadtree := .gtaV, zoneTimeout := zoneTimeout } }

/-- A call other than that of `task` still owes the index a step about the zone. -/
def OwedByOther (task : Nat) (id : ZoneId) (s : SharedRegistry F) : Prop :=
  ∃ task' i, task' ≠ task ∧ s.inProgress.lookup task' = some i ∧ id ∈ i.zoneIds

/-- No call owes the index a step about the zone. -/
def Settled (id : ZoneId) (s : SharedRegistry F) : Prop :=
  ∀ task i, s.inProgress.lookup task = some i → id ∉ i.zoneIds

/-- No call is in progress. -/
def Idle (s : SharedRegistry F) : Prop := ∀ task, s.inProgress.lookup task = none

/-- The index has exactly the zones of the map, each with the bounds it is registered with. -/
def Coherent (s : SharedRegistry F) : Prop := ∀ id, CoherentAt id s.registry

/-- A call that is the last to reach the index about a zone writes there what the map says:
no later call has changed the zone in the map and been overtaken. -/
def InTurn (e : Done F) : Prop :=
  ∀ task, e.op = .index task → ∀ i, e.pre.inProgress.lookup task = some i →
    ∀ id ∈ i.zoneIds, ¬ OwedByOther task id e.pre → i.says = registered id e.pre.registry

variable {past : List (Done F)} {s s' : SharedRegistry F}

/-- What is known of a run: no zone is indexed twice, and a zone nobody owes the index anything
about is coherent. -/
structure Tracked (s : SharedRegistry F) : Prop where
  single : s.registry.quadtree.Single
  settled : ∀ id, Settled id s → CoherentAt id s.registry

theorem tracked_new [Scalar F] (zoneTimeout : Nat) :
    Tracked (new zoneTimeout : SharedRegistry F) := by
  have hempty : ∀ id, (new zoneTimeout : SharedRegistry F).registry.quadtree.boxesOf id = [] :=
    fun _ => rfl
  refine ⟨?_, ?_⟩
  · intro id
    rw [hempty]
    exact Nat.zero_le _
  · intro id _
    rw [CoherentAt, hempty]
    rfl

theorem tracked_call [Scalar F] (h : Tracked s) {task : Nat} {c : Call F} {a : Unit}
    (hstep : step (.call task c) s = some (s', a)) : Tracked s' := by
  simp only [step] at hstep
  cases hidle : s.inProgress.lookup task with
  | some i => simp [hidle] at hstep
  | none =>
      simp only [hidle] at hstep
      have hspec := start_spec c s.registry
      generalize s.registry.start c = r at hspec hstep
      obtain ⟨registry, rest⟩ := r
      have hkeep : ∀ id, Settled id s → (∀ i ∈ rest, id ∉ i.zoneIds) →
          CoherentAt id registry := by
        intro id hsettled hrest
        rw [CoherentAt, hspec.tree, hspec.others id hrest]
        exact h.settled id hsettled
      have hsingle : registry.quadtree.Single := by
        rw [hspec.tree]
        exact h.single
      cases rest with
      | none =>
          obtain ⟨rfl, -⟩ := Prod.mk.inj (Option.some.inj hstep)
          exact ⟨hsingle, fun id hsettled => hkeep id hsettled nofun⟩
      | some i =>
          obtain ⟨rfl, -⟩ := Prod.mk.inj (Option.some.inj hstep)
          refine ⟨hsingle, ?_⟩
          intro id hsettled
          refine hkeep id ?_ ?_
          · intro task' i' hi'
            have hne : task' ≠ task := by
              rintro rfl
              rw [hidle] at hi'
              cases hi'
            exact hsettled task' i' (by rw [AList.lookup_insert_ne hne]; exact hi')
          · rintro i' ⟨⟩
            exact hsettled task i (AList.lookup_insert _)

/-- An indexing step, and what it leaves settled. -/
theorem index_spec [Scalar F] (h : s.registry.quadtree.Single) {task : Nat} {a : Unit}
    (hstep : step (.index task) s = some (s', a)) :
    ∃ i, s.inProgress.lookup task = some i ∧ s'.registry.zones = s.registry.zones
      ∧ s'.registry.quadtree.Single
      ∧ (∀ id, s'.registry.quadtree.boxesOf id
        = if id ∈ i.zoneIds then i.says.toList else s.registry.quadtree.boxesOf id)
      ∧ ∀ id, Settled id s' ↔ ¬ OwedByOther task id s := by
  simp only [step] at hstep
  cases hlookup : s.inProgress.lookup task with
  | none => simp [hlookup] at hstep
  | some i =>
      simp only [hlookup] at hstep
      obtain ⟨rfl, -⟩ := Prod.mk.inj (Option.some.inj hstep)
      obtain ⟨hzones, hsingle, hboxes⟩ := finish_spec h i
      refine ⟨i, rfl, hzones, hsingle, hboxes, ?_⟩
      intro id
      constructor
      · rintro hsettled ⟨task', i', hne, hi', hmem⟩
        exact hsettled task' i' (by rw [AList.lookup_erase_ne hne]; exact hi') hmem
      · intro howed task' i' hi' hmem
        rw [Map.lookup_erase_of] at hi'
        by_cases hne : task' = task
        · rw [if_pos hne] at hi'
          cases hi'
        · rw [if_neg hne] at hi'
          exact howed ⟨task', i', hne, hi', hmem⟩

theorem tracked_index [Scalar F] (h : Tracked s) {task : Nat} {a : Unit}
    (hstep : step (.index task) s = some (s', a)) (hturn : InTurn ⟨s, .index task, a, s'⟩) :
    Tracked s' := by
  obtain ⟨i, hlookup, hzones, hsingle, hboxes, hsettles⟩ := index_spec h.single hstep
  refine ⟨hsingle, ?_⟩
  intro id hsettled
  have hfree := (hsettles id).mp hsettled
  have hregistered : registered id s'.registry = registered id s.registry := by
    unfold registered
    rw [hzones]
  rw [CoherentAt, hboxes, hregistered]
  by_cases hid : id ∈ i.zoneIds
  · rw [if_pos hid, hturn task rfl i hlookup id hid hfree]
  · rw [if_neg hid]
    refine h.settled id ?_
    intro task' i' hi' hmem
    by_cases hne : task' = task
    · subst hne
      obtain rfl : i = i' := Option.some.inj (hlookup.symm.trans hi')
      exact hid hmem
    · exact hfree ⟨task', i', hne, hi', hmem⟩

theorem run_tracked [Scalar F] {zoneTimeout : Nat} (run : Run step (new zoneTimeout) past s)
    (hturns : Along (fun _ e => InTurn e) past) : Tracked s := by
  refine run.invariant (I := fun _ s => Tracked s) (tracked_new zoneTimeout) ?_ hturns
  intro past s move a s' _ ih h hturn
  cases move with
  | call task c => exact tracked_call ih h
  | index task => exact tracked_index ih h hturn

/-- An indexing step that leaves the zones it settles coherent was in turn. -/
theorem inTurn_of_coherent [Scalar F] (h : s.registry.quadtree.Single) {task : Nat} {a : Unit}
    (hstep : step (.index task) s = some (s', a))
    (hcoherent : ∀ id, Settled id s' → CoherentAt id s'.registry) :
    InTurn ⟨s, .index task, a, s'⟩ := by
  rintro task' ⟨⟩ i hlookup id hid hfree
  obtain ⟨i', hlookup', hzones, -, hboxes, hsettles⟩ := index_spec h hstep
  obtain rfl : i = i' := Option.some.inj (hlookup.symm.trans hlookup')
  have hagree := hcoherent id ((hsettles id).mpr hfree)
  have hregistered : registered id s'.registry = registered id s.registry := by
    unfold registered
    rw [hzones]
  rw [CoherentAt, hboxes, if_pos hid, hregistered] at hagree
  have hhead := congrArg List.head? hagree
  rwa [Option.head?_toList, Option.head?_toList] at hhead

/-- At every point of the run, a zone nobody owes the index anything about is coherent. -/
def CoherentThroughout [Scalar F] (zoneTimeout : Nat) (past : List (Done F)) : Prop :=
  ∀ later before s, past = later ++ before → Run step (new zoneTimeout) before s →
    ∀ id, Settled id s → CoherentAt id s.registry

/-- **Map and index agree exactly when the calls about a zone reach the index in turn.**  Then
they agree whenever no call is in progress. -/
theorem registry_coherent [Scalar F] {zoneTimeout : Nat}
    (run : Run step (new zoneTimeout) past s) :
    (Along (fun _ e => InTurn e) past → Idle s → Coherent s)
      ∧ (CoherentThroughout zoneTimeout past ↔ Along (fun _ e => InTurn e) past) := by
  constructor
  · intro hturns hidle id
    refine (run_tracked run hturns).settled id ?_
    intro task i hi
    rw [hidle task] at hi
    cases hi
  · refine Run.always_iff_along
      (I := fun _ s => ∀ id, Settled id s → CoherentAt id s.registry)
      (fun run hturns => (run_tracked run hturns).settled) ?_ run
    intro past s move a s' run hbefore h hnow
    cases move with
    | call task c => exact nofun
    | index task => exact inTurn_of_coherent (run_tracked run hbefore).single h hnow

/-! ### A zone that comes back -/

/-- The west half of the map. -/
def west : Aabb Float32 := ⟨-4000.0, -4000.0, 0.0, 4000.0⟩

/-- A zone falls silent and registers again while its eviction is under way, with the eviction
reaching the index first. -/
def evictedInTurn : List (Move Float32) :=
  [.call 0 (.registerZone "a" west true 0), .index 0, .call 1 (.evictSilentZones (.stored _) 20),
    .call 0 (.registerZone "a" west true 20), .index 1, .index 0]

/-- The same with the registration reaching the index first. -/
def evictedOvertaken : List (Move Float32) :=
  [.call 0 (.registerZone "a" west true 0), .index 0, .call 1 (.evictSilentZones (.stored _) 20),
    .call 0 (.registerZone "a" west true 20), .index 0, .index 1]

/-- In turn, the zone ends up registered and indexed. -/
theorem evicted_in_turn :
    ∃ (past : List (Done Float32)) (s : SharedRegistry Float32), Run step (new 15) past s
      ∧ Idle s ∧ registered "a" s.registry = some west ∧ Coherent s := by
  have run := run_of_ops step (new 15) evictedInTurn rfl
  have hcall : ∀ (e : Done Float32) t c, e.op = .call t c → InTurn e := by
    rintro e t c hop task hindex
    cases hop.symm.trans hindex
  refine ⟨_, _, run, fun _ => rfl, rfl, (registry_coherent run).1 ?_ fun _ => rfl⟩
  refine ⟨?_, ?_, hcall _ _ _ rfl, hcall _ _ _ rfl, ?_, hcall _ _ _ rfl, trivial⟩
  · rintro _ ⟨⟩ i ⟨⟩ id hid -
    obtain rfl : id = "a" := List.mem_singleton.mp hid
    rfl
  · -- the eviction, while the registration still owes the index its step
    rintro _ ⟨⟩ i ⟨⟩ id hid hfree
    obtain rfl : id = "a" := List.mem_singleton.mp hid
    exact absurd ⟨0, _, nofun, rfl, List.mem_singleton.mpr rfl⟩ hfree
  · rintro _ ⟨⟩ i ⟨⟩ id hid -
    obtain rfl : id = "a" := List.mem_singleton.mp hid
    rfl

/-- **Overtaken, the zone is registered and not indexed**: nobody is routed to it again. -/
theorem evicted_overtaken :
    ¬ ∀ (zoneTimeout : Nat) (past : List (Done Float32)) (s : SharedRegistry Float32),
      Run step (new zoneTimeout) past s → Idle s → Coherent s := by
  intro h
  have run := run_of_ops step (new 15) evictedOvertaken rfl
  have hlost : [] = [west] := h 15 _ _ run (fun _ => rfl) "a"
  cases hlost

end SharedRegistry

end Baston.Gateway
