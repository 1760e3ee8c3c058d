/-
A plan that spreads players over zones.

The tally of the plan is at every moment what the zones held before and what has been assigned to
them since.  So the least loaded zone of the tally is the least loaded zone, and once no zone has
room none has room again.
-/
import Baston.Lib.Trace
import Baston.Gateway.Rebalance

namespace Baston.Gateway.Rebalance

open Baston.Zone

/-- What a zone holds once some assignments are carried out. -/
def loadAfter (router : ConnectionRouter) (assignments : List (UInt32 × ZoneId))
    (zone : ZoneId) : Nat :=
  router.countInZone zone + (assignments.filter fun a => a.2 = zone).length

theorem loadAfter_append (router : ConnectionRouter) (assignments : List (UInt32 × ZoneId))
    (source : UInt32) (chosen zone : ZoneId) :
    loadAfter router (assignments ++ [(source, chosen)]) zone
      = loadAfter router assignments zone + if chosen = zone then 1 else 0 := by
  unfold loadAfter
  rw [List.filter_append, List.length_append, List.filter_singleton, Nat.add_assoc]
  congr 2
  by_cases h : chosen = zone
  · simp [h]
  · simp [h]

/-- The zone has room, and no zone that has room holds less. -/
def LeastLoaded (router : ConnectionRouter) (survivors : List (ZoneId × UInt32))
    (assignments : List (UInt32 × ZoneId)) (zone : ZoneId) : Prop :=
  ∃ capacity, (zone, capacity) ∈ survivors
    ∧ loadAfter router assignments zone < capacity.toNat
    ∧ ∀ s ∈ survivors, loadAfter router assignments s.1 < s.2.toNat →
      loadAfter router assignments zone ≤ loadAfter router assignments s.1

/-- What the tally says. -/
def tally (router : ConnectionRouter) (survivors : List (ZoneId × UInt32))
    (assignments : List (UInt32 × ZoneId)) : List ZoneLoad :=
  survivors.map fun s => ⟨loadAfter router assignments s.1, s.2.toNat, s.1⟩

section Steps

variable {router : ConnectionRouter} {survivors : List (ZoneId × UInt32)}
  {assignments : List (UInt32 × ZoneId)}

/-- The zone that is chosen. -/
theorem target_some {chosen : ZoneLoad} {i : Nat}
    (h : target (tally router survivors assignments) = some (chosen, i)) :
    (∃ capacity, survivors[i]? = some (chosen.zone, capacity))
      ∧ LeastLoaded router survivors assignments chosen.zone := by
  obtain ⟨hzip, hroom⟩ := List.mem_filter.mp (List.argmin_mem h)
  have hget := List.mem_zipIdx_iff_getElem?.mp hzip
  unfold tally at hget
  rw [List.getElem?_map] at hget
  obtain ⟨⟨zone, capacity⟩, hs, rfl⟩ := Option.map_eq_some_iff.mp hget
  rw [decide_eq_true_iff] at hroom
  refine ⟨⟨capacity, hs⟩, capacity, List.mem_of_getElem? hs, hroom, fun s hin hs' => ?_⟩
  obtain ⟨j, hj⟩ := List.mem_iff_getElem?.mp hin
  have hmem : ((⟨loadAfter router assignments s.1, s.2.toNat, s.1⟩ : ZoneLoad), j)
      ∈ (tally router survivors assignments).zipIdx.filter fun p =>
        p.1.count < p.1.capacity := by
    refine List.mem_filter.mpr ⟨List.mem_zipIdx_iff_getElem?.mpr ?_, decide_eq_true hs'⟩
    unfold tally
    rw [List.getElem?_map, hj]
    rfl
  have hle := List.le_of_mem_argmin (f := fun p : ZoneLoad × Nat => p.1.count) hmem h
  exact hle

/-- No zone has room. -/
theorem target_none (h : target (tally router survivors assignments) = none) :
    ∀ s ∈ survivors, s.2.toNat ≤ loadAfter router assignments s.1 := by
  intro s hin
  unfold target at h
  rw [List.argmin_eq_none, List.filter_eq_nil_iff] at h
  obtain ⟨j, hj⟩ := List.mem_iff_getElem?.mp hin
  have hmem : ((⟨loadAfter router assignments s.1, s.2.toNat, s.1⟩ : ZoneLoad), j)
      ∈ (tally router survivors assignments).zipIdx := by
    refine List.mem_zipIdx_iff_getElem?.mpr ?_
    unfold tally
    rw [List.getElem?_map, hj]
    rfl
  have hfull := h _ hmem
  rw [decide_eq_true_iff] at hfull
  exact Nat.le_of_not_lt hfull

/-- The tally counts an assignment. -/
theorem tally_modify (hnodup : (survivors.map Prod.fst).Nodup) {i : Nat} {zone : ZoneId}
    {capacity : UInt32} (hi : survivors[i]? = some (zone, capacity)) (source : UInt32) :
    (tally router survivors assignments).modify i (fun l => { l with count := l.count + 1 })
      = tally router survivors (assignments ++ [(source, zone)]) := by
  apply List.ext_getElem?
  intro j
  unfold tally
  rw [List.getElem?_modify, List.getElem?_map, List.getElem?_map]
  cases hj : survivors[j]? with
  | none => rfl
  | some s =>
      simp only [Option.map_some, loadAfter_append]
      by_cases hsame : i = j
      · subst hsame
        obtain rfl := Option.some.inj (hi.symm.trans hj)
        simp
      · have hne : zone ≠ s.1 := by
          intro heq
          have hfst : (survivors.map Prod.fst)[i]? = (survivors.map Prod.fst)[j]? := by
            rw [List.getElem?_map, List.getElem?_map, hi, hj, Option.map_some, Option.map_some, heq]
          refine hsame ((List.getElem?_inj ?_ hnodup).mp hfst)
          rw [List.length_map]
          exact (List.getElem?_eq_some_iff.mp hi).1
        simp [hsame, hne]

end Steps

/-- A plan for the orphans that have been dealt with. -/
structure Planned (router : ConnectionRouter) (survivors : List (ZoneId × UInt32))
    (handled : List UInt32) (plan : Plan) : Prop where
  load : plan.load = tally router survivors plan.assignments
  perm : (plan.assignments.map Prod.fst ++ plan.unplaceable).Perm handled
  capacity : ∀ s ∈ survivors, (∃ a ∈ plan.assignments, a.2 = s.1) →
    loadAfter router plan.assignments s.1 ≤ s.2.toNat
  full : plan.unplaceable ≠ [] →
    ∀ s ∈ survivors, s.2.toNat ≤ loadAfter router plan.assignments s.1
  least : ∀ before a after, plan.assignments = before ++ a :: after →
    LeastLoaded router survivors before a.2

theorem Planned.place {router : ConnectionRouter} {survivors : List (ZoneId × UInt32)}
    {handled : List UInt32} {plan : Plan} (hnodup : (survivors.map Prod.fst).Nodup)
    (h : Planned router survivors handled plan) (source : UInt32) :
    Planned router survivors (handled ++ [source]) (place plan source) := by
  unfold Rebalance.place
  cases htarget : target plan.load with
  | none =>
      rw [h.load] at htarget
      refine ⟨h.load, ?_, h.capacity, fun _ => target_none htarget, h.least⟩
      dsimp only
      rw [← List.append_assoc]
      exact h.perm.append_right _
  | some found =>
      obtain ⟨chosen, i⟩ := found
      rw [h.load] at htarget
      obtain ⟨⟨capacity, hi⟩, hleast⟩ := target_some htarget
      refine ⟨?_, ?_, fun s hs hused => ?_, fun hne s hs => ?_, fun before a after hsplit => ?_⟩
      · dsimp only
        rw [h.load]
        exact tally_modify hnodup hi source
      · dsimp only
        rw [List.map_append, List.append_assoc]
        refine (List.perm_append_comm.append_left _).trans ?_
        rw [← List.append_assoc]
        exact h.perm.append_right _
      · dsimp only at hused ⊢
        rw [loadAfter_append]
        by_cases hsame : chosen.zone = s.1
        · obtain ⟨room, hroom, hlt, -⟩ := hleast
          obtain rfl := List.inj_on_of_nodup_map hnodup hroom hs hsame
          rw [if_pos rfl]
          exact hlt
        · rw [if_neg hsame]
          obtain ⟨a, ha, heq⟩ := hused
          rcases List.mem_append.mp ha with ha | ha
          · exact h.capacity s hs ⟨a, ha, heq⟩
          · rw [List.mem_singleton.mp ha] at heq
            exact absurd heq hsame
      · dsimp only
        rw [loadAfter_append]
        exact (h.full hne s hs).trans (Nat.le_add_right _ _)
      · dsimp only at hsplit
        rcases Trace.cut_concat hsplit with ⟨-, rfl, rfl⟩ | ⟨front, -, hfront⟩
        · exact hleast
        · exact h.least before a front hfront

theorem planned_run {router : ConnectionRouter} {survivors : List (ZoneId × UInt32)}
    (hnodup : (survivors.map Prod.fst).Nodup) : ∀ (orphaned handled : List UInt32) (plan : Plan),
      Planned router survivors handled plan →
        Planned router survivors (handled ++ orphaned) (orphaned.foldl place plan) := by
  intro orphaned
  induction orphaned with
  | nil =>
      intro handled plan h
      rw [List.append_nil]
      exact h
  | cons source rest ih =>
      intro handled plan h
      have hrest := ih (handled ++ [source]) _ (h.place hnodup source)
      rw [List.append_assoc, List.singleton_append] at hrest
      exact hrest

/-- **A plan for the orphans of a zone.**  Every orphan is assigned or unplaceable, once, and each
assignment goes to a zone that is the least loaded of those with room at that point.  No zone gets
more players than it may hold, and if a player is unplaceable every zone is full in the end. -/
theorem plan_partitions (router : ConnectionRouter) (orphaned : List UInt32)
    (survivors : List (ZoneId × UInt32)) (hnodup : (survivors.map Prod.fst).Nodup)
    (assignments : List (UInt32 × ZoneId)) (unplaceable : List UInt32)
    (hplan : planRebalance router orphaned survivors = (assignments, unplaceable)) :
    (assignments.map Prod.fst ++ unplaceable).Perm orphaned
      ∧ (∀ before a after, assignments = before ++ a :: after →
        LeastLoaded router survivors before a.2)
      ∧ (∀ s ∈ survivors, (∃ a ∈ assignments, a.2 = s.1) →
        loadAfter router assignments s.1 ≤ s.2.toNat)
      ∧ (unplaceable ≠ [] → ∀ s ∈ survivors, s.2.toNat ≤ loadAfter router assignments s.1) := by
  unfold planRebalance at hplan
  by_cases hempty : survivors = []
  · rw [if_pos hempty] at hplan
    obtain ⟨rfl, rfl⟩ := Prod.mk.inj hplan
    subst hempty
    exact ⟨.refl _, fun before a after hsplit => by simp at hsplit,
      fun s hs => absurd hs List.not_mem_nil, fun _ s hs => absurd hs List.not_mem_nil⟩
  · rw [if_neg hempty] at hplan
    obtain ⟨rfl, rfl⟩ := Prod.mk.inj hplan
    have hstart : Planned router survivors []
        ⟨survivors.map fun s => ⟨router.countInZone s.1, s.2.toNat, s.1⟩, [], []⟩ :=
      ⟨rfl, .refl _, fun s _ hused => by simp at hused, fun hne => absurd rfl hne,
        fun before a after hsplit => by simp at hsplit⟩
    have h := planned_run hnodup orphaned [] _ hstart
    rw [List.nil_append] at h
    exact ⟨h.perm, h.least, h.capacity, h.full⟩

/-- A zone with a player in it, and an empty one that fills up first. -/
def sampleRouter : ConnectionRouter := ⟨(∅ : Assoc.Map UInt32 ZoneId).insert 7 "a"⟩

theorem sample_planned : ([(1, "b"), (2, "a")].map Prod.fst ++ [3] : List UInt32).Perm [1, 2, 3]
    ∧ (∀ before a after, [(1, "b"), (2, "a")] = before ++ a :: after →
      LeastLoaded sampleRouter [("a", 2), ("b", 1)] before a.2)
    ∧ (∀ s ∈ [("a", (2 : UInt32)), ("b", 1)], (∃ a ∈ [((1 : UInt32), "b"), (2, "a")], a.2 = s.1) →
      loadAfter sampleRouter [(1, "b"), (2, "a")] s.1 ≤ s.2.toNat)
    ∧ (([3] : List UInt32) ≠ [] → ∀ s ∈ [("a", (2 : UInt32)), ("b", 1)],
      s.2.toNat ≤ loadAfter sampleRouter [(1, "b"), (2, "a")] s.1) :=
  plan_partitions sampleRouter [1, 2, 3] [("a", 2), ("b", 1)] (by decide) _ _ (by decide +kernel)

end Baston.Gateway.Rebalance
