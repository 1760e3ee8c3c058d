/-
The grid of a push tick against a scan of the whole world.

A cell holds the entities of the world whose coordinates fall into it, and a look takes the
nine cells around, so it hands out exactly the entities there, and each once.  Over exact
coordinates everything within the radius lies in those cells, so both paths see the same
entities.  What is done about an entity depends on that entity alone, so they come to the same
operations, in some other order perhaps, and remember the same.
-/
import Mathlib.Data.Finset.Sigma
import Mathlib.Data.List.Perm.Basic
import Baston.Gateway.StateAggregator
import Baston.Proofs.ClientOps
import Baston.Rage.Exact

namespace Baston.Gateway

open Assoc Baston.Rage Baston.Zone

variable {F : Type}

/-! ### What the grid hands out -/

namespace SpatialGrid

variable [Scalar F] {ord : IterOrder EntityId} {world : WorldState F} {radius : F}
  {center : Vec3 F}

/-- What a cell of a built grid holds. -/
theorem lookup_build (ord : IterOrder EntityId) (world : WorldState F) (radius : F)
    (c : Int32 × Int32) :
    ((build ord world radius).cells.lookup c).getD []
      = ((world.visit ord).map Prod.snd).filter fun s =>
          cellOf (cellWidth radius) s.coords = c := by
  have h := Map.lookup_group (fun s : EntityState F => cellOf (cellWidth radius) s.coords) id c
    ((world.visit ord).map Prod.snd) ∅
  rw [AList.lookup_empty, Option.getD_none, List.nil_append, List.map_id] at h
  exact h

theorem mem_cell (h : Labelled world) {c : Int32 × Int32} {s : EntityState F} :
    s ∈ ((build ord world radius).cells.lookup c).getD []
      ↔ world.lookup s.entityId = some s ∧ cellOf (cellWidth radius) s.coords = c := by
  rw [lookup_build, List.mem_filter, List.mem_map, decide_eq_true_eq]
  refine and_congr_left' ⟨?_, ?_⟩
  · rintro ⟨⟨k, s⟩, hmem, rfl⟩
    have hk := Map.mem_visit.mp hmem
    rw [h k s hk]
    exact hk
  · intro hs
    exact ⟨(s.entityId, s), Map.mem_visit.mpr hs, rfl⟩

/-- The position is in the block of cells around the centre. -/
def Covers (radius : F) (center p : Vec3 F) : Prop :=
  ∃ dx ∈ around, ∃ dy ∈ around, cellOf (cellWidth radius) p
    = ((cellOf (cellWidth radius) center).1 + dx, (cellOf (cellWidth radius) center).2 + dy)

theorem mem_candidates (h : Labelled world) {s : EntityState F} :
    s ∈ (build ord world radius).candidates center
      ↔ world.lookup s.entityId = some s ∧ Covers radius center s.coords := by
  unfold candidates Covers
  simp only [List.mem_flatMap, mem_cell h]
  constructor
  · rintro ⟨dx, hdx, dy, hdy, hs, hcell⟩
    exact ⟨hs, dx, hdx, dy, hdy, hcell⟩
  · rintro ⟨hs, dx, hdx, dy, hdy, hcell⟩
    exact ⟨dx, hdx, dy, hdy, hs, hcell⟩

theorem around_nodup : around.Nodup := by decide

theorem nodup_cell (h : Labelled world) (c : Int32 × Int32) :
    (((build ord world radius).cells.lookup c).getD []).Nodup := by
  have hids : ((world.visit ord).map Prod.snd).map (·.entityId)
      = (world.visit ord).map Prod.fst := by
    rw [List.map_map]
    refine List.map_congr_left ?_
    rintro ⟨k, s⟩ hmem
    exact h k s (Map.mem_visit.mp hmem)
  have hnodup := Map.nodup_visit ord world
  rw [← hids] at hnodup
  rw [lookup_build]
  exact (List.Nodup.of_map _ hnodup).filter _

/-- No entity is a candidate twice. -/
theorem candidates_nodup (h : Labelled world) :
    (((build ord world radius).candidates center).map (·.entityId)).Nodup := by
  have hstates : ((build ord world radius).candidates center).Nodup := by
    unfold candidates
    simp only
    rw [List.nodup_flatMap]
    refine ⟨?_, ?_⟩
    · intro dx _
      rw [List.nodup_flatMap]
      refine ⟨fun dy _ => nodup_cell h _, around_nodup.imp ?_⟩
      intro dy dy' hne
      rw [Function.onFun, List.disjoint_iff_ne]
      rintro s hs _ hs' rfl
      have hcell := ((mem_cell h).mp hs).2.symm.trans ((mem_cell h).mp hs').2
      exact hne (Int32.add_right_inj _ |>.mp (Prod.mk.inj hcell).2)
    · refine around_nodup.imp ?_
      intro dx dx' hne
      rw [Function.onFun, List.disjoint_iff_ne]
      rintro s hs _ hs' rfl
      obtain ⟨dy, -, hs⟩ := List.mem_flatMap.mp hs
      obtain ⟨dy', -, hs'⟩ := List.mem_flatMap.mp hs'
      have hcell := ((mem_cell h).mp hs).2.symm.trans ((mem_cell h).mp hs').2
      exact hne (Int32.add_right_inj _ |>.mp (Prod.mk.inj hcell).1)
  refine hstates.map_on ?_
  intro s hs s' hs' hid
  have hworld := ((mem_candidates h).mp hs).1
  rw [hid, ((mem_candidates h).mp hs').1] at hworld
  exact (Option.some.inj hworld).symm

end SpatialGrid

/-! ### Operations entity by entity -/

/-- Lists that say the same about every entity, in the same order, are rearrangements. -/
theorem perm_of_opsAbout {a b : List (EntityOp F)} (h : ∀ k, opsAbout k a = opsAbout k b) :
    a.Perm b := by
  classical
  rw [List.perm_iff_count]
  intro op
  have hcount : ∀ l : List (EntityOp F), (opsAbout op.id l).count op = l.count op := by
    intro l
    exact List.count_filter (by simp)
  rw [← hcount a, h op.id, hcount b]

/-- What a push does depends on which entities it sees, not on the order it comes by them. -/
theorem ops_of_same_seen [Scalar F] [BEq F] {candidates candidates' : List (EntityState F)}
    (hnodup : (candidates.map (·.entityId)).Nodup) (hnodup' : (candidates'.map (·.entityId)).Nodup)
    {viewerSource : UInt32} {center : Vec3 F} {radius : F}
    (hseen : ∀ s, sees viewerSource center radius s = true → (s ∈ candidates ↔ s ∈ candidates'))
    (ord ord' : IterOrder EntityId) (now : Nat) (tracker : ClientEntityTracker F) :
    let r := computeClientOpsFrom ord now candidates tracker viewerSource center radius
    let r' := computeClientOpsFrom ord' now candidates' tracker viewerSource center radius
    r.2.Perm r'.2 ∧ ∀ k, r.1.lastSent.lookup k = r'.1.lastSent.lookup k := by
  have hsame : ∀ k, seenAmong viewerSource center radius candidates k
      = seenAmong viewerSource center radius candidates' k := by
    intro k
    refine Option.ext fun s => ?_
    rw [seenAmong_eq_some hnodup, seenAmong_eq_some hnodup']
    constructor
    · rintro ⟨hmem, hid, hsees⟩
      exact ⟨(hseen s hsees).mp hmem, hid, hsees⟩
    · rintro ⟨hmem, hid, hsees⟩
      exact ⟨(hseen s hsees).mpr hmem, hid, hsees⟩
  have hat : ∀ k,
      (computeClientOpsFrom ord now candidates tracker viewerSource center radius).1.lastSent.lookup k
          = (computeClientOpsFrom ord' now candidates' tracker viewerSource center
            radius).1.lastSent.lookup k
        ∧ opsAbout k (computeClientOpsFrom ord now candidates tracker viewerSource center radius).2
          = opsAbout k
            (computeClientOpsFrom ord' now candidates' tracker viewerSource center radius).2 := by
    intro k
    have h := opsFrom_at hnodup ord now viewerSource center radius tracker k
    have h' := opsFrom_at hnodup' ord' now viewerSource center radius tracker k
    rw [← hsame k] at h'
    cases hk : seenAmong viewerSource center radius candidates k with
    | none =>
        rw [hk] at h h'
        exact ⟨h.1.trans h'.1.symm, h.2.trans h'.2.symm⟩
    | some s =>
        rw [hk] at h h'
        exact ⟨h.1.trans h'.1.symm, h.2.trans h'.2.symm⟩
  exact ⟨perm_of_opsAbout fun k => (hat k).2, fun k => (hat k).1⟩

/-! ### Exact coordinates -/

namespace SpatialGrid

/-- A cell is wider than the radius. -/
theorem radius_lt_cellWidth (radius : ℝ) : radius < cellWidth radius ∧ 0 < cellWidth radius := by
  have hone : (1 : ℝ) ≤ max radius 1 := le_max_right _ _
  have hradius : radius ≤ max radius 1 := le_max_left _ _
  have heq : cellWidth radius = max radius 1 * 1.05 := by
    show max radius (OfScientific.ofScientific 10 true 1 : ℝ) * 1.05 = _
    norm_num
  rw [heq]
  constructor <;> nlinarith

/-- A coordinate differs by no more than the whole distance. -/
theorem coordinate_le_distance3d (a b : Vec3 ℝ) :
    |a.x - b.x| ≤ distance3d a b ∧ |a.y - b.y| ≤ distance3d a b := by
  have heq : distance3d a b = Real.sqrt ((a.x - b.x) * (a.x - b.x) + (a.y - b.y) * (a.y - b.y)
      + (a.z - b.z) * (a.z - b.z)) := rfl
  rw [heq]
  constructor
  · apply Real.abs_le_sqrt
    nlinarith [mul_self_nonneg (a.y - b.y), mul_self_nonneg (a.z - b.z)]
  · apply Real.abs_le_sqrt
    nlinarith [mul_self_nonneg (a.x - b.x), mul_self_nonneg (a.z - b.z)]

/-- **Nothing in range is missed**: what is within the radius lies in the cells around. -/
theorem covers_of_inRange {radius : ℝ} {center p : Vec3 ℝ}
    (h : Scalar.lt radius (distance3d center p) = false) : Covers radius center p := by
  have hdist : distance3d center p ≤ radius := not_lt.mp (of_decide_eq_false h)
  obtain ⟨hwide, hpos⟩ := radius_lt_cellWidth radius
  obtain ⟨hx, hy⟩ := coordinate_le_distance3d center p
  obtain ⟨dx, hdx, hcx⟩ := Cells.saturate_near (Cells.floor_div_near hpos
    (show |p.x - center.x| ≤ cellWidth radius by rw [abs_sub_comm]; linarith))
  obtain ⟨dy, hdy, hcy⟩ := Cells.saturate_near (Cells.floor_div_near hpos
    (show |p.y - center.y| ≤ cellWidth radius by rw [abs_sub_comm]; linarith))
  exact ⟨dx, hdx, dy, hdy, Prod.ext hcx hcy⟩

end SpatialGrid

/-- **The grid path does what the scan does.**  Over exact coordinates, for every world, position,
radius and tracker, and whatever the orders the maps are visited in: the candidates of the grid
give the same operations, up to their order, and the same tracker as the whole world. -/
theorem grid_eq_scan {world : WorldState ℝ} (hworld : Labelled world)
    (ord ord' ordBuild : IterOrder EntityId) (now : Nat) (tracker : ClientEntityTracker ℝ)
    (viewerSource : UInt32) (center : Vec3 ℝ) (radius : ℝ) :
    let grid := SpatialGrid.build ordBuild world radius
    let near := computeClientOpsFrom ord now (grid.candidates center) tracker viewerSource center
      radius
    let scan := computeClientOps ord' now world tracker viewerSource center radius
    near.2.Perm scan.2 ∧ ∀ k, near.1.lastSent.lookup k = scan.1.lastSent.lookup k := by
  have hids : (((world.visit ord').map Prod.snd).map (·.entityId)).Nodup := by
    have hkeys : ((world.visit ord').map Prod.snd).map (·.entityId)
        = (world.visit ord').map Prod.fst := by
      rw [List.map_map]
      refine List.map_congr_left ?_
      rintro ⟨k, s⟩ hmem
      exact hworld k s (Map.mem_visit.mp hmem)
    rw [hkeys]
    exact Map.nodup_visit ord' world
  refine ops_of_same_seen (SpatialGrid.candidates_nodup hworld) hids ?_ ord ord' now tracker
  intro s hsees
  rw [SpatialGrid.mem_candidates hworld, List.mem_map]
  have hrange : Scalar.lt radius (distance3d center s.coords) = false := by
    unfold sees at hsees
    simpa using (Bool.and_eq_true_iff.mp hsees).2
  constructor
  · rintro ⟨hs, -⟩
    exact ⟨(s.entityId, s), Map.mem_visit.mpr hs, rfl⟩
  · rintro ⟨⟨k, s'⟩, hmem, rfl⟩
    have hk := Map.mem_visit.mp hmem
    obtain rfl := hworld k s' hk
    exact ⟨hk, SpatialGrid.covers_of_inRange hrange⟩

/-- A crate that player 1 owns, standing where `coords` says. -/
noncomputable def crateAt (coords : Vec3 ℝ) : EntityState ℝ where
  entityId := 1
  entityType := .object
  networkOwner := some 1
  modelHash := 7
  coords := coords
  heading := 0
  velocity := ⟨0, 0, 0⟩
  health := 1000
  armour := 0
  extra := .object true

/-- A world with that crate in it. -/
noncomputable def worldOf (coords : Vec3 ℝ) : WorldState ℝ := AList.insert 1 (crateAt coords) ∅

/-- A crate across a cell border, at the edge of the radius. -/
theorem crate_on_the_edge :
    (computeClientOpsFrom (.stored _) 0
        ((SpatialGrid.build (.stored _) (worldOf ⟨-40, 30, 0⟩) 50).candidates ⟨0, 0, 0⟩) {} 2
        ⟨0, 0, 0⟩ 50).2.Perm
      (computeClientOps (.stored _) 0 (worldOf ⟨-40, 30, 0⟩) {} 2 ⟨0, 0, 0⟩ 50).2
      ∧ ∀ k, (computeClientOpsFrom (.stored _) 0
          ((SpatialGrid.build (.stored _) (worldOf ⟨-40, 30, 0⟩) 50).candidates ⟨0, 0, 0⟩) {} 2
          ⟨0, 0, 0⟩ 50).1.lastSent.lookup k
        = (computeClientOps (.stored _) 0 (worldOf ⟨-40, 30, 0⟩) {} 2 ⟨0, 0, 0⟩
          50).1.lastSent.lookup k := by
  refine grid_eq_scan ?_ (.stored _) (.stored _) (.stored _) 0 {} 2 ⟨0, 0, 0⟩ 50
  intro k s hs
  rw [worldOf, Map.lookup_insert_of] at hs
  by_cases hk : k = 1
  · rw [if_pos hk] at hs
    rw [← Option.some.inj hs, hk]
    rfl
  · rw [if_neg hk] at hs
    exact absurd hs (by simp)

end Baston.Gateway
