/-
Where one answer for a whole cell is the right one.

The answer is the zone that holds the cell's centre, and what is wanted is the zone that holds the
entity.  The zone that asks hands nothing to itself, so an answer that names it is as good as none.
The rest is a matter of the other zones: the target is right exactly if none of them holds one of
the two points without the other, if no border of theirs runs between the two.
-/
import Baston.Zone.EntityMigration
import Baston.Proofs.QuadTreeQueries

namespace Baston.Zone

open Assoc Baston.Rage Baston.Gateway

section Answers

variable {F : Type} [Scalar F] {ask : F → F → Option ZoneId}

theorem lookup_fileAnswer_self {zones : Map (Int32 × Int32) ZoneId} {cell : Int32 × Int32}
    (h : zones.lookup cell = none ∨ zones.lookup cell = answer ask cell) :
    (fileAnswer ask zones cell).lookup cell = answer ask cell := by
  unfold fileAnswer
  cases ha : answer ask cell with
  | none =>
      rw [ha] at h
      exact h.elim id id
  | some zone => exact AList.lookup_insert zones

theorem lookup_fileAnswer_of_ne {zones : Map (Int32 × Int32) ZoneId} {c cell : Int32 × Int32}
    (h : cell ≠ c) : (fileAnswer ask zones c).lookup cell = zones.lookup cell := by
  unfold fileAnswer
  cases answer ask c with
  | none => rfl
  | some zone => exact AList.lookup_insert_ne h

/-- The answers of some cells, filed under them. -/
theorem lookup_answers (cell : Int32 × Int32) (cells : List (Int32 × Int32)) :
    ∀ zones : Map (Int32 × Int32) ZoneId,
      zones.lookup cell = none ∨ zones.lookup cell = answer ask cell →
      (cells.foldl (fileAnswer ask) zones).lookup cell
        = if cell ∈ cells then answer ask cell else zones.lookup cell := by
  induction cells with
  | nil =>
      intro zones _
      rfl
  | cons c rest ih =>
      intro zones h
      rw [List.foldl_cons]
      by_cases hc : cell = c
      · subst hc
        rw [ih _ (.inr (lookup_fileAnswer_self h)), lookup_fileAnswer_self h, if_pos List.mem_cons_self]
        exact ite_self _
      · rw [ih _ (by rw [lookup_fileAnswer_of_ne hc]; exact h), lookup_fileAnswer_of_ne hc]
        simp only [List.mem_cons, hc, false_or]

/-- An entity is taken to be where the centre of its cell is. -/
theorem resolvedZone_eq {departed : List (EntityState F)} {entity : EntityState F}
    (h : entity ∈ departed) :
    resolveZones ask departed (resolutionCell entity.coords)
      = answer ask (resolutionCell entity.coords) := by
  have hcell : resolutionCell entity.coords
      ∈ (departed.map fun entity => resolutionCell entity.coords).dedup :=
    List.mem_dedup.mpr (List.mem_map_of_mem h)
  refine (lookup_answers (resolutionCell entity.coords) _ ∅ (.inl (AList.lookup_empty _))).trans ?_
  rw [if_pos hcell]

end Answers

/-! ### Zones and points -/

/-- The zone that holds a point, or none where no zone does. -/
def ZoneAt (boxes : ZoneId → Option (Aabb ℝ)) (x y : ℝ) : Option ZoneId → Prop
  | some id => ∃ box, boxes id = some box ∧ box.contains x y = true
  | none => ∀ id box, boxes id = some box → box.contains x y = false

/-- No two zones hold one point. -/
def NoOverlap (boxes : ZoneId → Option (Aabb ℝ)) : Prop :=
  ∀ id id' box box' x y, boxes id = some box → boxes id' = some box' →
    box.contains x y = true → box'.contains x y = true → id = id'

/-- The zone does not hold the point. -/
def OutOf (boxes : ZoneId → Option (Aabb ℝ)) (own : ZoneId) (x y : ℝ) : Prop :=
  ∀ box, boxes own = some box → box.contains x y = false

/-- No other zone holds one of two points without the other. -/
def NotSeparated (boxes : ZoneId → Option (Aabb ℝ)) (own : ZoneId) (x y x' y' : ℝ) : Prop :=
  ∀ id box, boxes id = some box → id ≠ own → box.contains x y = box.contains x' y'

variable {boxes : ZoneId → Option (Aabb ℝ)} {own id : ZoneId} {box : Aabb ℝ} {x y x' y' : ℝ}

/-- A point in a zone is in no other. -/
theorem NoOverlap.not_contains (h : NoOverlap boxes) (hbox : boxes id = some box)
    (hin : box.contains x y = true) {id' : ZoneId} {other : Aabb ℝ}
    (hother : boxes id' = some other) (hne : id' ≠ id) : other.contains x y = false :=
  Bool.eq_false_iff.mpr fun hin' => hne (h _ _ _ _ x y hother hbox hin' hin)

/-- No zone holds a point that is out of one zone and with a point no other zone holds. -/
theorem zoneAt_none_iff (hothers : ∀ id box, boxes id = some box → id ≠ own →
      box.contains x' y' = false) :
    ZoneAt boxes x y none ↔ OutOf boxes own x y ∧ NotSeparated boxes own x y x' y' := by
  constructor
  · intro hnone
    refine ⟨fun box hbox => hnone own box hbox, ?_⟩
    intro id box hbox hne
    rw [hnone id box hbox, hothers id box hbox hne]
  · rintro ⟨hout, hsame⟩ id box hbox
    by_cases hown : id = own
    · subst hown
      exact hout box hbox
    · rw [hsame id box hbox hown, hothers id box hbox hown]

/-- Where the zone of another point, unless it is the one that asks, is the zone of a point. -/
theorem zoneAt_filter_iff (hdisjoint : NoOverlap boxes) {o : Option ZoneId}
    (h : ZoneAt boxes x' y' o) :
    ZoneAt boxes x y (o.filter fun id => id ≠ own)
      ↔ OutOf boxes own x y ∧ NotSeparated boxes own x y x' y' := by
  cases o with
  | none => exact zoneAt_none_iff fun id box hbox _ => h id box hbox
  | some id =>
      obtain ⟨box, hbox, hin⟩ := h
      by_cases hown : id = own
      · subst hown
        rw [Option.filter_some, if_neg (by simp)]
        exact zoneAt_none_iff fun id' other hother => hdisjoint.not_contains hbox hin hother
      · rw [Option.filter_some, if_pos (by simpa using hown)]
        constructor
        · rintro ⟨box', hbox', hin'⟩
          obtain rfl := Option.some.inj (hbox.symm.trans hbox')
          refine ⟨fun other hother => hdisjoint.not_contains hbox hin' hother (Ne.symm hown), ?_⟩
          intro id' other hother _
          by_cases hsame : id' = id
          · subst hsame
            obtain rfl := Option.some.inj (hbox.symm.trans hother)
            rw [hin, hin']
          · rw [hdisjoint.not_contains hbox hin' hother hsame,
              hdisjoint.not_contains hbox hin hother hsame]
        · rintro ⟨-, hsame⟩
          exact ⟨box, hbox, (hsame id box hbox hown).trans hin⟩

/-- What the gateway answers, with the index of the registered zones. -/
theorem zoneAt_queryPoint (bounds : Aabb ℝ) (ops : List (TreeOp ℝ)) (x y : ℝ) :
    ZoneAt (TreeOp.latest ops) x y ((TreeOp.run bounds ops).queryPoint x y) := by
  obtain ⟨hfound, hnone⟩ := (indexes_latest bounds ops).queryPoint x y
  cases h : (TreeOp.run bounds ops).queryPoint x y with
  | none => exact hnone.mp h
  | some id => exact hfound id h

/-- **When one answer for a cell is the right one.**  The zone a scan hands an entity to is the zone
that holds the entity's own coordinates, and no zone where none does, if and only if the scanning
zone is not registered with them and no other zone holds the entity without the centre of its cell,
or the centre without the entity. -/
theorem resolved_iff (bounds : Aabb ℝ) (ops : List (TreeOp ℝ))
    (hdisjoint : NoOverlap (TreeOp.latest ops)) (m : Migration ℝ) (ord : IterOrder EntityId)
    (entity : EntityState ℝ) (hdeparted : entity ∈ m.departed ord) :
    ZoneAt (TreeOp.latest ops) entity.coords.x entity.coords.y
        (m.targetOf (resolveZones (fun x y => (TreeOp.run bounds ops).queryPoint x y)
          (m.departed ord)) entity) ↔
      OutOf (TreeOp.latest ops) m.zoneId entity.coords.x entity.coords.y ∧
        NotSeparated (TreeOp.latest ops) m.zoneId entity.coords.x entity.coords.y
          (resolutionCellCentre (resolutionCell entity.coords)).1
          (resolutionCellCentre (resolutionCell entity.coords)).2 := by
  rw [Migration.targetOf, resolvedZone_eq hdeparted]
  exact zoneAt_filter_iff hdisjoint (zoneAt_queryPoint bounds ops _ _)

/-- A zone that is registered with the bounds it runs with holds nothing that has departed. -/
theorem outOf_of_departed {m : Migration ℝ} {ord : IterOrder EntityId} {entity : EntityState ℝ}
    (hown : ∀ box, boxes m.zoneId = some box → box = m.bounds)
    (hdeparted : entity ∈ m.departed ord) :
    OutOf boxes m.zoneId entity.coords.x entity.coords.y := by
  intro box hbox
  have hdeparts := (List.mem_filter.mp hdeparted).2
  simp only [Migration.departs, Bool.and_eq_true, Bool.not_eq_true'] at hdeparts
  rw [hown box hbox]
  exact hdeparts.1.2

/-! ### Beside a border that is not on the grid -/

noncomputable section

/-- Two zones that meet at x = 10. -/
def west : Aabb ℝ := ⟨-4000, -4000, 10, 4000⟩
def east : Aabb ℝ := ⟨10, -4000, 4000, 4000⟩

def twoZones : List (TreeOp ℝ) := [.insert "west" west, .insert "east" east]

/-- A crate just west of the border. -/
def crate : EntityState ℝ where
  entityId := 7
  entityType := .object
  networkOwner := none
  modelHash := 0
  coords := ⟨5, 5, 0⟩
  heading := 0
  velocity := ⟨0, 0, 0⟩
  health := 0
  armour := 0
  extra := .object false

/-- The eastern zone, which the crate was in. -/
def eastZone : Migration ℝ where
  zoneId := "east"
  bounds := east
  ingest := .new (EntityManager.new.spawnEntity crate) 200
  peers := fun _ => .new

theorem contains_iff {box : Aabb ℝ} {x y : ℝ} :
    box.contains x y = true ↔ box.xMin ≤ x ∧ x < box.xMax ∧ box.yMin ≤ y ∧ y < box.yMax := by
  simp [Aabb.contains, Scalar.le, Scalar.lt, and_assoc]

theorem twoZones_cases {id : ZoneId} {box : Aabb ℝ} (h : TreeOp.latest twoZones id = some box) :
    id = "east" ∧ box = east ∨ id = "west" ∧ box = west := by
  unfold twoZones TreeOp.latest at h
  simp only [List.foldl_cons, List.foldl_nil, TreeOp.record] at h
  by_cases he : id = "east"
  · subst he
    rw [Function.update_self] at h
    exact .inl ⟨rfl, (Option.some.inj h).symm⟩
  · rw [Function.update_of_ne he] at h
    by_cases hw : id = "west"
    · subst hw
      rw [Function.update_self] at h
      exact .inr ⟨rfl, (Option.some.inj h).symm⟩
    · rw [Function.update_of_ne hw] at h
      cases h

theorem twoZones_noOverlap : NoOverlap (TreeOp.latest twoZones) := by
  intro id id' box box' x y h h' hin hin'
  rw [contains_iff] at hin hin'
  rcases twoZones_cases h with ⟨rfl, rfl⟩ | ⟨rfl, rfl⟩ <;>
    rcases twoZones_cases h' with ⟨rfl, rfl⟩ | ⟨rfl, rfl⟩
  · rfl
  · exact absurd (lt_of_lt_of_le hin'.2.1 hin.1) (lt_irrefl x)
  · exact absurd (lt_of_lt_of_le hin.2.1 hin'.1) (lt_irrefl x)
  · rfl

theorem crate_departed : crate ∈ eastZone.departed (.stored EntityId) := by
  refine List.mem_filter.mpr ⟨List.mem_map.mpr ⟨(7, crate), Map.mem_visit.mpr rfl, rfl⟩, ?_⟩
  have hout : eastZone.bounds.contains crate.coords.x crate.coords.y = false := by
    refine Bool.eq_false_iff.mpr fun hin => ?_
    have hx : (10 : ℝ) ≤ 5 := (contains_iff.mp hin).1
    norm_num at hx
  unfold Migration.departs
  rw [hout]
  rfl

theorem crate_cell : resolutionCell crate.coords = (0, 0) := by
  have h : Scalar.floorToI32 ((5 : ℝ) / zoneResolveCellM) = 0 := by
    have hfloor : ⌊(5 : ℝ) / zoneResolveCellM⌋ = 0 := by
      rw [Int.floor_eq_zero_iff]
      unfold zoneResolveCellM
      norm_num
    show Cells.saturate ⌊(5 : ℝ) / zoneResolveCellM⌋ = 0
    rw [hfloor]
    rfl
  exact Prod.ext h h

/-- The zone the crate is handed to. -/
def crateDestination : Option ZoneId :=
  eastZone.targetOf
    (resolveZones (fun x y => (TreeOp.run ⟨-4000, -4000, 4000, 4000⟩ twoZones).queryPoint x y)
      (eastZone.departed (.stored EntityId))) crate

theorem crate_iff : ZoneAt (TreeOp.latest twoZones) crate.coords.x crate.coords.y crateDestination ↔
    OutOf (TreeOp.latest twoZones) "east" crate.coords.x crate.coords.y ∧
      NotSeparated (TreeOp.latest twoZones) "east" crate.coords.x crate.coords.y
        (resolutionCellCentre (resolutionCell crate.coords)).1
        (resolutionCellCentre (resolutionCell crate.coords)).2 :=
  resolved_iff ⟨-4000, -4000, 4000, 4000⟩ twoZones twoZones_noOverlap eastZone _ crate
    crate_departed

/-- The crate is in the western zone, and the centre of its cell is not. -/
theorem crate_unseen : crate ∈ eastZone.departed (.stored EntityId) ∧
    NoOverlap (TreeOp.latest twoZones) ∧
    ¬ ZoneAt (TreeOp.latest twoZones) crate.coords.x crate.coords.y crateDestination := by
  refine ⟨crate_departed, twoZones_noOverlap, fun h => ?_⟩
  have hcentre : resolutionCellCentre (F := ℝ) (resolutionCell crate.coords) = (32, 32) := by
    have hone : (Scalar.ofInt (0 : Int32).toInt + 0.5) * zoneResolveCellM = (32 : ℝ) := by
      show (((0 : Int32).toInt : ℝ) + 0.5) * zoneResolveCellM = 32
      have hzero : (0 : Int32).toInt = 0 := rfl
      rw [hzero]
      unfold zoneResolveCellM
      norm_num
    rw [crate_cell]
    exact Prod.ext hone hone
  unfold crateDestination at h
  rw [Migration.targetOf, resolvedZone_eq crate_departed] at h
  have hsame := ((zoneAt_filter_iff twoZones_noOverlap
    (zoneAt_queryPoint _ twoZones _ _)).mp h).2 "west" west rfl (by decide)
  rw [hcentre] at hsame
  have hin : west.contains crate.coords.x crate.coords.y = true := by
    rw [contains_iff]
    unfold west crate
    norm_num
  rw [hin] at hsame
  have hx : (32 : ℝ) < 10 := (contains_iff.mp hsame.symm).2.1
  norm_num at hx

end

end Baston.Zone
