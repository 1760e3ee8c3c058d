/-
Authored positions read back.

A position is split into a sector index and an offset within the sector, the offset is
truncated to a level, and both go through the sync tree as the payloads of two leaves.  The
reader takes the two leaves from the tree, turns the level into an offset and puts sector and
offset together again.  Over exact numbers only the truncation loses anything.
-/
import Baston.Lib.Cells
import Baston.Proofs.AuthoredNodes
import Baston.Rage.Exact

namespace Baston.Rage

open MessageBuffer SyncParse SyncWrite

/-! ### Numbers in fields -/

/-- `x as i32` of what an `i32` holds is the whole part. -/
theorem toInt_toI32 {x : ℝ} (hx : 0 ≤ x) (hlt : x < 2147483648) :
    (Scalar.toI32 x).toInt = ⌊x⌋ := by
  have hfloor : ⌊x⌋ < 2147483648 := by
    rw [Int.floor_lt]
    exact_mod_cast hlt
  have hnonneg : 0 ≤ ⌊x⌋ := Int.floor_nonneg.mpr hx
  show (Cells.saturate (if x < 0 then ⌈x⌉ else ⌊x⌋)).toInt = _
  rw [if_neg (not_lt.mpr hx), Cells.toInt_saturate, if_neg (by omega), if_neg (by omega)]

/-- The word of a number that is not negative. -/
theorem toNat_word {i : Int32} (h : 0 ≤ i.toInt) : (i.toUInt32.toNat : Int) = i.toInt := by
  have hle : (0 : Int32) ≤ i := Int32.le_iff_toInt_le.mpr h
  rw [Int32.toNat_toUInt32_of_le hle, ← Int32.toNat_toInt]
  omega

/-- A number that fits its field is written to it and read from it. -/
theorem number_round_trip {n : Nat} (hn : n ≤ 32) {i : Int32} (h0 : 0 ≤ i.toInt)
    (hlt : i.toInt < 2 ^ n) :
    ∃ bits : List Bool, bits.length = n
      ∧ BitW.Appends false (writeBitsSingle i.toUInt32 n) bits
      ∧ BitM.Reads false (BitM.bits n) bits i.toUInt32 := by
  have hwidth : n = if n = 13 ∧ (false : Bool) then 16 else n := by simp
  have hfits : i.toUInt32.toNat < 2 ^ n := by
    have hword := toNat_word h0
    zify
    omega
  exact ⟨Bits.msb n i.toUInt32.toNat, Bits.length_msb _ _, .field hn hwidth _,
    .field hn hwidth hfits⟩

/-- The steps of a field of `n` bits. -/
def steps (n : Nat) : ℝ := ((2 ^ n - 1 : Int) : ℝ)

/-- A coordinate in a field of `n` bits reads back less than a step below. -/
theorem float_round_trip {n : Nat} (hn : 0 < n) (hn' : n ≤ 31) {d x : ℝ}
    (hx : 0 ≤ x) (hd : x < d) :
    ∃ (bits : List Bool) (y : ℝ), bits.length = n
      ∧ BitW.Appends false (BitW.float n d x) bits ∧ BitM.Reads false (BitM.float n d) bits y
      ∧ 0 ≤ x - y ∧ x - y < d / steps n := by
  have hpow : (2 : Int) ≤ 2 ^ n ∧ (2 : Int) ^ n ≤ 2147483648 := by
    constructor
    · exact_mod_cast Nat.pow_le_pow_right (show 0 < 2 by decide) hn
    · exact_mod_cast Nat.pow_le_pow_right (show 0 < 2 by decide) hn'
  have hsteps : 0 < steps n := by
    unfold steps
    exact Int.cast_pos.mpr (by omega)
  have hsmall : steps n < 2147483648 := by
    have hlt : (2 : Int) ^ n - 1 < (2147483648 : Int) := by omega
    have hcast := Int.cast_lt (R := ℝ).mpr hlt
    rwa [Int.cast_ofNat] at hcast
  have hlevel := Quantise.level_lt hsteps hx hd
  have hscaled : 0 ≤ x / d * steps n :=
    mul_nonneg (div_nonneg hx (lt_of_le_of_lt hx hd).le) hsteps.le
  have hbound : x / d * steps n < 2147483648 := by
    have hone : x / d < 1 := (div_lt_one (lt_of_le_of_lt hx hd)).mpr hd
    calc x / d * steps n < 1 * steps n := mul_lt_mul_of_pos_right hone hsteps
      _ = steps n := one_mul _
      _ < 2147483648 := hsmall
  have hint : (Scalar.toI32 (x / d * steps n)).toInt = Quantise.level (steps n) d x :=
    toInt_toI32 hscaled hbound
  have hfield : (Scalar.toI32 (x / d * steps n)).toInt < 2 ^ n := by
    rw [hint]
    have hlt : Quantise.level (steps n) d x < 2 ^ n - 1 := Int.cast_lt.mp hlevel
    omega
  have hnonneg : 0 ≤ (Scalar.toI32 (x / d * steps n)).toInt := by
    rw [hint]
    exact Quantise.level_nonneg hsteps hx hd
  obtain ⟨bits, hlength, hwrite, hread⟩ :=
    number_round_trip (show n ≤ 32 by omega) hnonneg hfield
  refine ⟨bits, Quantise.value (steps n) d (Quantise.level (steps n) d x), hlength, hwrite, ?_,
    Quantise.value_level hsteps (lt_of_le_of_lt hx hd)⟩
  unfold BitM.float
  rw [if_neg (by omega)]
  refine hread.map ?_
  rw [Int32.toInt32_toUInt32, hint]
  rfl

/-! ### Sectors and offsets -/

/-- A position inside the encodable world. -/
structure InWorld (position : Vec3 ℝ) : Prop where
  x : -27648 ≤ position.x ∧ position.x < 27648
  y : -27648 ≤ position.y ∧ position.y < 27648
  z : -1700 ≤ position.z ∧ position.z < 2716

/-- A sector index that fits its fields. -/
structure Indexed (sector : Vec3 Int32) : Prop where
  x : 0 ≤ sector.x.toInt ∧ sector.x.toInt < 2 ^ 10
  y : 0 ≤ sector.y.toInt ∧ sector.y.toInt < 2 ^ 10
  z : 0 ≤ sector.z.toInt ∧ sector.z.toInt < 2 ^ 6

/-- An offset within its sector. -/
structure InSector (offset : Vec3 ℝ) : Prop where
  x : 0 ≤ offset.x ∧ offset.x < 54
  y : 0 ≤ offset.y ∧ offset.y < 54
  z : 0 ≤ offset.z ∧ offset.z < 69

/-- `sector_of` in exact numbers. -/
theorem sectorOf_real (position : Vec3 ℝ) : sectorOf position =
    (⟨Scalar.toI32 (position.x / 54 + 512), Scalar.toI32 (position.y / 54 + 512),
        Scalar.toI32 ((position.z + 1700) / 69)⟩,
      ⟨position.x - ((Scalar.toI32 (position.x / 54 + 512)).toInt - 512) * 54,
        position.y - ((Scalar.toI32 (position.y / 54 + 512)).toInt - 512) * 54,
        position.z - ((Scalar.toI32 ((position.z + 1700) / 69)).toInt * 69 - 1700)⟩) := by
  have h54 : (OfScientific.ofScientific 540 true 1 : ℝ) = 54 := by norm_num
  have h69 : (OfScientific.ofScientific 690 true 1 : ℝ) = 69 := by norm_num
  have h512 : (OfScientific.ofScientific 5120 true 1 : ℝ) = 512 := by norm_num
  have h1700 : (OfScientific.ofScientific 17000 true 1 : ℝ) = 1700 := by norm_num
  unfold sectorOf
  rw [← h54, ← h69, ← h512, ← h1700]
  rfl

/-- The coordinate of a sector on one of the flat axes, and what is left of the position. -/
theorem flat_split {x : ℝ} (h : -27648 ≤ x ∧ x < 27648) :
    (0 ≤ (Scalar.toI32 (x / 54 + 512)).toInt ∧ (Scalar.toI32 (x / 54 + 512)).toInt < 2 ^ 10)
      ∧ 0 ≤ x - ((Scalar.toI32 (x / 54 + 512)).toInt - 512 : ℝ) * 54
      ∧ x - ((Scalar.toI32 (x / 54 + 512)).toInt - 512 : ℝ) * 54 < 54 := by
  have hlow : 0 ≤ x / 54 + 512 := by linarith
  have hhigh : x / 54 + 512 < 1024 := by linarith
  rw [toInt_toI32 hlow (by linarith)]
  have hle := Int.floor_le (x / 54 + 512)
  have hlt := Int.lt_floor_add_one (x / 54 + 512)
  refine ⟨⟨Int.floor_nonneg.mpr hlow, ?_⟩, by linarith, by linarith⟩
  rw [Int.floor_lt]
  norm_num
  exact hhigh

theorem height_split {z : ℝ} (h : -1700 ≤ z ∧ z < 2716) :
    (0 ≤ (Scalar.toI32 ((z + 1700) / 69)).toInt ∧ (Scalar.toI32 ((z + 1700) / 69)).toInt < 2 ^ 6)
      ∧ 0 ≤ z - ((Scalar.toI32 ((z + 1700) / 69)).toInt * 69 - 1700 : ℝ)
      ∧ z - ((Scalar.toI32 ((z + 1700) / 69)).toInt * 69 - 1700 : ℝ) < 69 := by
  have hlow : 0 ≤ (z + 1700) / 69 := by linarith
  have hhigh : (z + 1700) / 69 < 64 := by linarith
  rw [toInt_toI32 hlow (by linarith)]
  have hle := Int.floor_le ((z + 1700) / 69)
  have hlt := Int.lt_floor_add_one ((z + 1700) / 69)
  refine ⟨⟨Int.floor_nonneg.mpr hlow, ?_⟩, by linarith, by linarith⟩
  rw [Int.floor_lt]
  norm_num
  exact hhigh

/-- **Sector and offset of a position**: both fit their fields. -/
theorem sectorOf_spec {position : Vec3 ℝ} (h : InWorld position) :
    Indexed (sectorOf position).1 ∧ InSector (sectorOf position).2 := by
  obtain ⟨hsx, hox⟩ := flat_split h.x
  obtain ⟨hsy, hoy⟩ := flat_split h.y
  obtain ⟨hsz, hoz⟩ := height_split h.z
  rw [sectorOf_real]
  exact ⟨⟨hsx, hsy, hsz⟩, ⟨hox, hoy, hoz⟩⟩

/-- Another offset in the sector of a position is as far from it as from its own offset. -/
theorem worldPosition_sectorOf (position back : Vec3 ℝ) :
    position.x - (worldPosition (sectorOf position).1 back).x = (sectorOf position).2.x - back.x
      ∧ position.y - (worldPosition (sectorOf position).1 back).y
        = (sectorOf position).2.y - back.y
      ∧ position.z - (worldPosition (sectorOf position).1 back).z
        = (sectorOf position).2.z - back.z := by
  have h54 : (OfScientific.ofScientific 540 true 1 : ℝ) = 54 := by norm_num
  have h69 : (OfScientific.ofScientific 690 true 1 : ℝ) = 69 := by norm_num
  have h512 : (OfScientific.ofScientific 5120 true 1 : ℝ) = 512 := by norm_num
  have h1700 : (OfScientific.ofScientific 17000 true 1 : ℝ) = 1700 := by norm_num
  have hworld : ∀ sector : Vec3 Int32, worldPosition sector back
      = ⟨((sector.x.toInt : ℝ) - 512) * 54 + back.x, ((sector.y.toInt : ℝ) - 512) * 54 + back.y,
        ((sector.z.toInt : ℝ) * 69 + back.z) - 1700⟩ := by
    intro sector
    rw [← h54, ← h69, ← h512, ← h1700]
    rfl
  rw [hworld, sectorOf_real]
  refine ⟨by ring, by ring, by ring⟩

/-! ### The two leaves -/

/-- The payload of the sector node. -/
def sectorWriter (sector : Vec3 Int32) : BitW :=
  BitW.each [writeBitsSingle sector.x.toUInt32 10, writeBitsSingle sector.y.toUInt32 10,
    writeBitsSingle sector.z.toUInt32 6]

namespace SyncWrite.OffsetNode

/-- The node an offset goes to. -/
def name : OffsetNode → NodeName
  | .sector => .cSectorPositionDataNode
  | .object => .cObjectSectorPosNode
  | .pedMap => .cPedSectorPosMapNode

/-- The payload of an offset node. -/
def writer {F : Type} [Scalar F] (offset : Vec3 F) : OffsetNode → BitW
  | .sector => writeOffset offset 12
  | .object => BitW.each [writeBit true, writeOffset offset 20]
  | .pedMap => BitW.each [writeOffset offset 12, writeBit false]

/-- The steps of an offset node. -/
def levels : OffsetNode → ℝ
  | .sector | .pedMap => 2 ^ 12 - 1
  | .object => 2 ^ 20 - 1

end SyncWrite.OffsetNode

theorem authorPosition_eq {F : Type} [Scalar F] (position : Vec3 F) (kind : OffsetNode)
    (nodes : AuthoredNodes) :
    authorPosition position kind nodes = set kind.name (kind.writer (sectorOf position).2)
      (set .cSectorDataNode (sectorWriter (sectorOf position).1) nodes) := by
  cases kind <;> rfl

/-- Less than a step below on each axis. -/
structure StepBelow (n : ℝ) (a b : Vec3 ℝ) : Prop where
  x : 0 ≤ a.x - b.x ∧ a.x - b.x < 54 / n
  y : 0 ≤ a.y - b.y ∧ a.y - b.y < 54 / n
  z : 0 ≤ a.z - b.z ∧ a.z - b.z < 69 / n

theorem offset_round_trip {n : Nat} (hn : 0 < n) (hn' : n ≤ 31) {offset : Vec3 ℝ}
    (h : InSector offset) : ∃ (bits : List Bool) (back : Vec3 ℝ), bits.length = 3 * n
      ∧ BitW.Appends false (writeOffset offset n) bits
      ∧ BitM.Reads false (readSectorOffset n) bits back ∧ StepBelow (steps n) offset back := by
  have h54 : (OfScientific.ofScientific 540 true 1 : ℝ) = 54 := by norm_num
  have h69 : (OfScientific.ofScientific 690 true 1 : ℝ) = 69 := by norm_num
  obtain ⟨hx, hy, hz⟩ := h
  rw [← h54] at hx hy
  rw [← h69] at hz
  obtain ⟨bx, x, hlx, hwx, hrx, hx⟩ := float_round_trip hn hn' hx.1 hx.2
  obtain ⟨bY, y, hly, hwy, hry, hy⟩ := float_round_trip hn hn' hy.1 hy.2
  obtain ⟨bz, z, hlz, hwz, hrz, hz⟩ := float_round_trip hn hn' hz.1 hz.2
  refine ⟨bx ++ (bY ++ (bz ++ [])), ⟨x, y, z⟩, ?_, hwx.seq (hwy.seq (hwz.seq .nil)),
    hrx.bind (hry.bind (hrz.bind (.pure _))), ?_⟩
  · simp only [List.length_append, List.length_nil]
    omega
  · rw [h54] at hx hy
    rw [h69] at hz
    exact ⟨hx, hy, hz⟩

/-- The reads of the sector node deliver the sector. -/
theorem sector_leaf {sector : Vec3 Int32} (h : Indexed sector) :
    ∃ bits : List Bool, bits.length ≤ 512 ∧ BitW.Appends false (sectorWriter sector) bits
      ∧ ∀ {F : Type} [Scalar F] (build : GameBuild) (out : SyncNodeData F) (view : MessageBuffer),
        view.lengthHack = false → view.maxBit ≤ view.data.length * 8 → view.Ahead bits →
          (decodeLeaf .cSectorDataNode build out view).1.sector = some sector := by
  obtain ⟨bx, hlx, hwx, hrx⟩ := number_round_trip (by decide) h.x.1 h.x.2
  obtain ⟨bY, hly, hwy, hry⟩ := number_round_trip (by decide) h.y.1 h.y.2
  obtain ⟨bz, hlz, hwz, hrz⟩ := number_round_trip (by decide) h.z.1 h.z.2
  refine ⟨bx ++ (bY ++ (bz ++ [])), ?_, hwx.seq (hwy.seq (hwz.seq .nil)), ?_⟩
  · simp only [List.length_append, List.length_nil]
    omega
  · intro F _ build out view hmode hsize hahead
    obtain ⟨hx, hrest⟩ := hahead.split
    obtain ⟨hy, hrest⟩ := hrest.split
    obtain ⟨hz, -⟩ := hrest.split
    have hreadx := hrx view hmode hsize hx
    have hready := hry (view.skipBits bx.length) hmode hsize hy
    have hreadz := hrz ((view.skipBits bx.length).skipBits bY.length) hmode hsize hz
    simp only [decodeLeaf, bind, StateT.bind, hreadx, hready, hreadz]
    rfl

/-- The reads of an offset node deliver an offset less than a step below. -/
theorem offset_leaf (kind : OffsetNode) {offset : Vec3 ℝ} (h : InSector offset) :
    ∃ (bits : List Bool) (back : Vec3 ℝ), bits.length ≤ 512
      ∧ BitW.Appends false (kind.writer offset) bits ∧ StepBelow kind.levels offset back
      ∧ ∀ (build : GameBuild) (out : SyncNodeData ℝ) (view : MessageBuffer),
        view.lengthHack = false → view.maxBit ≤ view.data.length * 8 → view.Ahead bits →
          (decodeLeaf kind.name build out view).1.sectorPosition = some back := by
  have hlow : steps 12 = 2 ^ 12 - 1 := by norm_num [steps]
  have hhigh : steps 20 = 2 ^ 20 - 1 := by norm_num [steps]
  cases kind with
  | sector =>
      obtain ⟨bits, back, hlength, hwrite, hread, hnear⟩ :=
        offset_round_trip (show 0 < 12 by decide) (by decide) h
      rw [hlow] at hnear
      refine ⟨bits, back, by omega, hwrite, hnear, ?_⟩
      intro build out view hmode hsize hahead
      show ((readSectorOffset 12).run view).1 = some back
      rw [hread view hmode hsize hahead]
  | object =>
      obtain ⟨bits, back, hlength, hwrite, hread, hnear⟩ :=
        offset_round_trip (show 0 < 20 by decide) (by decide) h
      rw [hhigh] at hnear
      refine ⟨[true] ++ (bits ++ []), back, ?_, (BitW.Appends.bit true).seq (hwrite.seq .nil), hnear,
        ?_⟩
      · simp only [List.length_append, List.length_singleton, List.length_nil]
        omega
      · intro build out view hmode hsize hahead
        rw [List.append_nil] at hahead
        obtain ⟨hbit, hrest⟩ := hahead.bit hsize
        have hoffset := hread { view with curBit := view.curBit + 1 } hmode hsize hrest
        simp only [OffsetNode.name, decodeLeaf, bind, StateT.bind, hbit, if_true, hoffset]
        rfl
  | pedMap =>
      obtain ⟨bits, back, hlength, hwrite, hread, hnear⟩ :=
        offset_round_trip (show 0 < 12 by decide) (by decide) h
      rw [hlow] at hnear
      refine ⟨bits ++ ([false] ++ []), back, ?_, hwrite.seq ((BitW.Appends.bit false).seq .nil),
        hnear, ?_⟩
      · simp only [List.length_append, List.length_singleton, List.length_nil]
        omega
      · intro build out view hmode hsize hahead
        show ((readSectorOffset 12).run view).1 = some back
        rw [hread view hmode hsize hahead.split.1]

/-! ### The position -/

/-- The entities whose tree has the offset node. -/
def usesOffset (entityType : NetObjEntityType) (kind : OffsetNode) : Bool :=
  (treeFor entityType).any (isLeaf kind.name)

/-- A create admits sector and offset, and no other leaf places the entity. -/
structure PlacedBy (entityType : NetObjEntityType) (kind : OffsetNode) (nodes : AuthoredNodes) :
    Prop where
  sector : admittedLeaf (writeContext entityType true nodes) .cSectorDataNode = true
  offset : admittedLeaf (writeContext entityType true nodes) kind.name = true
  soleSector : soleWriter (treeFor entityType) .sector .cSectorDataNode = true
  soleOffset : soleWriter (treeFor entityType) .sectorPosition kind.name = true

theorem placedBy {entityType : NetObjEntityType} {kind : OffsetNode}
    (h : usesOffset entityType kind = true) (nodes : AuthoredNodes) :
    PlacedBy entityType kind nodes := by
  have hall : (!usesOffset entityType kind
      || admittedLeaf (writeContext entityType true []) .cSectorDataNode
        && admittedLeaf (writeContext entityType true []) kind.name
        && soleWriter (treeFor entityType) .sector .cSectorDataNode
        && soleWriter (treeFor entityType) .sectorPosition kind.name) = true := by
    cases entityType <;> cases kind <;> decide +kernel
  rw [h, Bool.not_true, Bool.false_or] at hall
  simp only [Bool.and_eq_true] at hall
  obtain ⟨⟨⟨hsector, hoffset⟩, hsole⟩, hsole'⟩ := hall
  -- the gates do not look at what was authored
  exact ⟨hsector, hoffset, hsole, hsole'⟩

/-- Less than a quantum from the authored position on each axis. -/
structure WithinQuantum (kind : OffsetNode) (position world : Vec3 ℝ) : Prop where
  x : |world.x - position.x| < 54 / kind.levels
  y : |world.y - position.y| < 54 / kind.levels
  z : |world.z - position.z| < 69 / kind.levels

theorem withinQuantum_sectorOf {kind : OffsetNode} {position back : Vec3 ℝ}
    (h : StepBelow kind.levels (sectorOf position).2 back) :
    WithinQuantum kind position (worldPosition (sectorOf position).1 back) := by
  obtain ⟨hx, hy, hz⟩ := worldPosition_sectorOf position back
  have step : ∀ {a b d : ℝ}, 0 ≤ a - b ∧ a - b < d → |b - a| < d := by
    intro a b d hab
    rw [abs_sub_comm, abs_of_nonneg hab.1]
    exact hab.2
  refine ⟨step ?_, step ?_, step ?_⟩
  · rw [hx]
    exact h.x
  · rw [hy]
    exact h.y
  · rw [hz]
    exact h.z

/-- **Authored positions read back.**  For every entity with the offset node and every position
of the encodable world, the create is written, and what is parsed from it places the entity
less than a quantum from the position on each axis.  The same holds of every create that is
written with other nodes beside them. -/
theorem authored_position_reads_back (entityType : NetObjEntityType) (kind : OffsetNode)
    (huses : usesOffset entityType kind = true) (position : Vec3 ℝ) (hworld : InWorld position)
    (lengthHack : Bool) (build : GameBuild) :
    (∃ blob, writeSyncTree entityType true lengthHack build (authorPosition position kind [])
      = some blob) ∧
    ∀ before after : AuthoredNodes, Authored before → Authored after →
      contains before .cSectorDataNode = false → contains before kind.name = false →
      ∀ blob, writeSyncTree entityType true lengthHack build
          (authorPosition position kind before ++ after) = some blob →
        ∃ sector offset,
          (parseSyncTree entityType true blob lengthHack build : SyncNodeData ℝ).sector
              = some sector
            ∧ (parseSyncTree entityType true blob lengthHack build
                : SyncNodeData ℝ).sectorPosition = some offset
            ∧ WithinQuantum kind position (worldPosition sector offset) := by
  obtain ⟨hindexed, hoffset⟩ := sectorOf_spec hworld
  obtain ⟨sectorBits, hsectorShort, hsectorWrites, hsectorReads⟩ := sector_leaf hindexed
  obtain ⟨offsetBits, back, hoffsetShort, hoffsetWrites, hback, hoffsetReads⟩ :=
    offset_leaf kind hoffset
  have hkind : (NodeName.cSectorDataNode == kind.name) = false := by
    cases kind <;> rfl
  refine ⟨?_, ?_⟩
  · have hshort : Short (authorPosition position kind []) := by
      rw [authorPosition_eq]
      exact short_set (short_set (fun node hmem => absurd hmem List.not_mem_nil) hsectorWrites
        hsectorShort) hoffsetWrites hoffsetShort
    exact Option.isSome_iff_exists.mp
      (writeSyncTree_short hshort entityType true lengthHack build)
  · intro before after hbefore hafter hnosector hnooffset blob hw
    rw [authorPosition_eq] at hw
    generalize hwriter : kind.writer (sectorOf position).2 = writer at *
    generalize hsectored : set .cSectorDataNode (sectorWriter (sectorOf position).1) before
      = sectored at *
    have hnew : contains sectored kind.name = false := by
      rw [← hsectored, contains_set, hnooffset, hkind]
      rfl
    have hauthored : Authored (set kind.name writer sectored ++ after) := by
      intro node hmem
      rcases List.mem_append.mp hmem with hmem | hmem
      · rw [← hsectored] at hmem
        exact authored_set (authored_set hbefore hsectorWrites hsectorShort) hoffsetWrites
          hoffsetShort node hmem
      · exact hafter node hmem
    have hplaced := placedBy huses (set kind.name writer sectored ++ after)
    have hsectorBits : payloadBits (set kind.name writer sectored ++ after) .cSectorDataNode
        = sectorBits := by
      rw [SyncWrite.set, List.append_assoc, ← hsectored]
      exact payloadBits_set hnosector hsectorWrites hsectorShort _
    have hoffsetBits := payloadBits_set hnew hoffsetWrites hoffsetShort after
    have hsectorIn : contains (set kind.name writer sectored ++ after) .cSectorDataNode = true := by
      rw [contains_append, contains_set, ← hsectored, contains_set]
      simp
    have hoffsetIn : contains (set kind.name writer sectored ++ after) kind.name = true := by
      rw [contains_append, contains_set]
      simp
    have hsector : Field.Same
        (parseSyncTree entityType true blob lengthHack build : SyncNodeData ℝ)
        { sector := some (sectorOf position).1 } .sector := by
      refine field_read hauthored hw hsectorIn hplaced.sector hplaced.soleSector ?_
      intro out view hmode hsize hahead
      rw [hsectorBits] at hahead
      exact hsectorReads build out view hmode hsize hahead
    have hoffset : Field.Same
        (parseSyncTree entityType true blob lengthHack build : SyncNodeData ℝ)
        { sectorPosition := some back } .sectorPosition := by
      refine field_read hauthored hw hoffsetIn hplaced.offset hplaced.soleOffset ?_
      intro out view hmode hsize hahead
      rw [hoffsetBits] at hahead
      exact hoffsetReads build out view hmode hsize hahead
    exact ⟨(sectorOf position).1, back, hsector, hoffset, withinQuantum_sectorOf hback⟩

/-- At the edge of the world on one axis, just below a sector border on another. -/
noncomputable def edge : Vec3 ℝ := ⟨-1 / 2, -27648, 30⟩

/-- A prop at the edge of the world. -/
theorem prop_reads_back :
    (∃ blob, writeSyncTree .object true true ⟨3095⟩ (authorPosition edge .object []) = some blob) ∧
    ∀ before after : AuthoredNodes, Authored before → Authored after →
      contains before .cSectorDataNode = false →
      contains before OffsetNode.object.name = false →
      ∀ blob, writeSyncTree .object true true ⟨3095⟩
          (authorPosition edge .object before ++ after) = some blob →
        ∃ sector offset,
          (parseSyncTree .object true blob true ⟨3095⟩ : SyncNodeData ℝ).sector = some sector
            ∧ (parseSyncTree .object true blob true ⟨3095⟩ : SyncNodeData ℝ).sectorPosition
              = some offset
            ∧ WithinQuantum .object edge (worldPosition sector offset) := by
  have hworld : InWorld edge := by
    refine ⟨?_, ?_, ?_⟩ <;> norm_num [edge]
  exact authored_position_reads_back .object .object (by decide +kernel) edge hworld true ⟨3095⟩

end Baston.Rage
