/-
The slots of the game and the world grid (`rage/session.rs`).

Both are pairs of tables that say the same thing twice: the slot allocator maps slots to net ids
and back, and the world grid maps every cell to its owner and every owner to its cells.
-/
import Baston.Lib.Map
import Baston.Rage.Scalar

namespace Baston.Rage

open Assoc

/-! ### Slots -/

def GAME_PLAYER_CAP : Nat := 128

/-- Every client is player 31 to itself. -/
def RESERVED_LOCAL_SLOT : UInt8 := 31

structure SlotAllocator where
  /-- Slot to net id. -/
  slots : Map UInt8 UInt32
  /-- Net id to slot. -/
  byNet : Map UInt32 UInt8

namespace SlotAllocator

def new : SlotAllocator := ⟨∅, ∅⟩

/-- The slots in the order in which they are tried. -/
def candidates : List UInt8 := (List.range GAME_PLAYER_CAP).map UInt8.ofNat

/-- The first candidate that is neither reserved nor taken. -/
def firstFree (s : SlotAllocator) : Option UInt8 :=
  candidates.find? fun slot => slot ≠ RESERVED_LOCAL_SLOT ∧ slot ∉ s.slots

def assign (netId : UInt32) (s : SlotAllocator) : Option UInt8 × SlotAllocator :=
  match s.byNet.lookup netId with
  | some existing => (some existing, s)
  | none =>
    match s.firstFree with
    | some slot => (some slot, ⟨s.slots.insert slot netId, s.byNet.insert netId slot⟩)
    | none => (none, s)

def release (netId : UInt32) (s : SlotAllocator) : Option UInt8 × SlotAllocator :=
  match s.byNet.lookup netId with
  | some slot => (some slot, ⟨s.slots.erase slot, s.byNet.erase netId⟩)
  | none => (none, s)

end SlotAllocator

/-! ### The world grid -/

def WORLD_GRID_DIM : Nat := 256

/-- The cells a client may own. -/
def WORLD_GRID_ENTRIES : Nat := 32

/-- No owner. -/
def UNOWNED : UInt16 := 0xFFFF

section Sectors

variable {F : Type} [Scalar F]

def WORLD_OFFSET : F := 8192.0
def WORLD_GRID_CELL : F := 150.0
def WORLD_GRID_CLAIM_RADIUS : F := 299.0

/-- The quotient is not negative, so its floor is what the cast to `usize` makes of it; what is
too large for 32 bits is in the last cell either way. -/
def sectorIndex (coord : F) : Nat :=
  let s := Scalar.floorToU32 (Scalar.max (coord + WORLD_OFFSET) 0.0 / WORLD_GRID_CELL)
  min s.toNat (WORLD_GRID_DIM - 1)

/-- The first and the last sector around a coordinate. -/
def claimRange (coord : F) : Nat × Nat :=
  (sectorIndex (coord - WORLD_GRID_CLAIM_RADIUS), sectorIndex (coord + WORLD_GRID_CLAIM_RADIUS))

end Sectors

structure WorldGridEntry where
  sectorX : UInt8
  sectorY : UInt8
  netId : UInt16
  deriving DecidableEq

/-- The sectors around a focus, on both axes. -/
structure Window where
  minX : Nat
  maxX : Nat
  minY : Nat
  maxY : Nat

namespace Window

/-- The window around a focus. -/
def around {F : Type} [Scalar F] (focusX focusY : F) : Window :=
  let (minX, maxX) := claimRange focusX
  let (minY, maxY) := claimRange focusY
  ⟨minX, maxX, minY, maxY⟩

def covers (w : Window) (x y : Nat) : Bool := w.minX ≤ x && x ≤ w.maxX && w.minY ≤ y && y ≤ w.maxY

/-- `min..=max`. -/
def upTo (min max : Nat) : List Nat := List.range' min (max + 1 - min)

def columns (w : Window) : List Nat := upTo w.minX w.maxX
def rows (w : Window) : List Nat := upTo w.minY w.maxY

end Window

structure WorldGrid where
  /-- The owner of every cell, by its index. -/
  accel : Nat → UInt16
  /-- Net id to the cells it owns. -/
  slices : Map UInt16 (List WorldGridEntry)

namespace WorldGrid

def new : WorldGrid := ⟨fun _ => UNOWNED, ∅⟩

def idx (x y : Nat) : Nat := x * WORLD_GRID_DIM + y

def ownerOf (x y : Nat) (g : WorldGrid) : Option UInt16 :=
  if g.accel (idx x y) = UNOWNED then none else some (g.accel (idx x y))

def ownedCells (netId : UInt16) (g : WorldGrid) : List WorldGridEntry :=
  (g.slices.lookup netId).getD []

/-- The entry is about the cell. -/
def isAt (x y : Nat) (e : WorldGridEntry) : Bool := e.sectorX.toNat = x ∧ e.sectorY.toNat = y

/-- A cell is given up, if it is the client's. -/
def disown (netId : UInt16) (accel : Nat → UInt16) (e : WorldGridEntry) : Nat → UInt16 :=
  let i := idx e.sectorX.toNat e.sectorY.toNat
  if accel i = netId then Function.update accel i UNOWNED else accel

/-- The table and the slice while cells are claimed. -/
abbrev Claim := (Nat → UInt16) × List WorldGridEntry

/-- A cell that has no owner is claimed, and one that is already the client's is listed. -/
def claimCell (netId : UInt16) (x y : Nat) (s : Claim) : Claim :=
  let (accel, kept) := s
  let i := idx x y
  let entry : WorldGridEntry := ⟨.ofNat x, .ofNat y, netId⟩
  if accel i = UNOWNED then (Function.update accel i netId, kept ++ [entry])
  else if accel i = netId ∧ ¬ kept.any (isAt x y) then (accel, kept ++ [entry])
  else (accel, kept)

/-- The cells of a column, until the slice is full. -/
def claimColumn (netId : UInt16) (x : Nat) : List Nat → Claim → Claim
  | [], s => s
  | y :: ys, s =>
    if s.2.length ≥ WORLD_GRID_ENTRIES then s else claimColumn netId x ys (claimCell netId x y s)

def claimAll (netId : UInt16) (w : Window) (s : Claim) : Claim :=
  w.columns.foldl (fun s x => claimColumn netId x w.rows s) s

/-- The client's cells are those of its new window that it has or can get. -/
def updateWindow (netId : UInt16) (w : Window) (g : WorldGrid) : Bool × WorldGrid :=
  let previous := g.ownedCells netId
  let inside := fun e : WorldGridEntry => w.covers e.sectorX.toNat e.sectorY.toNat
  let accel := (previous.filter fun e => !inside e).foldl (disown netId) g.accel
  let (accel, kept) := claimAll netId w (accel, previous.filter inside)
  (kept ≠ previous, ⟨accel, g.slices.insert netId kept⟩)

def updateFocus {F : Type} [Scalar F] (netId : UInt16) (focusX focusY : F) (g : WorldGrid) :
    Bool × WorldGrid :=
  g.updateWindow netId (.around focusX focusY)

def removeClient (netId : UInt16) (g : WorldGrid) : WorldGrid :=
  match g.slices.lookup netId with
  | some cells => ⟨cells.foldl (disown netId) g.accel, g.slices.erase netId⟩
  | none => g

end WorldGrid

end Baston.Rage
