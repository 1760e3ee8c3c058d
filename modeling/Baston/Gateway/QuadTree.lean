/-
The spatial index of the zones (`quadtree.rs`).

A node keeps the boxes that fit into none of its quadrants.  It is subdivided when it gets
full, down to `maxDepth`, and the type of a node says how many subdivisions are left below
it, so a tree that is too deep cannot be built.
-/
import Baston.Zone.Spatial

namespace Baston.Gateway

open Baston.Rage Baston.Zone

variable {F : Type}

def maxDepth : Nat := 8
def nodeCapacity : Nat := 4

/-- A node that may be subdivided `room` more times; its `depth` is `maxDepth - room`. -/
inductive Node (F : Type) : Nat → Type
  | leaf {room : Nat} (bounds : Aabb F) (items : List (ZoneId × Aabb F)) : Node F room
  | branch {room : Nat} (bounds : Aabb F) (items : List (ZoneId × Aabb F))
      (children : Fin 4 → Node F room) : Node F (room + 1)

namespace Node

variable {room : Nat}

def new (bounds : Aabb F) : Node F room := .leaf bounds []

def bounds : Node F room → Aabb F
  | .leaf bounds _ | .branch bounds _ _ => bounds

def quadrants [Scalar F] (b : Aabb F) : Fin 4 → Aabb F :=
  let (cx, cy) := b.center
  fun
    | 0 => ⟨b.xMin, b.yMin, cx, cy⟩
    | 1 => ⟨cx, b.yMin, b.xMax, cy⟩
    | 2 => ⟨b.xMin, cy, cx, b.yMax⟩
    | 3 => ⟨cx, cy, b.xMax, b.yMax⟩

/-- The box fits entirely into the quadrant. -/
def fits [Scalar F] (box q : Aabb F) : Bool :=
  Scalar.le q.xMin box.xMin && Scalar.le box.xMax q.xMax
    && Scalar.le q.yMin box.yMin && Scalar.le box.yMax q.yMax

/-- The part of `insert` that is left once a node has children: the box goes to the first
child it fits into, or stays here. -/
def sink [Scalar F] (insertBelow : ZoneId → Aabb F → Node F room → Node F room)
    (item : ZoneId × Aabb F) : Node F (room + 1) → Node F (room + 1)
  | .leaf bounds items => .leaf bounds (items ++ [item])
  | .branch bounds items children =>
    match (List.finRange 4).find? fun i => fits item.2 (children i).bounds with
    | some i =>
      .branch bounds items fun j =>
        if j = i then insertBelow item.1 item.2 (children j) else children j
    | none => .branch bounds (items ++ [item]) children

def insert [Scalar F] : {room : Nat} → ZoneId → Aabb F → Node F room → Node F room
  | 0, id, box, .leaf bounds items => .leaf bounds (items ++ [(id, box)])
  | _ + 1, id, box, .leaf bounds items =>
    if nodeCapacity ≤ items.length then
      -- subdivide, and sink again the items that now fit a child
      let node := items.foldl (fun node item => sink insert item node)
        (.branch bounds [] fun i => .new (quadrants bounds i))
      sink insert (id, box) node
    else .leaf bounds (items ++ [(id, box)])
  | _ + 1, id, box, .branch bounds items children =>
    sink insert (id, box) (.branch bounds items children)

/-- Drop the first item of that name; the answer says whether there was one. -/
def remove (id : ZoneId) : {room : Nat} → Node F room → Node F room × Bool
  | _, .leaf bounds items =>
    if items.any (fun item => item.1 = id) then
      (.leaf bounds (items.eraseP fun item => item.1 = id), true)
    else (.leaf bounds items, false)
  | _, .branch bounds items children =>
    if items.any (fun item => item.1 = id) then
      (.branch bounds (items.eraseP fun item => item.1 = id) children, true)
    else
      -- children asked before the one that has it answer no and stay as they are
      match (List.finRange 4).find? fun i => (remove id (children i)).2 with
      | some i =>
        (.branch bounds items fun j =>
          if j = i then (remove id (children j)).1 else children j, true)
      | none => (.branch bounds items children, false)

def queryPoint [Scalar F] (x y : F) : {room : Nat} → Node F room → List ZoneId
  | _, .leaf _ items => (items.filter fun item => item.2.contains x y).map Prod.fst
  | _, .branch _ items children =>
    ((items.filter fun item => item.2.contains x y).map Prod.fst)
      ++ (List.finRange 4).flatMap fun i =>
        if (children i).bounds.contains x y then queryPoint x y (children i) else []

def queryAabb [Scalar F] (area : Aabb F) : {room : Nat} → Node F room → List ZoneId
  | _, .leaf _ items => (items.filter fun item => item.2.intersects area).map Prod.fst
  | _, .branch _ items children =>
    ((items.filter fun item => item.2.intersects area).map Prod.fst)
      ++ (List.finRange 4).flatMap fun i =>
        if (children i).bounds.intersects area then queryAabb area (children i) else []

end Node

/-- `QuadTree`, with its root at depth 0. -/
structure QuadTree (F : Type) where
  root : Node F maxDepth

namespace QuadTree

def new (bounds : Aabb F) : QuadTree F := ⟨.new bounds⟩

/-- The plane of the map. -/
def gtaV [Scalar F] : QuadTree F := .new ⟨-4000.0, -4000.0, 4000.0, 4000.0⟩

def remove (zoneId : ZoneId) (t : QuadTree F) : QuadTree F × Bool :=
  let (root, found) := t.root.remove zoneId
  (⟨root⟩, found)

/-- Registering a zone again replaces its box. -/
def insert [Scalar F] (zoneId : ZoneId) (bounds : Aabb F) (t : QuadTree F) : QuadTree F :=
  ⟨(t.remove zoneId).1.root.insert zoneId bounds⟩

/-- The first zone whose bounds contain the point. -/
def queryPoint [Scalar F] (x y : F) (t : QuadTree F) : Option ZoneId :=
  (t.root.queryPoint x y).head?

/-- All zones that intersect the rectangle. -/
def queryAabb [Scalar F] (area : Aabb F) (t : QuadTree F) : List ZoneId :=
  t.root.queryAabb area

end QuadTree

/-! ### The node as it is stored -/

/-- A node that says its depth instead of how much room is left below it. -/
inductive RawNode (F : Type)
  | leaf (bounds : Aabb F) (items : List (ZoneId × Aabb F)) (depth : Nat)
  | branch (bounds : Aabb F) (items : List (ZoneId × Aabb F)) (children : Fin 4 → RawNode F)
      (depth : Nat)

namespace RawNode

def bounds : RawNode F → Aabb F
  | .leaf bounds _ _ | .branch bounds _ _ _ => bounds

/-- The insertion with nothing to keep it from calling itself for ever: `none` is a call that has
used up its turns.  Sinking the items of a full node calls it on the node itself. -/
def insert [Scalar F] : Nat → ZoneId → Aabb F → RawNode F → Option (RawNode F)
  | 0, _, _, _ => none
  | turns + 1, id, box, node => do
    let node ← match node with
      | .leaf bounds items depth =>
        if nodeCapacity ≤ items.length ∧ depth < maxDepth then
          items.foldlM (fun node item => insert turns item.1 item.2 node)
            (.branch bounds [] (fun i => .leaf (Node.quadrants bounds i) [] (depth + 1)) depth)
        else some (.leaf bounds items depth)
      | .branch bounds items children depth => some (.branch bounds items children depth)
    match node with
    | .leaf bounds items depth => some (.leaf bounds (items ++ [(id, box)]) depth)
    | .branch bounds items children depth =>
      match (List.finRange 4).find? fun i => Node.fits box (children i).bounds with
      | some i =>
        let child ← insert turns id box (children i)
        some (.branch bounds items (fun j => if j = i then child else children j) depth)
      | none => some (.branch bounds (items ++ [(id, box)]) children depth)

end RawNode

end Baston.Gateway
