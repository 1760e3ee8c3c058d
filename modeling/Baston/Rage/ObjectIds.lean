/-
The object-id grant packet (`rage/object_ids.rs`) and the reliability packets a
client answers the clone stream with (`rage/reliability.rs`).
-/
import Baston.Rage.Packet

namespace Baston.Rage

/-! ### Object-id grants -/

namespace ObjectIds

/-- `HashRageString("msgObjectIds")`: server to client id grant. -/
def msgObjectIds : UInt32 :=
  hashRageString (ascii ['m', 's', 'g', 'O', 'b', 'j', 'e', 'c', 't', 'I', 'd', 's'])

/-- Ids handed out per request. -/
def idsPerRequest (bigMode : Bool) : Nat := if bigMode then 6 else 32

/-- `(id as i32 - 2 - last) as u16`. -/
def gapAfter (last : Int) (id : UInt16) : UInt16 := UInt16.ofInt (id.toNat - 2 - last)

/-- The rest of a run that started with `gap`, reached `prev` and is `size` ids longer
than one, and the runs after it. -/
def compressRun (gap size prev : UInt16) : List UInt16 → List (UInt16 × UInt16)
  | [] => [(gap, size)]
  | id :: rest =>
    if id = prev + 1 then compressRun gap (size + 1) id rest
    else (gap, size) :: compressRun (gapAfter prev.toNat id) 0 id rest

/-- Run-length compress a sorted id list into `(gap, size)` entries. -/
def compress : List UInt16 → List (UInt16 × UInt16)
  | [] => []
  | id :: rest => compressRun (gapAfter (-1) id) 0 id rest

/-- `[u32 type][u16 count][(u16 gap, u16 size)...]`. -/
def buildObjectIds (ids : List UInt16) : List UInt8 :=
  let entries := compress ids
  leBytes 4 msgObjectIds.toNat ++ leBytes 2 (UInt16.ofNat entries.length).toNat
    ++ entries.flatMap fun entry => leBytes 2 entry.1.toNat ++ leBytes 2 entry.2.toNat

end ObjectIds

/-! ### Reliability -/

/-- An entity the client could not apply, and the frame it wants resent from. -/
structure IgnoreEntry where
  objectId : UInt16
  lastFrame : UInt64
  deriving DecidableEq

/-- `gameStateNAck`: what the client missed. -/
structure GameStateNAck where
  flags : UInt8 := 0
  frameIndex : UInt64 := 0
  /-- The first and last missing frame. -/
  missingFrames : Option (UInt64 × UInt64) := none
  ignoreList : List IgnoreEntry := []
  recreateList : List UInt16 := []
  deriving DecidableEq

/-- `gameStateAck`: a positive ack with the entities still broken. -/
structure GameStateAck where
  frameIndex : UInt64 := 0
  ignoreList : List IgnoreEntry := []
  recreateList : List UInt16 := []
  deriving DecidableEq

end Baston.Rage
