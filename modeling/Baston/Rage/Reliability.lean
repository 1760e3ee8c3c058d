/-
The reliability packets (`rage/reliability.rs`) and the id grants (`rage/object_ids.rs`) as they
are parsed.

Both are little-endian bytes behind a cursor that is checked at every step: a range that is not
there ends the parse, and a sum that does not fit a word is a fault.
-/
import Baston.Lib.Checked
import Baston.Rage.ObjectIds

namespace Baston.Rage

/-- `u16::from_le_bytes`. -/
def u16FromLe (bytes : List UInt8) : UInt16 :=
  UInt16.ofNat (bytes.foldr (fun b acc => b.toNat + 256 * acc) 0)

/-! ### The byte cursor -/

/-- Little-endian byte cursor over a payload. -/
structure Reader where
  buf : List UInt8
  off : Nat

/-- A reader that may find the payload too short. -/
abbrev ReadM := OptionT (StateT Reader Checked)

namespace Reader

def u8 : ReadM UInt8 := OptionT.mk fun r =>
  match r.buf[r.off]? with
  | none => pure (none, r)
  | some v => do
    let off ← Checked.add r.off 1
    pure (some v, { r with off })

/-- `buf.get(off..off + n)?`, and past it. -/
def take (n : Nat) : ReadM (List UInt8) := OptionT.mk fun r => do
  let stop ← Checked.add r.off n
  match Checked.get r.buf r.off stop with
  | none => pure (none, r)
  | some bytes =>
    let off ← Checked.add r.off n
    pure (some bytes, { r with off })

section Steps

variable {r : Reader}

theorem run_u8_none (h : r.buf[r.off]? = none) : u8.run r = .ok (none, r) := by
  simp only [u8, OptionT.run_mk]
  rw [h]
  rfl

theorem run_u8_some {v : UInt8} (h : r.buf[r.off]? = some v) (hoff : r.off + 1 < Checked.words) :
    u8.run r = .ok (some v, { r with off := r.off + 1 }) := by
  simp only [u8, OptionT.run_mk]
  rw [h]
  simp only
  rw [Checked.add_eq hoff]
  rfl

theorem run_take_none {n : Nat} (hoff : r.off + n < Checked.words)
    (h : Checked.get r.buf r.off (r.off + n) = none) : (take n).run r = .ok (none, r) := by
  show (Checked.add r.off n >>= _) = _
  rw [Checked.add_eq hoff, Checked.ok_bind, h]
  rfl

theorem run_take_some {n : Nat} {bytes : List UInt8} (hoff : r.off + n < Checked.words)
    (h : Checked.get r.buf r.off (r.off + n) = some bytes) :
    (take n).run r = .ok (some bytes, { r with off := r.off + n }) := by
  show (Checked.add r.off n >>= _) = _
  rw [Checked.add_eq hoff, Checked.ok_bind, h]
  simp only
  rw [Checked.ok_bind]
  rfl

end Steps

def u16 : ReadM UInt16 := do
  let bytes ← take 2
  pure (u16FromLe bytes)

def u64 : ReadM UInt64 := do
  let bytes ← take 8
  pure (u64FromLe bytes)

/-- One element after the other. -/
def times {α : Type} : Nat → ReadM α → ReadM (List α)
  | 0, _ => pure []
  | n + 1, m => do
    let a ← m
    let rest ← times n m
    pure (a :: rest)

def ignoreList : ReadM (List IgnoreEntry) := do
  let count ← u8
  times count.toNat do
    let objectId ← u16
    let lastFrame ← u64
    pure ⟨objectId, lastFrame⟩

def recreateList : ReadM (List UInt16) := do
  let count ← u8
  times count.toNat u16

/-- What a reader makes of a payload. -/
def parse {α : Type} (m : ReadM α) (payload : List UInt8) : Checked (Option α) := do
  let (a, _) ← m.run ⟨payload, 0⟩
  pure a

end Reader

/-! ### Reliability -/

namespace GameStateNAck

def isMissingFrames : UInt8 := (1 : UInt8) <<< 0
def hasIgnoreList : UInt8 := (1 : UInt8) <<< 1
def hasRecreateList : UInt8 := (1 : UInt8) <<< 2

end GameStateNAck

open GameStateNAck in
/-- Parse a `gameStateNAck` payload. -/
def parseNack : List UInt8 → Checked (Option GameStateNAck) := Reader.parse do
  let flags ← Reader.u8
  let frameIndex ← Reader.u64
  let missingFrames ←
    if flags &&& isMissingFrames ≠ 0 then do
      let first ← Reader.u64
      let last ← Reader.u64
      pure (some (first, last))
    else pure none
  let ignoreList ← if flags &&& hasIgnoreList ≠ 0 then Reader.ignoreList else pure []
  let recreateList ← if flags &&& hasRecreateList ≠ 0 then Reader.recreateList else pure []
  pure ⟨flags, frameIndex, missingFrames, ignoreList, recreateList⟩

/-- Parse a `gameStateAck` payload. -/
def parseAck : List UInt8 → Checked (Option GameStateAck) := Reader.parse do
  let frameIndex ← Reader.u64
  let ignoreList ← Reader.ignoreList
  let recreateList ← Reader.recreateList
  pure ⟨frameIndex, ignoreList, recreateList⟩

/-- An entry of an ignore list as it is packed. -/
def IgnoreEntry.bytes (e : IgnoreEntry) : List UInt8 :=
  leBytes 2 e.objectId.toNat ++ leBytes 8 e.lastFrame.toNat

open GameStateNAck in
/-- Build a `gameStateNAck` payload, without the message type. -/
def buildNack (nack : GameStateNAck) : List UInt8 :=
  let out := [nack.flags] ++ leBytes 8 nack.frameIndex.toNat
  let out := out ++ match nack.missingFrames with
    | some (first, last) => leBytes 8 first.toNat ++ leBytes 8 last.toNat
    | none => []
  let out := out ++
    if nack.flags &&& hasIgnoreList ≠ 0 then
      UInt8.ofNat nack.ignoreList.length :: nack.ignoreList.flatMap IgnoreEntry.bytes
    else []
  out ++
    if nack.flags &&& hasRecreateList ≠ 0 then
      UInt8.ofNat nack.recreateList.length
        :: nack.recreateList.flatMap fun id => leBytes 2 id.toNat
    else []

/-! ### Object-id grants -/

namespace ObjectIds

/-- `a + b` in 16 bits. -/
def addU16 (a b : UInt16) : Checked UInt16 :=
  if a.toNat + b.toNat < 2 ^ 16 then .ok (a + b) else .error .overflow

/-- `a - b` in 32 bits with a sign. -/
def subI32 (a b : Int) : Checked Int :=
  if -2 ^ 31 ≤ a - b ∧ a - b < 2 ^ 31 then .ok (a - b) else .error .overflow

/-- `(id as i32 - 2 - last) as u16`, where the cast cuts off. -/
def checkedGap (last : Int) (id : UInt16) : Checked UInt16 := do
  let gap ← subI32 id.toNat 2
  let gap ← subI32 gap last
  pure (.ofInt gap)

/-- `compressRun`, with its arithmetic checked. -/
def checkedRun (gap size prev : UInt16) : List UInt16 → Checked (List (UInt16 × UInt16))
  | [] => pure [(gap, size)]
  | id :: rest => do
    let next ← addU16 prev 1
    if id = next then
      let size ← addU16 size 1
      checkedRun gap size id rest
    else
      let gap' ← checkedGap prev.toNat id
      let entries ← checkedRun gap' 0 id rest
      pure ((gap, size) :: entries)

/-- `compress`, with its arithmetic checked. -/
def checkedCompress : List UInt16 → Checked (List (UInt16 × UInt16))
  | [] => pure []
  | id :: rest => do
    let gap ← checkedGap (-1) id
    checkedRun gap 0 id rest

/-- `n` consecutive ids from `last` on, and the one behind them. -/
def emit : Nat → UInt16 → List UInt16 × UInt16
  | 0, last => ([], last)
  | n + 1, last =>
    let (ids, stop) := emit n (last + 1)
    (last :: ids, stop)

/-- Decompress `(gap, size)` entries behind the id `last`. -/
def decompress (last : UInt16) : List (UInt16 × UInt16) → List UInt16
  | [] => []
  | (gap, size) :: rest =>
    let (ids, stop) := emit (size.toNat + 1) (last + (gap + 1))
    ids ++ decompress stop rest

/-- `count` entries of four bytes from `off` on. -/
def readEntries (payload : List UInt8) : Nat → Nat → Checked (Option (List (UInt16 × UInt16)))
  | 0, _ => pure (some [])
  | count + 1, off => do
    let mid ← Checked.add off 2
    match Checked.get payload off mid with
    | none => pure none
    | some gap =>
      let start ← Checked.add off 2
      let stop ← Checked.add off 4
      match Checked.get payload start stop with
      | none => pure none
      | some size =>
        let next ← Checked.add off 4
        let rest ← readEntries payload count next
        pure (rest.map fun rest => (u16FromLe gap, u16FromLe size) :: rest)

/-- Parse a `msgObjectIds` payload. -/
def parseObjectIds (payload : List UInt8) : Checked (Option (List UInt16)) :=
  if payload.length < 2 then pure none
  else do
    let head ← Checked.slice payload 0 2
    let entries ← readEntries payload (u16FromLe head).toNat 2
    pure (entries.map (decompress 0))

end ObjectIds

end Baston.Rage
