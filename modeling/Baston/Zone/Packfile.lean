/-
The packfile writer (`packfile.rs`).

An archive is a header, a table of entries, their names, and the contents of the files.  The
children of a directory stand in the table side by side, and its entry says where they start
and how many they are.  Strings are the bytes that spell them.
-/
import Baston.Lib.Layout
import Baston.Lib.Sorted
import Baston.Rage.Packet
import Mathlib.Data.List.Sort
import Mathlib.Algebra.GroupWithZero.Nat

namespace Baston.Zone.Packfile

open Layout Baston.Rage

/-- A string, in UTF-8. -/
abbrev Name := List UInt8

/-- The order of bytes, which is that of strings. -/
local instance byteOrder : LinearOrder UInt8 where
  le_refl := UInt8.le_refl
  le_trans _ _ _ := UInt8.le_trans
  le_antisymm _ _ := UInt8.le_antisymm
  le_total := UInt8.le_total
  lt_iff_le_not_ge a b := by
    rw [UInt8.lt_iff_toNat_lt, UInt8.le_iff_toNat_le, UInt8.le_iff_toNat_le]
    omega
  toDecidableLE := inferInstance
  toDecidableEq := inferInstance
  toDecidableLT := inferInstance

def RPF2_MAGIC : UInt32 := 0x32465052
def ALIGNMENT : Nat := 2048
def DIRECTORY_FLAG : UInt32 := 0x80000000

/-- The slash, and the backslash. -/
def slash : UInt8 := 47
def backslash : UInt8 := 92

/-- A file to pack: its path and its contents. -/
structure PackfileInput where
  path : Name
  data : List UInt8

/-! ### The tree of directories -/

inductive DirNode
  | mk (dirs : List (Name × DirNode)) (files : List (Name × List UInt8))

namespace DirNode

def dirs : DirNode → List (Name × DirNode)
  | .mk dirs _ => dirs

def files : DirNode → List (Name × List UInt8)
  | .mk _ files => files

/-- `DirNode::default()`. -/
def empty : DirNode := .mk [] []

/-- `split_once('/')`. -/
def splitOnce : Name → Option (Name × Name)
  | [] => none
  | b :: rest =>
    if b = slash then some ([], rest) else (splitOnce rest).map fun p => (b :: p.1, p.2)

theorem splitOnce_shorter {path : Name} {p : Name × Name} (h : splitOnce path = some p) :
    p.2.length < path.length := by
  induction path generalizing p with
  | nil => cases h
  | cons b rest ih =>
      rw [splitOnce] at h
      split at h
      · obtain rfl := Option.some.inj h
        exact Nat.lt_succ_self _
      · obtain ⟨q, hq, heq⟩ := Option.map_eq_some_iff.mp h
        have hshorter := ih hq
        rw [← heq]
        exact Nat.lt_succ_of_lt hshorter

/-- What has something behind its first slash goes below; the rest is a file here. -/
def insert (path : Name) (data : List UInt8) (node : DirNode) : DirNode :=
  match _h : splitOnce path with
  | some (dir, rest) =>
    if rest ≠ [] then
      .mk (Sorted.alter dir (fun below => insert rest data (below.getD empty)) node.dirs) node.files
    else .mk node.dirs (Sorted.alter path (fun _ => data) node.files)
  | none => .mk node.dirs (Sorted.alter path (fun _ => data) node.files)
termination_by path.length
decreasing_by exact splitOnce_shorter _h

/-- Directories and files share one order; a directory stands before the file of its name. -/
def children (node : DirNode) : List (Name × (DirNode ⊕ List UInt8)) :=
  let dirs := node.dirs.map fun d => (d.1, Sum.inl d.2)
  let files := node.files.map fun f => (f.1, Sum.inr f.2)
  (dirs ++ files).insertionSort fun a b => a.1 ≤ b.1

mutual

/-- The directories of a tree, itself among them. -/
def dirCount : DirNode → Nat
  | .mk dirs _ => 1 + dirCountList dirs

def dirCountList : List (Name × DirNode) → Nat
  | [] => 0
  | (_, node) :: rest => dirCount node + dirCountList rest

end

end DirNode

/-! ### The table -/

/-- An entry of the table under construction. -/
inductive TocEntry
  | dir (name : Name) (childCount firstChild : UInt32)
  | file (name : Name) (data : List UInt8)
  deriving DecidableEq

namespace TocEntry

def name : TocEntry → Name
  | .dir name _ _ | .file name _ => name

/-- A child as it is entered: a directory does not know its own children yet. -/
def ofChild : Name × (DirNode ⊕ List UInt8) → TocEntry
  | (name, .inl _) => .dir name 0 0
  | (name, .inr data) => .file name data

/-- A directory learns where its children are. -/
def setChildren (childCount firstChild : UInt32) : TocEntry → TocEntry
  | .dir name _ _ => .dir name childCount firstChild
  | .file name data => .file name data

end TocEntry

/-- The directories among the children that are entered from index `first` on. -/
def subDirs (first : Nat) (children : List (Name × (DirNode ⊕ List UInt8))) :
    List (Nat × DirNode) :=
  (children.zipIdx first).filterMap fun p =>
    match p.1.2 with
    | .inl node => some (p.2, node)
    | .inr _ => none

/-- One turn for every directory whose children are pending, the last of the stack first. -/
def flattenLoop : Nat → List TocEntry → List (Nat × DirNode) → Option (List TocEntry)
  | _, entries, [] => some entries
  | 0, _, _ :: _ => none
  | turns + 1, entries, (dirIndex, node) :: pending =>
    let children := node.children
    let entries' := entries.modify dirIndex
      (.setChildren (.ofNat children.length) (.ofNat entries.length))
    flattenLoop turns (entries' ++ children.map .ofChild)
      (subDirs entries.length children ++ pending)

/-- The root, then each directory's children as one block. -/
def flatten (root : DirNode) : Option (List TocEntry) :=
  flattenLoop root.dirCount [.dir [] 0 0] [(0, root)]

/-! ### The archive -/

def padTo (buf : List UInt8) (alignment : Nat) : List UInt8 :=
  let rem := buf.length % alignment
  if rem ≠ 0 then buf ++ List.replicate (alignment - rem) 0 else buf

/-- A path with slashes only, and none in front. -/
def normalised (path : Name) : Name :=
  (path.map fun b => if b = backslash then slash else b).dropWhile (· = slash)

/-- A file goes into the tree, if there is a path left of its own. -/
def addFile (root : DirNode) (file : PackfileInput) : DirNode :=
  let path := normalised file.path
  if path = [] then root else root.insert path file.data

def rootOf (files : List PackfileInput) : DirNode := files.foldl addFile .empty

def header (numEntries : Nat) : List UInt8 :=
  padTo (leBytes 4 RPF2_MAGIC.toNat ++ leBytes 4 0 ++ leBytes 4 (UInt32.ofNat numEntries).toNat
    ++ leBytes 4 0 ++ leBytes 4 0) ALIGNMENT

/-- A record of the table, with zeros where something is still to be written. -/
def record : TocEntry → List UInt8
  | .dir _ childCount firstChild => leBytes 4 0 ++ leBytes 4 childCount.toNat
      ++ leBytes 4 (firstChild ||| DIRECTORY_FLAG).toNat ++ leBytes 4 childCount.toNat
  | .file _ _ => leBytes 4 0 ++ leBytes 4 0 ++ leBytes 4 0 ++ leBytes 4 0

/-- The name of entry `i` goes to the end, and its place into the table. -/
def writeName (tocStart namesBase : Nat) (buf : List UInt8) (p : TocEntry × Nat) : List UInt8 :=
  let nameOff := if p.2 = 0 then 0 else UInt32.ofNat (buf.length - namesBase)
  let buf := patch buf (tocStart + p.2 * 16) (leBytes 4 nameOff.toNat)
  if p.2 ≠ 0 then buf ++ p.1.name ++ [0] else buf

/-- The contents of file `i` go to the end, and their place and length into the table. -/
def writeData (tocStart : Nat) (buf : List UInt8) (p : TocEntry × Nat) : List UInt8 :=
  match p.1 with
  | .dir _ _ _ => buf
  | .file _ data =>
    let record := tocStart + p.2 * 16
    let offset := UInt32.ofNat buf.length
    let len := UInt32.ofNat data.length
    let buf := patch buf (record + 4) (leBytes 4 len.toNat)
    let buf := patch buf (record + 8) (leBytes 4 offset.toNat)
    let buf := patch buf (record + 12) (leBytes 4 len.toNat)
    padTo (buf ++ data) ALIGNMENT

/-- The header, the table and the names. -/
def tocOf (entries : List TocEntry) : List UInt8 :=
  let head := header entries.length
  let table := head ++ entries.flatMap record
  let named := entries.zipIdx.foldl (writeName head.length table.length) (table ++ [slash, 0])
  let padded := padTo named ALIGNMENT
  patch padded 4 (leBytes 4 (UInt32.ofNat padded.length).toNat)

/-- The archive of a table. -/
def layOut (entries : List TocEntry) : List UInt8 :=
  entries.zipIdx.foldl (writeData (header entries.length).length) (tocOf entries)

/-- `build_rpf`; `none` when the table takes more turns than the tree has directories. -/
def buildRpf (files : List PackfileInput) : Option (List UInt8) :=
  (flatten (rootOf files)).map layOut

/-! ### The generated `fxmanifest.lua` -/

/-- What an archive needs of a `manifest.json`. -/
structure ResourceManifest where
  clientScripts : List Name
  files : List Name
  deriving DecidableEq

/-- The bytes of a literal. -/
def literal (text : String) : Name := text.toUTF8.data.toList

/-- Each item in quotes on a line of its own, with slashes only. -/
def luaList (items : List Name) : Name :=
  (literal ",\n").intercalate (items.map fun item =>
    literal "    '" ++ (item.map fun b => if b = backslash then slash else b) ++ literal "'")

/-- `generate_fxmanifest`. -/
def generateFxmanifest (manifest : ResourceManifest) : Name :=
  let block (head : String) (items : List Name) : Name :=
    if items ≠ [] then literal head ++ luaList items ++ literal "\n\x7d\n" else []
  literal "-- generated by BASTON from manifest.json\n"
    ++ literal "fx_version 'cerulean'\ngame 'gta5'\n\n"
    ++ block "client_scripts \x7b\n" manifest.clientScripts
    ++ block "files \x7b\n" manifest.files

/-! ### Reading an archive -/

/-- An entry as it is read. -/
inductive Item
  | dir (name : Name) (childCount firstChild : Nat)
  | file (name : Name) (offset length : Nat)
  deriving DecidableEq

def u32At (buf : List UInt8) (off : Nat) : UInt32 := u32FromLe ((buf.drop off).take 4)

/-- The number of entries, which the header says. -/
def entryCount (archive : List UInt8) : Nat := (u32At archive 8).toNat

/-- Entry `i` of the table; its name ends at a zero. -/
def readItem (archive : List UInt8) (i : Nat) : Item :=
  let record := ALIGNMENT + i * 16
  let namesBase := ALIGNMENT + entryCount archive * 16
  let name := (archive.drop (namesBase + (u32At archive record).toNat)).takeWhile (· ≠ 0)
  let length := (u32At archive (record + 4)).toNat
  let place := u32At archive (record + 8)
  if place &&& DIRECTORY_FLAG ≠ 0 then .dir name length (place &&& 0x7FFFFFFF).toNat
  else .file name place.toNat length

/-- The files below a directory by their paths, down to a depth. -/
def walk (archive : List UInt8) : Nat → Nat → Option (List (Name × List UInt8))
  | 0, _ => none
  | depth + 1, i =>
    match readItem archive i with
    | .file _ _ _ => none
    | .dir _ childCount firstChild => do
      let parts ← (List.range' firstChild childCount).mapM fun child =>
        match readItem archive child with
        | .file name offset length => some [(name, (archive.drop offset).take length)]
        | .dir name _ _ => do
          let below ← walk archive depth child
          return below.map fun p => (name ++ slash :: p.1, p.2)
      return parts.flatten

/-- The files of an archive, from its root. -/
def readRpf (archive : List UInt8) : Option (List (Name × List UInt8)) :=
  walk archive (entryCount archive) 0

end Baston.Zone.Packfile
