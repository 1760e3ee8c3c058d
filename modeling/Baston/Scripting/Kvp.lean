/-
Persistent per-resource key/value storage (`kvp.rs`).

The values live in one flat map and on disk in one JSON object for each resource, which a
flush writes to a temporary file and renames into place.  A call of `set`, `remove` or
`flush` is several atomic steps, and the steps of other calls may come between them: the
map has its own locks, the dirty mark is an atomic, and nothing orders two flushes.
-/
import Mathlib.Data.Char
import Mathlib.Data.List.Lex
import Baston.Lib.Trace
import Baston.Lib.WriteLog

namespace Baston.Scripting

open Assoc

/-- A string, as its characters. -/
abbrev Text := List Char

/-- Separator between the resource name and the key in the flat map. -/
def separator : Char := Char.ofNat 0

def flatKey (resource key : Text) : Text := resource ++ separator :: key

/-- The text before the first separator, and what is after it. -/
def splitOnce : Text → Option (Text × Text)
  | [] => none
  | c :: rest =>
    if c = separator then some ([], rest) else (splitOnce rest).map fun p => (c :: p.1, p.2)

def resourceOf (flat : Text) : Option Text := (splitOnce flat).map (·.1)

def keyOf (flat : Text) : Option Text := (splitOnce flat).map (·.2)

/-- The JSON document: for each resource its keys and values. -/
abbrev KvpFile := Map Text (Map Text Text)

/-- The order a `BTreeMap` is visited in. -/
def IterOrder.sorted : IterOrder Text := ⟨fun l => l.mergeSort, fun l => List.mergeSort_perm l _⟩

/-- File one value of a snapshot under its resource. -/
def fileUnder (file : KvpFile) (entry : Text × Text) : KvpFile :=
  match resourceOf entry.1, keyOf entry.1 with
  | some resource, some key =>
    file.insert resource (((file.lookup resource).getD ∅).insert key entry.2)
  | _, _ => file

/-- The document `write_to` encodes of a snapshot. -/
def byResource (snapshot : List (Text × Text)) : KvpFile := snapshot.foldl fileUnder ∅

/-- The values of a document, under their flat keys. -/
def fileEntries (file : KvpFile) : List (WriteLog.Write Text Text) :=
  (file.visit IterOrder.sorted).flatMap fun r =>
    (r.2.visit IterOrder.sorted).map fun kv => ⟨flatKey r.1 kv.1, some kv.2⟩

/-- The map `open` loads; a missing file is an empty store. -/
def load (file : Option KvpFile) : Map Text Text :=
  match file with
  | none => ∅
  | some file => WriteLog.replay ∅ (fileEntries file)

/-! ### Calls -/

/-- What `set` or `remove` does to the map, and whether it writes through. -/
structure Edit where
  write : WriteLog.Write Text Text
  sync : Bool

/-- How far a call has come: the step it takes next. -/
inductive Stage
  /-- Insert or remove. -/
  | edit (e : Edit)
  /-- `dirty.store(true)`. -/
  | mark (e : Edit)
  /-- `dirty.swap(false)`; a flush of its own has no edit. -/
  | swap (e : Option Edit)
  | snapshot (e : Option Edit)
  /-- Write the temporary file. -/
  | write (e : Option Edit) (encoded : KvpFile)
  | rename (e : Option Edit)
  /-- The file could not be renamed: `dirty.store(true)`. -/
  | failed (e : Option Edit)

/-- The store, its files and the calls under way. -/
structure KvpStore where
  entries : Map Text Text
  dirty : Bool := false
  /-- The file at `path`. -/
  file : Option KvpFile
  /-- The file at `path` with `.tmp` behind it. -/
  temporary : Option KvpFile := none
  calls : Map Nat Stage := ∅
  nextCall : Nat := 0

/-- One atomic step. -/
inductive KvpOp
  | set (resource key value : Text) (sync : Bool)
  | remove (resource key : Text) (sync : Bool)
  /-- `flush`, called by a resource or by the periodic task. -/
  | flush
  /-- The call goes on to its next step. -/
  | advance (call : Nat) (ord : IterOrder Text)

/-- What a step hands back. -/
inductive KvpAnswer
  | none
  /-- The call has returned. -/
  | returned (call : Nat) (e : Option Edit)

namespace KvpStore

/-- `KvpStore::open`. -/
def openFile (file : Option KvpFile) : KvpStore := { entries := load file, file := file }

def begin (s : KvpStore) (stage : Stage) : KvpStore :=
  { s with calls := s.calls.insert s.nextCall stage, nextCall := s.nextCall + 1 }

/-- The call goes on to a stage. -/
def goOn (s : KvpStore) (call : Nat) (stage : Stage) : KvpStore × KvpAnswer :=
  ({ s with calls := s.calls.insert call stage }, .none)

/-- The call returns. -/
def finish (s : KvpStore) (call : Nat) (e : Option Edit) : KvpStore × KvpAnswer :=
  ({ s with calls := s.calls.erase call }, .returned call e)

/-- The next step of a call at a stage. -/
def next (s : KvpStore) (call : Nat) (ord : IterOrder Text) : Stage → KvpStore × KvpAnswer
  | .edit e => { s with entries := WriteLog.put s.entries e.write }.goOn call (.mark e)
  | .mark e =>
    let s := { s with dirty := true }
    if e.sync then s.goOn call (.swap (some e)) else s.finish call (some e)
  | .swap e =>
    if s.dirty then { s with dirty := false }.goOn call (.snapshot e) else s.finish call e
  | .snapshot e => s.goOn call (.write e (byResource (s.entries.visit ord)))
  | .write e encoded => { s with temporary := some encoded }.goOn call (.rename e)
  | .rename e =>
    match s.temporary with
    | some encoded => { s with file := some encoded, temporary := none }.finish call e
    -- another flush has renamed it away
    | none => s.goOn call (.failed e)
  | .failed e => { s with dirty := true }.finish call e

/-- One atomic step; `none` when there is no such call. -/
def step : KvpOp → KvpStore → Option (KvpStore × KvpAnswer)
  | .set resource key value sync, s =>
    some (s.begin (.edit ⟨⟨flatKey resource key, some value⟩, sync⟩), .none)
  | .remove resource key sync, s =>
    some (s.begin (.edit ⟨⟨flatKey resource key, none⟩, sync⟩), .none)
  | .flush, s => some (s.begin (.swap none), .none)
  | .advance call ord, s => (s.calls.lookup call).map (s.next call ord)

/-! ### Reading -/

def get (s : KvpStore) (resource key : Text) : Option Text :=
  s.entries.lookup (flatKey resource key)

/-- Keys of a resource that start with `lead`, in order. -/
def keysWithPrefix (s : KvpStore) (ord : IterOrder Text) (resource lead : Text) : List Text :=
  let scope := flatKey resource lead
  let keys := ((s.entries.visit ord).filter fun entry => scope.isPrefixOf entry.1).filterMap
    fun entry => keyOf entry.1
  keys.mergeSort

end KvpStore

/-! ### Calls that nothing comes between

`set`, `remove` and `flush` as they run when no other call is under way.  Writing the file may
fail at any point, which leaves something or nothing at the temporary path.
-/

/-- How writing the file ends. -/
inductive Disk
  | written (ord : IterOrder Text)
  | failed (temporary : Option KvpFile)

namespace KvpStore

/-- Persist what is pending. -/
def flush (s : KvpStore) (disk : Disk) : KvpStore :=
  if s.dirty then
    match disk with
    | .written ord =>
      { s with
        dirty := false
        file := some (byResource (s.entries.visit ord))
        temporary := none }
    | .failed temporary => { s with dirty := true, temporary := temporary }
  else s

def markDirty (s : KvpStore) (sync : Bool) (disk : Disk) : KvpStore :=
  let s := { s with dirty := true }
  if sync then s.flush disk else s

/-- `set` with `some value`, `remove` with `none`. -/
def edit (s : KvpStore) (resource key : Text) (value : Option Text) (sync : Bool) (disk : Disk) :
    KvpStore :=
  { s with entries := WriteLog.put s.entries ⟨flatKey resource key, value⟩ }.markDirty sync disk

def set (s : KvpStore) (resource key value : Text) (sync : Bool) (disk : Disk) : KvpStore :=
  s.edit resource key (some value) sync disk

def remove (s : KvpStore) (resource key : Text) (sync : Bool) (disk : Disk) : KvpStore :=
  s.edit resource key none sync disk

end KvpStore

inductive KvpCall
  | set (resource key value : Text) (sync : Bool)
  | remove (resource key : Text) (sync : Bool)
  | flush

/-- A call, with how writing the file ends if it comes to that. -/
def KvpStore.call (s : KvpStore) : KvpCall × Disk → KvpStore
  | (.set resource key value sync, disk) => s.set resource key value sync disk
  | (.remove resource key sync, disk) => s.remove resource key sync disk
  | (.flush, disk) => s.flush disk

end Baston.Scripting
