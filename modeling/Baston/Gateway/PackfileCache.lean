/-
The packfile cache (`http/packfile_cache.rs`).

A resource's archive is built once and kept under its name, together with a fingerprint of the
files that went into it: their paths, modification times and sizes.  A later call whose files
have the same fingerprint gets the archive that is kept.  Between two calls a resource may be
started, stopped or restarted with another manifest, and files may change.
-/
import Baston.Lib.Map
import Baston.Lib.Trace
import Baston.Gateway.Auth
import Baston.Zone.Packfile
import Mathlib.Data.List.Destutter

namespace Baston.Gateway.Packfiles

open Assoc Baston.Zone.Packfile

/-! ### Files -/

/-- `root.join(rel)`: an absolute `rel` replaces the root. -/
def join (root rel : Name) : Name :=
  if rel.head? = some slash then rel
  else if root.getLast?.any (· ≠ slash) then root ++ slash :: rel
  else root ++ rel

def dot : UInt8 := 46

/-- A `PathBuf` as it is compared: by its components, of which empty ones and inner dots do not
count. -/
structure PathKey where
  absolute : Bool
  components : List Name
  deriving DecidableEq

def PathKey.of (path : Name) : PathKey where
  absolute := path.head? = some slash
  components :=
    match path.splitOn slash with
    | [] => []
    | first :: rest => (if first = [] then [] else [first]) ++ rest.filter (· ∉ [[], [dot]])

/-- A file of the disk.  Its time is that since the Unix epoch, in nanoseconds, where there is
one; its contents are those a read gets, if it can be read. -/
structure FileState where
  modified : Option Int
  len : UInt64
  data : Option (List UInt8)

abbrev Files := Name → Option FileState

/-- `meta.modified().duration_since(UNIX_EPOCH)`, and zero where that fails. -/
def mtime (modified : Option Int) : Nat :=
  match modified with
  | some nanos => if 0 ≤ nanos then nanos.toNat else 0
  | none => 0

/-- The client-visible files of a resource, sorted and without duplicates. -/
def clientFileList (manifest : ResourceManifest) : List Name :=
  ((manifest.clientScripts ++ manifest.files).insertionSort fun a b => a ≤ b).destutter (· ≠ ·)

/-- Path, modification time and size of each file. -/
abbrev Fingerprint := List (PathKey × Nat × UInt64)

def fingerprint (files : Files) (root : Name) (list : List Name) : Fingerprint :=
  list.map fun rel =>
    let path := join root rel
    match files path with
    | some file => (.of path, mtime file.modified, file.len)
    | none => (.of path, 0, 0)

/-! ### The cache -/

structure CachedPackfile where
  bytes : List UInt8
  sha1Hex : List Char
  deriving DecidableEq

/-- The archives that were built, with the fingerprints they were built for. -/
abbrev PackfileCache := Map Name (Fingerprint × CachedPackfile)

/-- What a call finds: the root and the manifest of the resource, and the disk. -/
structure Found where
  root : Name
  manifest : ResourceManifest
  files : Files

namespace Found

def list (found : Found) : List Name := clientFileList found.manifest

def print (found : Found) : Fingerprint := fingerprint found.files found.root found.list

/-- The generated manifest, and every client file that can be read. -/
def inputs (found : Found) : List PackfileInput :=
  ⟨literal "fxmanifest.lua", generateFxmanifest found.manifest⟩ :: found.list.filterMap fun rel =>
    ((found.files (join found.root rel)).bind FileState.data).map fun data => ⟨rel, data⟩

end Found

/-- The server around the cache: what `started_resource` answers, and the disk. -/
structure World where
  started : Name → Option (Name × ResourceManifest)
  files : Files

/-- What a call has to pack, if it packs anything. -/
def World.toPack (world : World) (resource : Name) (manifestOnlyFallback : Bool) :
    Option Found :=
  (world.started resource).bind fun p =>
    if clientFileList p.2 = [] ∧ ¬ manifestOnlyFallback then none
    else some ⟨p.1, p.2, world.files⟩

section

variable (sha1 : List UInt8 → List UInt8)

/-- The archive of what a call finds, with its digest. -/
def build (found : Found) : Option CachedPackfile :=
  (buildRpf found.inputs).map fun bytes => ⟨bytes, hexEncode (sha1 bytes)⟩

/-- `PackfileCache::get`: the archive that is kept, if its fingerprint is that of the files, and
a new one otherwise.  The answer is `none` only where no archive can be built. -/
def get (world : World) (cache : PackfileCache) (resource : Name) (manifestOnlyFallback : Bool) :
    Option (PackfileCache × Option CachedPackfile) :=
  match world.toPack resource manifestOnlyFallback with
  | none => some (cache, none)
  | some found =>
    match (cache.lookup resource).filter fun entry => entry.1 = found.print with
    | some entry => some (cache, some entry.2)
    | none =>
      (build sha1 found).map fun cached =>
        (cache.insert resource (found.print, cached), some cached)

/-! ### Runs -/

/-- What happens around the cache, and a call. -/
inductive Op
  /-- What `started_resource` answers from now on: a resource is discovered, started, stopped, or
  restarted with the manifest as it is on the disk. -/
  | manifest (resource : Name) (now : Option (Name × ResourceManifest))
  /-- A file is written, touched or removed. -/
  | file (path : Name) (now : Option FileState)
  | get (resource : Name) (manifestOnlyFallback : Bool)

structure State where
  world : World
  cache : PackfileCache

/-- One step, with what a call answers. -/
def step : Op → State → Option (State × Option CachedPackfile)
  | .manifest resource now, s =>
    some ({ s with world.started := Function.update s.world.started resource now }, none)
  | .file path now, s =>
    some ({ s with world.files := Function.update s.world.files path now }, none)
  | .get resource manifestOnlyFallback, s =>
    (get sha1 s.world s.cache resource manifestOnlyFallback).map fun r =>
      ({ s with cache := r.1 }, r.2)

end

end Baston.Gateway.Packfiles
