/-
The life of a resource (`resource_loader/resource_manager.rs`).

Three tables say whether a resource runs: the manager's own, the registry that scripts read
(`resource_registry.rs`), and the runtimes the script host holds (`host.rs`).  A call of the
manager is a sequence of sections, each of which has the lock to itself; between two of them any
other call may take a section of its own.
-/
import Baston.Lib.Map
import Baston.Lib.Trace

namespace Baston.Zone.ResourceManager

open Assoc

/-! ### What scripts see -/

/-- What the loader needs of a `manifest.json`. -/
structure ResourceManifest where
  name : String
  serverScripts : List String
  deriving DecidableEq

/-- FXServer-style resource state strings exposed to scripts. -/
inductive ScriptResourceState
  | uninitialized | starting | started | stopped | missing | unknown
  deriving DecidableEq, Repr

def ScriptResourceState.asStr : ScriptResourceState → String
  | .uninitialized => "uninitialized"
  | .starting => "starting"
  | .started => "started"
  | .stopped => "stopped"
  | .missing => "missing"
  | .unknown => "unknown"

structure ResourceRecord where
  root : String
  manifest : ResourceManifest
  state : ScriptResourceState

/-- The registry behind the resource natives. -/
abbrev ResourceRegistry := Map String ResourceRecord

namespace ResourceRegistry

def upsertResource (r : ResourceRegistry) (name root : String) (manifest : ResourceManifest)
    (state : ScriptResourceState) : ResourceRegistry :=
  r.insert name ⟨root, manifest, state⟩

def setState (r : ResourceRegistry) (name : String) (state : ScriptResourceState) :
    ResourceRegistry :=
  r.modify name fun record => { record with state := state }

/-- The state of a resource, where it is known. -/
def stateOf (r : ResourceRegistry) (name : String) : Option ScriptResourceState :=
  (r.lookup name).map ResourceRecord.state

/-- What `GetResourceState` answers. -/
def state (r : ResourceRegistry) (name : String) : String :=
  ((r.stateOf name).getD .missing).asStr

end ResourceRegistry

/-! ### The script host -/

structure ScriptSource where
  path : String
  code : String
  deriving DecidableEq

inductive ScriptError
  | runtimeInit (resource message : String)
  | execute (resource script message : String)
  | hostGone
  | hostStart (message : String)
  | resourceNotLoaded (resource : String)
  deriving DecidableEq

/-- A script below the root of its resource. -/
structure ScriptPath where
  root : String
  rel : String
  deriving DecidableEq

/-- What a call meets outside the manager: the files, the decryptor, and how a fresh isolate
takes the scripts it is to run. -/
structure World where
  readScript : ScriptPath → Option (List UInt8)
  decrypt : String → String → List UInt8 → Option (List UInt8)
  executeScripts : String → List ScriptSource → Except ScriptError Unit
  parseManifest : String → Option ResourceManifest

/-- The runtimes the host holds, with the scripts each of them ran. -/
abbrev Runtimes := Map String (List ScriptSource)

/-- The old runtime goes first, and a new one takes its place when its scripts ran. -/
def loadResource (w : World) (runtimes : Runtimes) (name : String) (scripts : List ScriptSource) :
    Runtimes × Except ScriptError Unit :=
  match w.executeScripts name scripts with
  | .error e => (runtimes.erase name, .error e)
  | .ok () => ((runtimes.erase name).insert name scripts, .ok ())

def unloadResource (runtimes : Runtimes) (name : String) : Except ScriptError Runtimes :=
  if name ∈ runtimes then .ok (runtimes.erase name) else .error (.resourceNotLoaded name)

/-! ### The manager -/

/-- Lifecycle state of a resource. -/
inductive ResourceState
  | unloaded | loading | started | stopped | error
  deriving DecidableEq, Repr

/-- The state scripts are to see, as `restart` has it. -/
def ResourceState.visible : ResourceState → ScriptResourceState
  | .unloaded => .uninitialized
  | .loading => .starting
  | .started => .started
  | .stopped => .stopped
  | .error => .unknown

/-- A resource found on disk. -/
structure DiscoveredResource where
  manifest : ResourceManifest
  root : String

structure ResourceEntry where
  discovered : DiscoveredResource
  state : ResourceState

inductive ZoneError
  | manifestRead (path : String)
  | unknownResource (resource : String)
  | scriptRead (path : ScriptPath)
  | decrypt (path : ScriptPath)
  | scriptNotUtf8 (path : ScriptPath)
  | scripting (e : ScriptError)
  deriving DecidableEq

/-- The calls that act on one resource. -/
inductive Procedure
  | start | stop | ensure | restart
  deriving DecidableEq, Repr

/-- Where a call stands between two of its sections. -/
inductive Phase
  /-- `start` is about to read these scripts and to load them. -/
  | loading (root : String) (scriptPaths : List String)
  /-- `start` is about to record how the load went. -/
  | loaded (result : Except ZoneError Unit)
  /-- `stop` found the resource started and is about to unload it. -/
  | stopping
  /-- `stop` has unloaded it and is about to say so. -/
  | unloaded
  /-- `restart` reads the manifest again. -/
  | parsing (root : String)
  /-- `stop` comes next, and then `start`. -/
  | stopNext
  /-- `start` comes next. -/
  | startNext

/-- A call in progress; one that `ensure` made of `stop` goes on to `start`. -/
structure Call where
  name : String
  phase : Phase
  thenStart : Bool

structure Manager where
  resources : Map String ResourceEntry := ∅
  registry : ResourceRegistry := ∅
  runtimes : Runtimes := ∅
  calls : Map Nat Call := ∅

/-- What a step tells: a start is under way, a procedure of a call returned, or neither. -/
inductive Answer
  | discovered (result : Except ZoneError (List String))
  | began (name : String)
  | goesOn
  | returned (procedure : Procedure) (name : String) (result : Except ZoneError Unit)

namespace Manager

/-- The state of a resource, where it is known. -/
def stateOf (m : Manager) (name : String) : Option ResourceState :=
  (m.resources.lookup name).map ResourceEntry.state

/-- Register one discovery. -/
def register (m : Manager) (found : DiscoveredResource) : Manager :=
  let name := found.manifest.name
  let entry : ResourceEntry := ⟨found, (m.stateOf name).getD .unloaded⟩
  { m with
    resources := m.resources.insert name entry
    registry := m.registry.upsertResource name entry.discovered.root entry.discovered.manifest
      .uninitialized }

def discover (m : Manager) (found : List DiscoveredResource) : Manager × List String :=
  (found.foldl register m, found.map fun d => d.manifest.name)

/-- Write a state down, for the manager and for the scripts, where the resource is known. -/
def record (m : Manager) (name : String) (state : ResourceState) (visible : ScriptResourceState) :
    Manager :=
  if name ∈ m.resources then
    { m with
      resources := m.resources.modify name fun entry => { entry with state := state }
      registry := m.registry.setState name visible }
  else m

/-- The first section of `start`: the resource, unless it is started already. -/
def startSection (m : Manager) (name : String) :
    Manager × Except ZoneError (Option (String × List String)) :=
  match m.resources.lookup name with
  | none => (m, .error (.unknownResource name))
  | some entry =>
    if entry.state = .started then (m, .ok none)
    else (m.record name .loading .starting,
      .ok (some (entry.discovered.root, entry.discovered.manifest.serverScripts)))

/-- One script: read, decrypted, and text. -/
def readScript (w : World) (name root rel : String) : Except ZoneError ScriptSource :=
  match w.readScript ⟨root, rel⟩ with
  | none => .error (.scriptRead ⟨root, rel⟩)
  | some raw =>
    match w.decrypt name rel raw with
    | none => .error (.decrypt ⟨root, rel⟩)
    | some bytes =>
      match String.fromUTF8? bytes.toByteArray with
      | none => .error (.scriptNotUtf8 ⟨root, rel⟩)
      | some code => .ok ⟨rel, code⟩

/-- The host is asked for nothing before every script is there. -/
def loadScripts (w : World) (m : Manager) (name root : String) (scriptPaths : List String) :
    Manager × Except ZoneError Unit :=
  match scriptPaths.mapM (readScript w name root) with
  | .error e => (m, .error e)
  | .ok scripts =>
    let (runtimes, result) := loadResource w m.runtimes name scripts
    ({ m with runtimes := runtimes }, result.mapError .scripting)

/-- The last section of `start`. -/
def recordStart (m : Manager) (name : String) (result : Except ZoneError Unit) : Manager :=
  if result.isOk then m.record name .started .started else m.record name .error .unknown

/-- The first section of `stop`: whether there is something to unload. -/
def stopSection (m : Manager) (name : String) : Except ZoneError Bool :=
  match m.resources.lookup name with
  | none => .error (.unknownResource name)
  | some entry => .ok (entry.state = .started)

/-- The last section of `stop`; the registry is told in any case. -/
def recordStop (m : Manager) (name : String) : Manager :=
  { m with
    resources := m.resources.modify name fun entry => { entry with state := .stopped }
    registry := m.registry.setState name .stopped }

/-- `restart` takes the manifest it read. -/
def takeManifest (m : Manager) (name root : String) (manifest : ResourceManifest) : Manager :=
  match m.resources.lookup name with
  | none => m
  | some entry =>
    { m with
      resources := m.resources.insert name { entry with discovered.manifest := manifest }
      registry := m.registry.upsertResource name root manifest entry.state.visible }

/-! ### Calls -/

/-- A call has more to do. -/
def goesOn (m : Manager) (id : Nat) (c : Call) : Manager := { m with calls := m.calls.insert id c }

/-- A call is over. -/
def finish (m : Manager) (id : Nat) : Manager := { m with calls := m.calls.erase id }

def beginStart (m : Manager) (id : Nat) (name : String) : Manager × Answer :=
  match m.startSection name with
  | (m, .error e) => (m.finish id, .returned .start name (.error e))
  | (m, .ok none) => (m.finish id, .returned .start name (.ok ()))
  | (m, .ok (some (root, scriptPaths))) =>
    (m.goesOn id ⟨name, .loading root scriptPaths, false⟩, .began name)

/-- A stop returned without an error. -/
def stopped (m : Manager) (id : Nat) (name : String) (thenStart : Bool) : Manager × Answer :=
  (if thenStart then m.goesOn id ⟨name, .startNext, true⟩ else m.finish id,
    .returned .stop name (.ok ()))

def beginStop (m : Manager) (id : Nat) (name : String) (thenStart : Bool) : Manager × Answer :=
  match m.stopSection name with
  | .error e => (m.finish id, .returned .stop name (.error e))
  | .ok false => m.stopped id name thenStart
  | .ok true => (m.goesOn id ⟨name, .stopping, thenStart⟩, .goesOn)

def beginRestart (m : Manager) (id : Nat) (name : String) : Manager × Answer :=
  match m.resources.lookup name with
  | none => (m.finish id, .returned .restart name (.error (.unknownResource name)))
  | some entry => (m.goesOn id ⟨name, .parsing entry.discovered.root, true⟩, .goesOn)

/-- The first section of a call. -/
def begin (m : Manager) (id : Nat) (name : String) : Procedure → Manager × Answer
  | .start => m.beginStart id name
  | .stop => m.beginStop id name false
  | .ensure => m.beginStop id name true
  | .restart => m.beginRestart id name

/-- The next section of a call in progress. -/
def resume (m : Manager) (id : Nat) (w : World) (c : Call) : Manager × Answer :=
  match c.phase with
  | .loading root scriptPaths =>
    let (m, result) := m.loadScripts w c.name root scriptPaths
    (m.goesOn id { c with phase := .loaded result }, .goesOn)
  | .loaded result => ((m.recordStart c.name result).finish id, .returned .start c.name result)
  | .stopping =>
    match unloadResource m.runtimes c.name with
    | .error e => (m.finish id, .returned .stop c.name (.error (.scripting e)))
    | .ok runtimes =>
      ({ m with runtimes := runtimes }.goesOn id { c with phase := .unloaded }, .goesOn)
  | .unloaded => (m.recordStop c.name).stopped id c.name c.thenStart
  | .parsing root =>
    let m := match w.parseManifest root with
      | none => m
      | some manifest => m.takeManifest c.name root manifest
    (m.goesOn id { c with phase := .stopNext }, .goesOn)
  | .stopNext => m.beginStop id c.name true
  | .startNext => m.beginStart id c.name

end Manager

/-- What may happen next: a scan of the directory, a new call, or the next section of one. -/
inductive Op
  | discover (found : Except ZoneError (List DiscoveredResource))
  | call (id : Nat) (procedure : Procedure) (name : String)
  | resume (id : Nat) (world : World)

/-- One section.  There is none for a call that is not in progress, and a new call has an
identity of its own. -/
def step : Op → Manager → Option (Manager × Answer)
  | .discover (.error e), m => some (m, .discovered (.error e))
  | .discover (.ok found), m => some ((m.discover found).1, .discovered (.ok (m.discover found).2))
  | .call id procedure name, m =>
    if id ∈ m.calls then none else some (m.begin id name procedure)
  | .resume id world, m => (m.calls.lookup id).map fun c => m.resume id world c

end Baston.Zone.ResourceManager
