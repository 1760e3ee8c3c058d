/-
One resource, as three tables have it.

What is followed is the state the manager has for it, the state scripts see, and whether the host
holds a runtime.  Each section of a call changes these three in its own way, and leaves them alone
where it is about another resource.
-/
import Baston.Zone.ResourceManager

namespace Baston.Zone.ResourceManager

open Assoc

/-! ### One resource -/

/-- What the three tables say about a resource. -/
structure View where
  state : Option ResourceState
  visible : Option ScriptResourceState
  running : Bool
  deriving DecidableEq

/-- They say the same. -/
def View.Agrees (v : View) : Prop :=
  (v.state = some .started ↔ v.running = true) ∧ v.visible = v.state.map ResourceState.visible

namespace Manager

def view (m : Manager) (name : String) : View :=
  ⟨m.stateOf name, m.registry.stateOf name, decide (name ∈ m.runtimes)⟩

/-- No call on the resource is in progress. -/
def Quiet (m : Manager) (name : String) : Prop :=
  ∀ id c, m.calls.lookup id = some c → c.name ≠ name

end Manager

/-- A call in this phase will write the state down, whatever the others do. -/
def Phase.willRecord (running : Bool) : Phase → Bool
  | .loading .. | .loaded _ | .unloaded => true
  | .stopping => running
  | .parsing _ | .stopNext | .startNext => false

/-- The calls on a resource that will write its state down. -/
def Manager.recorders (m : Manager) (name : String) : List Nat :=
  (m.calls.entries.filter fun kv =>
    decide (kv.2.name = name) && kv.2.phase.willRecord (m.view name).running).map Sigma.fst

theorem Manager.mem_recorders {m : Manager} {name : String} {id : Nat} :
    id ∈ m.recorders name ↔ ∃ c, m.calls.lookup id = some c ∧ c.name = name ∧
      c.phase.willRecord (m.view name).running = true := by
  unfold recorders
  rw [List.mem_map]
  constructor
  · rintro ⟨⟨id', c⟩, hmem, rfl⟩
    obtain ⟨hentry, hc⟩ := List.mem_filter.mp hmem
    rw [Bool.and_eq_true, decide_eq_true_eq] at hc
    exact ⟨c, Option.mem_def.mp (AList.mem_lookup_iff.mpr hentry), hc⟩
  · rintro ⟨c, hc, hname, hrecords⟩
    refine ⟨⟨id, c⟩, List.mem_filter.mpr ⟨AList.mem_lookup_iff.mp hc, ?_⟩, rfl⟩
    rw [Bool.and_eq_true, decide_eq_true_eq]
    exact ⟨hname, hrecords⟩

/-! ### What the sections do to it -/

namespace Manager

variable {m : Manager} {name other : String} {id : Nat}

@[simp] theorem view_goesOn (c : Call) : (m.goesOn id c).view name = m.view name := rfl

@[simp] theorem view_finish : (m.finish id).view name = m.view name := rfl

theorem stateOf_isSome : (m.stateOf name).isSome = decide (name ∈ m.resources) := by
  unfold stateOf
  rw [Option.isSome_map, Bool.eq_iff_iff, AList.lookup_isSome, decide_eq_true_eq]

/-- Changing one entry changes one state. -/
theorem stateOf_modify (state : ResourceState) (resources : Map String ResourceEntry) :
    ((resources.modify other fun entry => { entry with state := state }).lookup name).map
        ResourceEntry.state
      = if name = other then (resources.lookup name).map fun _ => state
        else (resources.lookup name).map ResourceEntry.state := by
  rw [Map.lookup_modify]
  split
  · rw [Option.map_map]
    rfl
  · rfl

end Manager

theorem ResourceRegistry.stateOf_setState (r : ResourceRegistry) (name other : String)
    (visible : ScriptResourceState) : (r.setState other visible).stateOf name
      = if name = other then (r.stateOf name).map fun _ => visible else r.stateOf name := by
  unfold stateOf setState
  rw [Map.lookup_modify]
  split
  · rw [Option.map_map, Option.map_map]
    rfl
  · rfl

theorem ResourceRegistry.stateOf_upsert (r : ResourceRegistry) (name other root : String)
    (manifest : ResourceManifest) (visible : ScriptResourceState) :
    (r.upsertResource other root manifest visible).stateOf name
      = if name = other then some visible else r.stateOf name := by
  unfold stateOf upsertResource
  rw [Map.lookup_insert_of]
  split <;> rfl

namespace Manager

variable {m : Manager} {name other : String} {id : Nat}

theorem mem_resources_of_state (h : (m.view name).state.isSome = true) : name ∈ m.resources := by
  rw [show (m.view name).state = m.stateOf name from rfl, stateOf_isSome] at h
  exact of_decide_eq_true h

/-- What is written down of another resource is not seen here. -/
theorem view_record_of_ne (state : ResourceState) (visible : ScriptResourceState)
    (h : name ≠ other) : (m.record other state visible).view name = m.view name := by
  unfold record
  split
  · unfold view
    rw [ResourceRegistry.stateOf_setState, if_neg h]
    unfold stateOf
    rw [stateOf_modify, if_neg h]
  · rfl

theorem view_recordStop_of_ne (h : name ≠ other) :
    (m.recordStop other).view name = m.view name := by
  unfold recordStop view
  rw [ResourceRegistry.stateOf_setState, if_neg h]
  unfold stateOf
  rw [stateOf_modify, if_neg h]

/-- What is written down of a known resource is what both tables say of it. -/
theorem view_record (state : ResourceState) (visible : ScriptResourceState)
    (hstate : (m.view name).state.isSome = true) (hvisible : (m.view name).visible.isSome = true) :
    (m.record name state visible).view name
      = ⟨some state, some visible, (m.view name).running⟩ := by
  obtain ⟨s, hs⟩ := Option.isSome_iff_exists.mp hstate
  obtain ⟨v, hv⟩ := Option.isSome_iff_exists.mp hvisible
  obtain ⟨entry, hentry, -⟩ := Option.map_eq_some_iff.mp hs
  unfold record
  rw [if_pos (mem_resources_of_state hstate)]
  unfold view
  rw [ResourceRegistry.stateOf_setState, if_pos rfl, show m.registry.stateOf name = some v from hv]
  unfold stateOf
  rw [stateOf_modify, if_pos rfl, hentry]
  rfl

theorem view_recordStop (hstate : (m.view name).state.isSome = true)
    (hvisible : (m.view name).visible.isSome = true) :
    (m.recordStop name).view name
      = ⟨some .stopped, some .stopped, (m.view name).running⟩ := by
  obtain ⟨s, hs⟩ := Option.isSome_iff_exists.mp hstate
  obtain ⟨v, hv⟩ := Option.isSome_iff_exists.mp hvisible
  obtain ⟨entry, hentry, -⟩ := Option.map_eq_some_iff.mp hs
  unfold recordStop view
  rw [ResourceRegistry.stateOf_setState, if_pos rfl, show m.registry.stateOf name = some v from hv]
  unfold stateOf
  rw [stateOf_modify, if_pos rfl, hentry]
  rfl

theorem stateOf_insert (entry : ResourceEntry) (resources : Map String ResourceEntry) :
    ((resources.insert other entry).lookup name).map ResourceEntry.state
      = if name = other then some entry.state
        else (resources.lookup name).map ResourceEntry.state := by
  rw [Map.lookup_insert_of]
  split <;> rfl

/-- A manifest read again lets scripts see the state the manager has. -/
theorem view_takeManifest (root : String) (manifest : ResourceManifest) :
    (m.takeManifest other root manifest).view name
      = if name = other ∧ (m.view name).state.isSome = true
        then { m.view name with visible := (m.view name).state.map ResourceState.visible }
        else m.view name := by
  by_cases hname : name = other
  · subst hname
    unfold takeManifest
    cases hentry : m.resources.lookup name with
    | none =>
        have hstate : (m.view name).state = none := by
          show (m.resources.lookup name).map ResourceEntry.state = none
          rw [hentry]
          rfl
        rw [hstate, if_neg (by simp)]
    | some entry =>
        have hstate : (m.view name).state = some entry.state := by
          show (m.resources.lookup name).map ResourceEntry.state = some entry.state
          rw [hentry]
          rfl
        rw [hstate, if_pos ⟨rfl, rfl⟩]
        unfold view
        rw [ResourceRegistry.stateOf_upsert, if_pos rfl]
        unfold stateOf
        rw [stateOf_insert, if_pos rfl, hentry]
        rfl
  · rw [if_neg fun h => hname h.1]
    unfold takeManifest
    split
    · rfl
    · rename_i entry _
      unfold view
      rw [ResourceRegistry.stateOf_upsert, if_neg hname]
      unfold stateOf
      rw [stateOf_insert, if_neg hname]

/-- A discovery shows a resource as not started, whatever the manager has for it. -/
theorem view_register (found : DiscoveredResource) :
    (m.register found).view name
      = if name = found.manifest.name
        then ⟨some ((m.view name).state.getD .unloaded), some .uninitialized, (m.view name).running⟩
        else m.view name := by
  unfold register view
  rw [ResourceRegistry.stateOf_upsert]
  unfold stateOf
  rw [stateOf_insert]
  by_cases hname : name = found.manifest.name
  · subst hname
    simp only [if_pos]
  · simp only [if_neg hname]

theorem view_discover (found : List DiscoveredResource) :
    ∀ m : Manager, (m.discover found).1.view name
      = if ∃ d ∈ found, d.manifest.name = name
        then ⟨some ((m.view name).state.getD .unloaded), some .uninitialized, (m.view name).running⟩
        else m.view name := by
  induction found with
  | nil =>
      intro m
      rw [if_neg (by simp)]
      rfl
  | cons d rest ih =>
      intro m
      show ((m.register d).discover rest).1.view name = _
      rw [ih (m.register d), view_register]
      by_cases hd : name = d.manifest.name
      · have hmem : ∃ x ∈ d :: rest, x.manifest.name = name := ⟨d, List.mem_cons_self, hd.symm⟩
        rw [if_pos hd, if_pos hmem]
        split <;> rfl
      · rw [if_neg hd]
        have hiff : (∃ x ∈ rest, x.manifest.name = name)
            ↔ ∃ x ∈ d :: rest, x.manifest.name = name := by
          rw [List.exists_mem_cons_iff, or_iff_right (Ne.symm hd)]
        rw [if_congr hiff rfl rfl]

theorem calls_discover (found : List DiscoveredResource) :
    ∀ m : Manager, (m.discover found).1.calls = m.calls := by
  induction found with
  | nil => exact fun _ => rfl
  | cons d rest ih => exact fun m => ih (m.register d)

/-- Loading is about runtimes only, and only about one. -/
theorem view_loadScripts (w : World) (root : String) (scriptPaths : List String) :
    ((m.loadScripts w other root scriptPaths).1.view name).state = (m.view name).state ∧
      ((m.loadScripts w other root scriptPaths).1.view name).visible = (m.view name).visible ∧
      (name ≠ other →
        (m.loadScripts w other root scriptPaths).1.view name = m.view name) := by
  unfold loadScripts
  split
  · exact ⟨rfl, rfl, fun _ => rfl⟩
  · refine ⟨rfl, rfl, fun hname => ?_⟩
    rename_i scripts _
    unfold loadResource view
    cases w.executeScripts other scripts with
    | error e => simp [AList.mem_erase, hname, stateOf]
    | ok u => simp [AList.mem_insert, AList.mem_erase, hname, stateOf]

end Manager

end Baston.Zone.ResourceManager
