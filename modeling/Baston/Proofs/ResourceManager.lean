/-
A resource runs when its manager says so.

A call in the middle of its sections leaves the three tables at odds.  So the statement carried
along a run is about the calls that have yet to write the state down: while there are none, the
tables agree.
-/
import Baston.Proofs.ResourceViews

namespace Baston.Zone.ResourceManager

open Assoc

/-! ### Runs -/

abbrev Entry := Trace.Entry Manager Op Answer

/-- A stop of the resource returned without an error, and no start has come after it. -/
def stopStands (name : String) : List Entry → Bool
  | [] => false
  | e :: past =>
    match e.answer with
    | .began started => started ≠ name && stopStands name past
    | .returned .stop stopped (.ok ()) => stopped = name || stopStands name past
    | _ => stopStands name past

/-- What is to hold of a resource after every section of every call: the manager, the scripts
and the host agree on it while no call is in progress, and a stop that stands means that it does
not run. -/
structure Lifecycle (name : String) (past : List Entry) (m : Manager) : Prop where
  agrees : m.Quiet name → (m.stateOf name = some .started ↔ name ∈ m.runtimes) ∧
    m.registry.stateOf name = (m.stateOf name).map ResourceState.visible
  stops : stopStands name past = true →
    m.stateOf name ≠ some .started ∧ (m.Quiet name → name ∉ m.runtimes)

/-- A call other than `id` will write the state down after this. -/
def Manager.overwritten (m : Manager) (name : String) (id : Nat) : Bool :=
  (m.recorders name).any (· ≠ id)

/-- What keeps a section in order, before it is taken.  A scan of the directory that finds the
resource comes before its first start, or while a call is yet to write its state down; what a
start or a stop writes down is how the host has it by then, or another call is yet to write; and
a start that succeeded has not been overtaken by a stop. -/
def orderly (name : String) (past : List Entry) (e : Entry) : Bool :=
  match e.op with
  | .discover (.ok found) =>
    found.all (·.manifest.name ≠ name) || (e.pre.stateOf name).getD .unloaded = .unloaded ||
      !(e.pre.recorders name).isEmpty
  | .discover (.error _) | .call .. => true
  | .resume id _ =>
    match e.pre.calls.lookup id with
    | none => true
    | some c =>
      c.name ≠ name ||
        match c.phase with
        | .loaded result =>
          (result.isOk = decide (name ∈ e.pre.runtimes) || e.pre.overwritten name id) &&
            !(result.isOk && stopStands name past)
        | .unloaded => name ∉ e.pre.runtimes || e.pre.overwritten name id
        | _ => true

/-- What a run of such sections keeps. -/
structure Holds (name : String) (past : List Entry) (m : Manager) : Prop where
  known : (m.view name).visible.isSome = (m.view name).state.isSome
  inCall : ∀ id c, m.calls.lookup id = some c → c.name = name → (m.view name).state.isSome = true
  settled : m.recorders name = [] → (m.view name).Agrees
  halted : stopStands name past = true → (m.view name).state ≠ some .started

theorem Holds.lifecycle {name : String} {past : List Entry} {m : Manager}
    (h : Holds name past m) : Lifecycle name past m := by
  have hquiet : m.Quiet name → (m.view name).Agrees := by
    intro quiet
    refine h.settled (List.eq_nil_iff_forall_not_mem.mpr fun id hid => ?_)
    obtain ⟨c, hc, hname, -⟩ := Manager.mem_recorders.mp hid
    exact quiet id c hc hname
  have hagrees : m.Quiet name → (m.stateOf name = some .started ↔ name ∈ m.runtimes) ∧
      m.registry.stateOf name = (m.stateOf name).map ResourceState.visible := by
    intro quiet
    obtain ⟨hrunning, hvisible⟩ := hquiet quiet
    exact ⟨hrunning.trans decide_eq_true_iff, hvisible⟩
  exact ⟨hagrees, fun hstop => ⟨h.halted hstop, fun quiet hheld =>
    h.halted hstop ((hagrees quiet).1.mpr hheld)⟩⟩

namespace Manager

variable {m m' : Manager} {name : String} {id : Nat}

/-- The calls but one are as they were, and so is whether the resource runs. -/
structure OneCall (m m' : Manager) (name : String) (id : Nat) : Prop where
  others : ∀ j, j ≠ id → m'.calls.lookup j = m.calls.lookup j
  running : (m'.view name).running = (m.view name).running

theorem OneCall.mem_recorders (h : OneCall m m' name id) {j : Nat} (hj : j ≠ id) :
    j ∈ m'.recorders name ↔ j ∈ m.recorders name := by
  rw [Manager.mem_recorders, Manager.mem_recorders, h.others j hj, h.running]

/-- When nobody will write any more, nobody but this call would have. -/
theorem OneCall.recorders_nil (h : OneCall m m' name id) (hid : id ∉ m.recorders name)
    (hnil : m'.recorders name = []) : m.recorders name = [] := by
  refine List.eq_nil_iff_forall_not_mem.mpr fun j hj => ?_
  have hne : j ≠ id := fun heq => hid (heq ▸ hj)
  rw [← h.mem_recorders hne, hnil] at hj
  exact List.not_mem_nil hj

theorem OneCall.not_overwritten (h : OneCall m m' name id)
    (hnil : m'.recorders name = []) : m.overwritten name id = false := by
  unfold overwritten
  refine List.any_eq_false.mpr fun j hj => ?_
  rw [decide_eq_true_eq, not_not]
  by_contra hne
  rw [← h.mem_recorders hne, hnil] at hj
  exact List.not_mem_nil hj

theorem oneCall_goesOn (c : Call) : OneCall m (m.goesOn id c) name id :=
  ⟨fun _ hj => AList.lookup_insert_ne hj, rfl⟩

theorem oneCall_finish : OneCall m (m.finish id) name id :=
  ⟨fun _ hj => AList.lookup_erase_ne hj, rfl⟩

end Manager

/-! ### What an answer says of a stop -/

section Answers

variable {name other : String} {past : List Entry} {m m' : Manager} {op : Op}

theorem stopStands_began : stopStands name (⟨m, op, .began name, m'⟩ :: past) = false := by
  simp [stopStands]

theorem stopStands_began_of_ne (h : name ≠ other) :
    stopStands name (⟨m, op, .began other, m'⟩ :: past) = stopStands name past := by
  simp [stopStands, Ne.symm h]

theorem stopStands_returned_of_ne (h : name ≠ other) (procedure : Procedure)
    (result : Except ZoneError Unit) :
    stopStands name (⟨m, op, .returned procedure other result, m'⟩ :: past)
      = stopStands name past := by
  cases procedure <;> cases result <;> simp [stopStands, Ne.symm h]

/-- Only a stop that returned without an error stands. -/
theorem stopStands_returned {procedure : Procedure} {result : Except ZoneError Unit}
    (h : procedure ≠ .stop ∨ result.isOk = false) :
    stopStands name (⟨m, op, .returned procedure other result, m'⟩ :: past)
      = stopStands name past := by
  cases procedure <;> cases result <;> simp_all [stopStands, Except.isOk, Except.toBool]

end Answers

/-! ### The rules -/

namespace Holds

variable {name other : String} {past past' : List Entry} {m m' : Manager} {id : Nat} {op : Op}

/-- A section that changes nothing about the resource but where one call on it stands, which was
not going to write. -/
theorem sameView (h : Holds name past m) (hone : Manager.OneCall m m' name id)
    (hview : m'.view name = m.view name) (hid : id ∉ m.recorders name)
    (hcall : ∀ c, m'.calls.lookup id = some c → c.name = name →
      (m.view name).state.isSome = true)
    (hstop : stopStands name past' = true → (m.view name).state ≠ some .started) :
    Holds name past' m' := by
  refine ⟨by rw [hview]; exact h.known, ?_, ?_, by rw [hview]; exact hstop⟩
  · intro j c hc hname
    rw [hview]
    by_cases hj : j = id
    · exact hcall c (hj ▸ hc) hname
    · exact h.inCall j c (hone.others j hj ▸ hc) hname
  · intro hnil
    rw [hview]
    exact h.settled (hone.recorders_nil hid hnil)

/-- A section after which the call is to write. -/
theorem recording (hcall : id ∈ m'.recorders name)
    (hstate : (m'.view name).state.isSome = true) (hvisible : (m'.view name).visible.isSome = true)
    (hstop : stopStands name past' = true → (m'.view name).state ≠ some .started) :
    Holds name past' m' := by
  refine ⟨hvisible.trans hstate.symm, fun _ _ _ _ => hstate, fun hnil => ?_, hstop⟩
  rw [hnil] at hcall
  exact absurd hcall List.not_mem_nil

/-- A section that writes the state down. -/
theorem recorded {state : ResourceState} (hone : Manager.OneCall m m' name id)
    (hview : m'.view name = ⟨some state, some state.visible, (m.view name).running⟩)
    (hright : (state = .started ↔ (m.view name).running = true) ∨ m.overwritten name id = true)
    (hstop : stopStands name past' = true → state ≠ .started) : Holds name past' m' := by
  have hstate : (m'.view name).state = some state := by rw [hview]
  refine ⟨by rw [hview]; rfl, fun _ _ _ _ => by rw [hstate]; rfl, fun hnil => ?_, ?_⟩
  · rcases hright with hright | hover
    · rw [hview]
      exact ⟨by rw [Option.some_inj]; exact hright, rfl⟩
    · rw [hone.not_overwritten hnil] at hover
      exact absurd hover (by decide)
  · rw [hstate, ne_eq, Option.some_inj]
    exact hstop

end Holds

/-! ### The sections -/

namespace Manager

variable {m : Manager} {name other : String} {id : Nat}

@[simp] theorem calls_record (state : ResourceState) (visible : ScriptResourceState) :
    (m.record other state visible).calls = m.calls := by
  unfold record
  split <;> rfl

@[simp] theorem calls_recordStart (result : Except ZoneError Unit) :
    (m.recordStart other result).calls = m.calls := by
  unfold recordStart
  split <;> rw [calls_record]

@[simp] theorem calls_takeManifest (root : String) (manifest : ResourceManifest) :
    (m.takeManifest other root manifest).calls = m.calls := by
  unfold takeManifest
  split <;> rfl

@[simp] theorem calls_loadScripts (w : World) (root : String) (scriptPaths : List String) :
    (m.loadScripts w other root scriptPaths).1.calls = m.calls := by
  unfold loadScripts
  split <;> rfl

theorem view_recordStart_of_ne (result : Except ZoneError Unit) (h : name ≠ other) :
    (m.recordStart other result).view name = m.view name := by
  unfold recordStart
  split <;> exact view_record_of_ne _ _ h

/-- The state that the outcome of a load stands for. -/
def outcome (result : Except ZoneError Unit) : ResourceState :=
  if result.isOk then .started else .error

theorem outcome_started (result : Except ZoneError Unit) :
    outcome result = .started ↔ result.isOk = true := by
  unfold outcome
  cases result.isOk <;> decide

theorem view_recordStart (result : Except ZoneError Unit)
    (hstate : (m.view name).state.isSome = true) (hvisible : (m.view name).visible.isSome = true) :
    (m.recordStart name result).view name
      = ⟨some (outcome result), some (outcome result).visible, (m.view name).running⟩ := by
  unfold recordStart outcome
  split <;> exact view_record _ _ hstate hvisible

/-- A call that is not under way writes nothing. -/
theorem not_recorder_of_new (h : id ∉ m.calls) : id ∉ m.recorders name := by
  intro hid
  obtain ⟨c, hc, -⟩ := mem_recorders.mp hid
  rw [AList.lookup_eq_none.mpr h] at hc
  cases hc

theorem not_recorder {c : Call} (hc : m.calls.lookup id = some c)
    (h : c.name = name → c.phase.willRecord (m.view name).running = false) :
    id ∉ m.recorders name := by
  intro hid
  obtain ⟨c', hc', hname, hrecords⟩ := mem_recorders.mp hid
  obtain rfl := Option.some.inj (hc.symm.trans hc')
  rw [h hname] at hrecords
  cases hrecords

theorem recorder_goesOn {c : Call} (hname : c.name = name)
    (h : c.phase.willRecord (m.view name).running = true) : id ∈ (m.goesOn id c).recorders name :=
  mem_recorders.mpr ⟨c, AList.lookup_insert m.calls, hname, h⟩

/-- A call changed after other parts of the manager were. -/
theorem oneCall_goesOn_of {m₁ : Manager} (c : Call) (hcalls : m₁.calls = m.calls)
    (hrunning : (m₁.view name).running = (m.view name).running) :
    OneCall m (m₁.goesOn id c) name id :=
  ⟨fun j hj => by rw [← hcalls]; exact AList.lookup_insert_ne hj, hrunning⟩

theorem oneCall_finish_of {m₁ : Manager} (hcalls : m₁.calls = m.calls)
    (hrunning : (m₁.view name).running = (m.view name).running) :
    OneCall m (m₁.finish id) name id :=
  ⟨fun j hj => by rw [← hcalls]; exact AList.lookup_erase_ne hj, hrunning⟩

theorem lookup_finish : (m.finish id).calls.lookup id = none :=
  AList.lookup_erase id m.calls

theorem lookup_goesOn (c : Call) : (m.goesOn id c).calls.lookup id = some c :=
  AList.lookup_insert m.calls

/-- A resource with an entry has a state. -/
theorem state_of_lookup {entry : ResourceEntry} (h : m.resources.lookup name = some entry) :
    (m.view name).state = some entry.state := by
  show (m.resources.lookup name).map ResourceEntry.state = some entry.state
  rw [h]
  rfl

end Manager

namespace Holds

variable {name other : String} {past : List Entry} {m : Manager} {id : Nat} {op : Op}

/-- A call that returns and has written nothing. -/
theorem finished (h : Holds name past m) (hid : id ∉ m.recorders name) {procedure : Procedure}
    {result : Except ZoneError Unit}
    (hstop : procedure ≠ .stop ∨ result.isOk = false ∨ (m.view other).state ≠ some .started) :
    Holds name (⟨m, op, .returned procedure other result, m.finish id⟩ :: past)
      (m.finish id) := by
  refine h.sameView Manager.oneCall_finish rfl hid ?_ ?_
  · intro c hc
    rw [Manager.lookup_finish] at hc
    cases hc
  · intro hstands
    by_cases hname : name = other
    · subst hname
      rcases hstop with hstart | herror | hstate
      · rw [stopStands_returned (.inl hstart)] at hstands
        exact h.halted hstands
      · rw [stopStands_returned (.inr herror)] at hstands
        exact h.halted hstands
      · exact hstate
    · rw [stopStands_returned_of_ne hname] at hstands
      exact h.halted hstands

/-- A call that goes on and has written nothing. -/
theorem waits (h : Holds name past m) (hid : id ∉ m.recorders name) {c : Call}
    (hstate : c.name = name → (m.view name).state.isSome = true) :
    Holds name (⟨m, op, .goesOn, m.goesOn id c⟩ :: past) (m.goesOn id c) := by
  refine h.sameView (Manager.oneCall_goesOn c) rfl hid ?_ h.halted
  intro c' hc' hname
  rw [Manager.lookup_goesOn] at hc'
  exact hstate (Option.some.inj hc' ▸ hname)

theorem beginStart (h : Holds name past m) (hid : id ∉ m.recorders name) :
    Holds name (⟨m, op, (m.beginStart id other).2, (m.beginStart id other).1⟩ :: past)
      (m.beginStart id other).1 := by
  unfold Manager.beginStart Manager.startSection
  cases hentry : m.resources.lookup other with
  | none => exact h.finished hid (.inl (by decide))
  | some entry =>
      by_cases hstarted : entry.state = .started
      · simp only [if_pos hstarted]
        exact h.finished hid (.inl (by decide))
      · simp only [if_neg hstarted]
        by_cases hname : name = other
        · subst hname
          have hstate := congrArg Option.isSome (Manager.state_of_lookup hentry)
          have hview := Manager.view_record .loading .starting hstate (h.known.trans hstate)
          refine recording (Manager.recorder_goesOn rfl rfl) ?_ ?_ ?_
          · rw [Manager.view_goesOn, hview]
            rfl
          · rw [Manager.view_goesOn, hview]
            rfl
          · rw [stopStands_began]
            exact fun hstands => absurd hstands (by decide)
        · have hview := Manager.view_record_of_ne (m := m) .loading .starting hname
          refine h.sameView (Manager.oneCall_goesOn_of _ (Manager.calls_record _ _)
            (congrArg View.running hview)) hview hid ?_ ?_
          · intro c hc hc'
            rw [Manager.lookup_goesOn] at hc
            obtain rfl := Option.some.inj hc
            exact absurd hc'.symm hname
          · rw [stopStands_began_of_ne hname]
            exact h.halted

/-- A stop that returns where the resource is not started. -/
theorem stopped (h : Holds name past m) (hid : id ∉ m.recorders name) (thenStart : Bool)
    (hpresent : (m.view other).state.isSome = true)
    (hstate : (m.view other).state ≠ some .started) :
    Holds name (⟨m, op, (m.stopped id other thenStart).2, (m.stopped id other thenStart).1⟩ :: past)
      (m.stopped id other thenStart).1 := by
  unfold Manager.stopped
  cases thenStart with
  | false => exact h.finished hid (.inr (.inr hstate))
  | true =>
      refine h.sameView (Manager.oneCall_goesOn _) rfl hid ?_ ?_
      · intro c hc hname
        rw [if_pos rfl, Manager.lookup_goesOn] at hc
        obtain rfl := Option.some.inj hc
        exact hname ▸ hpresent
      · intro hstands
        by_cases hname : name = other
        · exact hname ▸ hstate
        · rw [stopStands_returned_of_ne hname] at hstands
          exact h.halted hstands

theorem beginStop (h : Holds name past m) (hid : id ∉ m.recorders name) (thenStart : Bool) :
    Holds name
      (⟨m, op, (m.beginStop id other thenStart).2, (m.beginStop id other thenStart).1⟩ :: past)
      (m.beginStop id other thenStart).1 := by
  unfold Manager.beginStop Manager.stopSection
  cases hentry : m.resources.lookup other with
  | none => exact h.finished hid (.inr (.inl rfl))
  | some entry =>
      have hstate := Manager.state_of_lookup hentry
      by_cases hstarted : entry.state = .started
      · simp only [hstarted, decide_true]
        exact h.waits hid fun hname => by rw [← hname, hstate]; rfl
      · simp only [hstarted, decide_false]
        exact h.stopped hid thenStart (by rw [hstate]; rfl)
          (by rw [hstate, ne_eq, Option.some_inj]; exact hstarted)

theorem beginRestart (h : Holds name past m) (hid : id ∉ m.recorders name) :
    Holds name (⟨m, op, (m.beginRestart id other).2, (m.beginRestart id other).1⟩ :: past)
      (m.beginRestart id other).1 := by
  unfold Manager.beginRestart
  cases hentry : m.resources.lookup other with
  | none => exact h.finished hid (.inl (by decide))
  | some entry =>
      refine h.waits hid fun hname => ?_
      rw [← hname, Manager.state_of_lookup hentry]
      rfl

/-- The first section of a call. -/
theorem begin (h : Holds name past m) (hnew : id ∉ m.calls) (procedure : Procedure) :
    Holds name
      (⟨m, op, (m.begin id other procedure).2, (m.begin id other procedure).1⟩ :: past)
      (m.begin id other procedure).1 := by
  have hid : id ∉ m.recorders name := Manager.not_recorder_of_new hnew
  cases procedure with
  | start => exact h.beginStart hid
  | stop => exact h.beginStop hid false
  | ensure => exact h.beginStop hid true
  | restart => exact h.beginRestart hid

/-- A section of a call on another resource, which goes on. -/
theorem elsewhere {past' : List Entry} {m₁ : Manager} {c : Call} (h : Holds name past m)
    (hname : name ≠ c.name) (hid : id ∉ m.recorders name) (hcalls : m₁.calls = m.calls)
    (hview : m₁.view name = m.view name)
    (hstop : stopStands name past' = true → (m.view name).state ≠ some .started) :
    Holds name past' (m₁.goesOn id c) := by
  refine h.sameView (Manager.oneCall_goesOn_of c hcalls (congrArg View.running hview)) hview
    hid ?_ hstop
  intro c' hc' hname'
  rw [Manager.lookup_goesOn] at hc'
  obtain rfl := Option.some.inj hc'
  exact absurd hname'.symm hname

/-- The scripts are read and loaded, and the call has the outcome to record. -/
theorem load (h : Holds name past m) {c : Call} (hc : m.calls.lookup id = some c) (w : World)
    (root : String) (scriptPaths : List String) :
    Holds name (⟨m, op, .goesOn, (m.loadScripts w c.name root scriptPaths).1.goesOn id
        { c with phase := .loaded (m.loadScripts w c.name root scriptPaths).2 }⟩ :: past)
      ((m.loadScripts w c.name root scriptPaths).1.goesOn id
        { c with phase := .loaded (m.loadScripts w c.name root scriptPaths).2 }) := by
  obtain ⟨hstate, hvisible, hother⟩ :=
    @Manager.view_loadScripts m name c.name w root scriptPaths
  by_cases hname : name = c.name
  · have hpresent := h.inCall id c hc hname.symm
    refine recording (Manager.recorder_goesOn hname.symm rfl) ?_ ?_ ?_
    · rw [Manager.view_goesOn, hstate]
      exact hpresent
    · rw [Manager.view_goesOn, hvisible]
      exact h.known.trans hpresent
    · rw [Manager.view_goesOn, hstate]
      exact h.halted
  · have hid : id ∉ m.recorders name :=
      Manager.not_recorder hc fun heq => absurd heq.symm hname
    exact h.elsewhere hname hid (Manager.calls_loadScripts w root scriptPaths) (hother hname)
      h.halted

/-- The outcome of a start is written down. -/
theorem recordStart (h : Holds name past m) {c : Call} (hc : m.calls.lookup id = some c)
    (result : Except ZoneError Unit)
    (hright : c.name = name → result.isOk = (m.view name).running ∨ m.overwritten name id = true)
    (hstop : c.name = name → result.isOk = true → stopStands name past = false) :
    Holds name (⟨m, op, .returned .start c.name result,
        (m.recordStart c.name result).finish id⟩ :: past)
      ((m.recordStart c.name result).finish id) := by
  obtain ⟨other, phase, thenStart⟩ := c
  have hcalls := @Manager.calls_recordStart m other result
  have hanswer : stopStands name (⟨m, op, .returned .start other result,
      (m.recordStart other result).finish id⟩ :: past) = stopStands name past :=
    stopStands_returned (.inl (by decide))
  by_cases hname : name = other
  · subst hname
    have hpresent := h.inCall id _ hc rfl
    have hview := Manager.view_recordStart result hpresent (h.known.trans hpresent)
    have hrunning : ((m.recordStart name result).view name).running = (m.view name).running := by
      rw [hview]
    refine recorded (Manager.oneCall_finish_of hcalls hrunning) hview ?_ ?_
    · refine (hright rfl).imp_left fun hrunning => ?_
      rw [← hrunning]
      exact Manager.outcome_started result
    · rw [hanswer, ne_eq, Manager.outcome_started]
      intro hstands hok
      rw [hstop rfl hok] at hstands
      cases hstands
  · have hview := Manager.view_recordStart_of_ne (m := m) result hname
    refine h.sameView (Manager.oneCall_finish_of hcalls (congrArg View.running hview)) hview
      (Manager.not_recorder hc fun heq => absurd heq.symm hname) ?_ ?_
    · intro c' hc'
      rw [Manager.lookup_finish] at hc'
      cases hc'
    · rw [hanswer]
      exact h.halted

/-- A stop asks the host to unload. -/
theorem unload (h : Holds name past m) {c : Call} (hc : m.calls.lookup id = some c)
    (hphase : c.phase = .stopping) (w : World) :
    Holds name (⟨m, op, (m.resume id w c).2, (m.resume id w c).1⟩ :: past)
      (m.resume id w c).1 := by
  unfold Manager.resume unloadResource
  rw [hphase]
  by_cases hheld : c.name ∈ m.runtimes
  · simp only [if_pos hheld]
    by_cases hname : name = c.name
    · have hpresent := h.inCall id c hc hname.symm
      exact recording (Manager.recorder_goesOn hname.symm rfl) hpresent (h.known.trans hpresent)
        h.halted
    · have hview : ({ m with runtimes := m.runtimes.erase c.name } : Manager).view name
          = m.view name := by
        unfold Manager.view
        simp [AList.mem_erase, hname, Manager.stateOf]
      have hid : id ∉ m.recorders name :=
        Manager.not_recorder hc fun heq => absurd heq.symm hname
      exact h.elsewhere hname hid rfl hview h.halted
  · simp only [if_neg hheld]
    refine h.finished (Manager.not_recorder hc fun hname => ?_) (.inr (.inl rfl))
    rw [hphase, ← hname]
    exact decide_eq_false hheld

/-- A stop that unloaded the resource writes it down. -/
theorem recordStop (h : Holds name past m) {c : Call} (hc : m.calls.lookup id = some c)
    (hright : c.name = name → (m.view name).running = false ∨ m.overwritten name id = true) :
    Holds name (⟨m, op, ((m.recordStop c.name).stopped id c.name c.thenStart).2,
        ((m.recordStop c.name).stopped id c.name c.thenStart).1⟩ :: past)
      ((m.recordStop c.name).stopped id c.name c.thenStart).1 := by
  obtain ⟨other, phase, thenStart⟩ := c
  have hone : ((m.recordStop other).view name).running = (m.view name).running →
      Manager.OneCall m ((m.recordStop other).stopped id other thenStart).1 name id := by
    intro hrunning
    unfold Manager.stopped
    cases thenStart with
    | false => exact Manager.oneCall_finish_of rfl hrunning
    | true => exact Manager.oneCall_goesOn_of _ rfl hrunning
  have hsame : ((m.recordStop other).stopped id other thenStart).1.view name
      = (m.recordStop other).view name := by
    unfold Manager.stopped
    cases thenStart <;> rfl
  by_cases hname : name = other
  · subst hname
    have hpresent := h.inCall id _ hc rfl
    have hview := Manager.view_recordStop hpresent (h.known.trans hpresent)
    have hrunning : ((m.recordStop name).view name).running = (m.view name).running := by
      rw [hview]
    refine recorded (hone hrunning) (hsame.trans hview)
      ((hright rfl).imp_left fun hrunning => ?_) fun _ => by decide
    rw [hrunning]
    decide
  · have hview := Manager.view_recordStop_of_ne (m := m) hname
    refine h.sameView (hone (congrArg View.running hview)) (hsame.trans hview)
      (Manager.not_recorder hc fun heq => absurd heq.symm hname) ?_ ?_
    · intro c' hc' hname'
      cases thenStart with
      | false =>
          rw [show (((m.recordStop other).stopped id other false).1.calls.lookup id) = none from
            Manager.lookup_finish] at hc'
          cases hc'
      | true =>
          obtain rfl := Option.some.inj ((Manager.lookup_goesOn _).symm.trans hc')
          exact absurd hname'.symm hname
    · intro hstands
      rw [Manager.stopped, stopStands_returned_of_ne hname] at hstands
      exact h.halted hstands

/-- `restart` has read the manifest again. -/
theorem parsed (h : Holds name past m) {c : Call} (hc : m.calls.lookup id = some c)
    (hid : id ∉ m.recorders name) (root : String) (manifest : ResourceManifest) (phase : Phase) :
    Holds name (⟨m, op, .goesOn, (m.takeManifest c.name root manifest).goesOn id
        { c with phase := phase }⟩ :: past)
      ((m.takeManifest c.name root manifest).goesOn id { c with phase := phase }) := by
  obtain ⟨other, before, thenStart⟩ := c
  have hview := @Manager.view_takeManifest m name other root manifest
  have hcalls := @Manager.calls_takeManifest m other root manifest
  by_cases hname : name = other
  · subst hname
    have hpresent := h.inCall id _ hc rfl
    rw [if_pos ⟨rfl, hpresent⟩] at hview
    have hstate := congrArg View.state hview
    have hrunning : ((m.takeManifest name root manifest).view name).running
        = (m.view name).running := by
      rw [hview]
    refine ⟨?_, ?_, fun hnil => ?_, ?_⟩
    · rw [Manager.view_goesOn, hview]
      exact Option.isSome_map
    · intro _ _ _ _
      rw [Manager.view_goesOn, hstate]
      exact hpresent
    · have hone := @Manager.oneCall_goesOn_of m name id _ ⟨name, phase, thenStart⟩
        hcalls hrunning
      rw [Manager.view_goesOn, hview]
      exact ⟨(h.settled (hone.recorders_nil hid hnil)).1, rfl⟩
    · rw [Manager.view_goesOn, hstate]
      exact h.halted
  · rw [if_neg fun hboth => hname hboth.1] at hview
    exact h.elsewhere hname hid hcalls hview h.halted

/-- The next section of a call in progress. -/
theorem resume (h : Holds name past m) {c : Call} (hc : m.calls.lookup id = some c) (w : World)
    (hok : orderly name past ⟨m, .resume id w, (m.resume id w c).2, (m.resume id w c).1⟩ = true) :
    Holds name
      (⟨m, .resume id w, (m.resume id w c).2, (m.resume id w c).1⟩ :: past)
      (m.resume id w c).1 := by
  unfold orderly at hok
  simp only [hc] at hok
  have hidle : (∀ running, c.phase.willRecord running = false) → id ∉ m.recorders name :=
    fun hphase => Manager.not_recorder hc fun _ => hphase _
  cases hphase : c.phase with
  | loading root scriptPaths =>
      unfold Manager.resume
      rw [hphase]
      exact h.load hc w root scriptPaths
  | loaded result =>
      unfold Manager.resume
      simp only [hphase] at hok ⊢
      have hown : c.name = name → (result.isOk = (m.view name).running ∨
          m.overwritten name id = true) ∧ (result.isOk = true → stopStands name past = false) := by
        intro hname
        have hboth : (result.isOk = (m.view name).running ∨ m.overwritten name id = true) ∧
            (result.isOk = false ∨ stopStands name past = false) := by
          simpa [hname, Manager.view] using hok
        exact ⟨hboth.1, fun hloaded => hboth.2.resolve_left (by rw [hloaded]; decide)⟩
      exact h.recordStart hc result (fun hname => (hown hname).1) fun hname => (hown hname).2
  | stopping => exact h.unload hc hphase w
  | unloaded =>
      unfold Manager.resume
      simp only [hphase] at hok ⊢
      refine h.recordStop hc fun hname => ?_
      simpa [hname, Manager.view] using hok
  | parsing root =>
      unfold Manager.resume
      rw [hphase]
      have hid := hidle fun _ => by rw [hphase]; rfl
      cases hmanifest : w.parseManifest root with
      | none =>
          simp only [hmanifest]
          exact h.waits hid (h.inCall id c hc)
      | some manifest =>
          simp only [hmanifest]
          exact h.parsed hc hid root manifest _
  | stopNext =>
      unfold Manager.resume
      rw [hphase]
      exact h.beginStop (hidle fun _ => by rw [hphase]; rfl) true
  | startNext =>
      unfold Manager.resume
      rw [hphase]
      exact h.beginStart (hidle fun _ => by rw [hphase]; rfl)

/-- A scan of the directory. -/
theorem discover (h : Holds name past m) (found : List DiscoveredResource) {answer : Answer}
    (hok : (∃ d ∈ found, d.manifest.name = name) →
      (m.view name).state.getD .unloaded = .unloaded ∨ m.recorders name ≠ [])
    (hstands : stopStands name (⟨m, op, answer, (m.discover found).1⟩ :: past)
      = stopStands name past) :
    Holds name (⟨m, op, answer, (m.discover found).1⟩ :: past) (m.discover found).1 := by
  have hview := @Manager.view_discover name found m
  have hcalls : (m.discover found).1.calls = m.calls := Manager.calls_discover found m
  have hrecorders : (m.discover found).1.recorders name = m.recorders name := by
    unfold Manager.recorders
    rw [hcalls, hview]
    split <;> rfl
  by_cases hfound : ∃ d ∈ found, d.manifest.name = name
  · rw [if_pos hfound] at hview
    refine ⟨by rw [hview]; rfl, fun _ _ _ _ => by rw [hview]; rfl, fun hnil => ?_, ?_⟩
    · rw [hrecorders] at hnil
      have hunloaded := (hok hfound).resolve_right fun hne => hne hnil
      have hagrees := (h.settled hnil).1
      rw [hview, hunloaded]
      refine ⟨⟨fun heq => ?_, fun hrunning => ?_⟩, rfl⟩
      · cases heq
      · rw [hagrees.mpr hrunning] at hunloaded
        cases hunloaded
    · rw [hstands, hview]
      intro hstop hstarted
      refine h.halted hstop ?_
      cases hstate : (m.view name).state with
      | none =>
          rw [hstate] at hstarted
          cases hstarted
      | some state =>
          rw [hstate] at hstarted
          exact hstarted
  · rw [if_neg hfound] at hview
    refine ⟨by rw [hview]; exact h.known, ?_, ?_, ?_⟩
    · rw [hcalls, hview]
      exact h.inCall
    · rw [hrecorders, hview]
      exact h.settled
    · rw [hstands, hview]
      exact h.halted

theorem init (name : String) : Holds name [] {} := by
  refine ⟨rfl, ?_, fun _ => ⟨⟨?_, ?_⟩, rfl⟩, ?_⟩
  · intro _ _ hc
    cases hc
  · intro hstarted
    cases hstarted
  · intro hrunning
    have hmem : name ∈ (∅ : Runtimes) := of_decide_eq_true hrunning
    exact absurd hmem (AList.notMem_empty name)
  · intro hstop
    cases hstop

/-- One section of whatever call. -/
theorem step (h : Holds name past m) {op : Op} {m' : Manager} {a : Answer}
    (hstep : ResourceManager.step op m = some (m', a))
    (hok : orderly name past ⟨m, op, a, m'⟩ = true) : Holds name (⟨m, op, a, m'⟩ :: past) m' := by
  cases op with
  | discover result =>
      cases result with
      | error e =>
          obtain ⟨rfl, rfl⟩ := Prod.mk.inj (Option.some.inj hstep)
          exact ⟨h.known, h.inCall, h.settled, h.halted⟩
      | ok found =>
          obtain ⟨rfl, rfl⟩ := Prod.mk.inj (Option.some.inj hstep)
          refine h.discover found ?_ rfl
          rintro ⟨d, hd, hname⟩
          unfold orderly at hok
          simp only [Bool.or_eq_true, List.all_eq_true, decide_eq_true_eq, Bool.not_eq_true',
            List.isEmpty_eq_false_iff] at hok
          rcases hok with (hnone | hunloaded) | hrecords
          · exact absurd hname (hnone d hd)
          · exact .inl hunloaded
          · exact .inr hrecords
  | call id procedure other =>
      simp only [ResourceManager.step] at hstep
      by_cases hnew : id ∈ m.calls
      · rw [if_pos hnew] at hstep
        cases hstep
      · rw [if_neg hnew] at hstep
        obtain ⟨rfl, rfl⟩ := Prod.mk.inj (Option.some.inj hstep)
        exact h.begin hnew procedure
  | resume id w =>
      obtain ⟨c, hc, hstep⟩ := Option.map_eq_some_iff.mp hstep
      obtain ⟨rfl, rfl⟩ := Prod.mk.inj hstep
      exact h.resume hc w hok

end Holds

/-- **A resource and its three tables.**  In a run whose sections are all in order for a
resource, the manager has it as started exactly when the host holds a runtime for it, and scripts
see the state the manager has, whenever no call on it is in progress; and where a stop returned
without an error and no start came after it, it does not run. -/
theorem resource_lifecycle {name : String} {past : List Entry} {m : Manager}
    (run : Trace.Run step {} past m)
    (inOrder : Trace.Along (fun past e => orderly name past e = true) past) :
    Lifecycle name past m := by
  refine Holds.lifecycle (run.invariant (I := Holds name) (Holds.init name) ?_ inOrder)
  exact fun _ h hstep hok => h.step hstep hok

/-- A directory with one resource, and a disk on which all goes well. -/
def oneResource : Op := .discover (.ok [⟨⟨"chat", ["main.js"]⟩, "resources/chat"⟩])

def fineWorld : World where
  readScript _ := some []
  decrypt _ _ raw := some raw
  executeScripts _ _ := .ok ()
  parseManifest _ := none

/-- Found, started and stopped, each call in its turn. -/
theorem started_and_stopped :
    ∃ past m, Trace.Run step {} past m ∧ Lifecycle "chat" past m ∧
      m.stateOf "chat" = some .stopped := by
  obtain ⟨past, m, run, hcheck⟩ := Trace.exists_run step {}
    [oneResource, .call 0 .start "chat", .resume 0 fineWorld, .resume 0 fineWorld,
      .call 1 .stop "chat", .resume 1 fineWorld, .resume 1 fineWorld]
    (fun past m => decide (Trace.Along (fun past e => orderly "chat" past e = true) past) &&
      decide (m.stateOf "chat" = some .stopped)) (by decide)
  rw [Bool.and_eq_true, decide_eq_true_eq, decide_eq_true_eq] at hcheck
  exact ⟨past, m, run, resource_lifecycle run hcheck.1, hcheck.2⟩

/-- A scan of the directory that finds a running resource lets scripts see it as never started. -/
theorem found_again :
    ¬ ∀ past m, Trace.Run step {} past m → Lifecycle "chat" past m := by
  intro hall
  obtain ⟨past, m, run, hcheck⟩ := Trace.exists_run step {}
    [oneResource, .call 0 .start "chat", .resume 0 fineWorld, .resume 0 fineWorld, oneResource]
    (fun _ m => m.calls.entries.isEmpty &&
      decide (m.registry.stateOf "chat" = some .uninitialized) &&
      decide (m.stateOf "chat" = some .started)) (by decide)
  simp only [Bool.and_eq_true, decide_eq_true_eq, List.isEmpty_iff] at hcheck
  obtain ⟨⟨hcalls, hvisible⟩, hstate⟩ := hcheck
  have hquiet : m.Quiet "chat" := by
    intro id c hc
    have hmem := AList.mem_lookup_iff.mp (Option.mem_def.mpr hc)
    rw [hcalls] at hmem
    exact absurd hmem List.not_mem_nil
  have hagrees := ((hall past m run).agrees hquiet).2
  rw [hvisible, hstate] at hagrees
  cases hagrees

end Baston.Zone.ResourceManager
