/-
Durable key/value writes, when flushes do not overlap.

A file holds the map as it was when its flush took the snapshot.  So a write is on disk
once a flush that took its snapshot after the write has renamed its file, and stays there
as long as files replace each other in the order of their snapshots.  A write that no file
holds yet is either not marked or has left the store dirty, or a flush is under way whose
file will hold it.  All of this fails once one flush swaps the mark away while another has
yet to rename its file, or a call that writes through finds the mark gone then.
-/
import Baston.Proofs.KvpFile

namespace Baston.Scripting

open Assoc Trace

abbrev KvpEntry := Entry KvpStore KvpOp KvpAnswer

/-- The call that is about to change the map in a step, with its edit. -/
def edited (e : KvpEntry) : Option (Nat × Edit) :=
  match e.op with
  | .advance call _ =>
    match e.pre.calls.lookup call with
    | some (.edit edit) => some (call, edit)
    | _ => none
  | _ => none

/-- The edits made to the map in a run, in order, each with its call. -/
def edits (past : List KvpEntry) : List (Nat × Edit) := (past.filterMap edited).reverse

/-- The map after the edits of a run, from what the file held at first. -/
def mapAfter (init : Option KvpFile) (past : List KvpEntry) : Map Text Text :=
  WriteLog.replay (load init) ((edits past).map fun x => x.2.write)

/-- Whether a call has swapped the mark away and has yet to rename its file. -/
def Stage.flushing : Stage → Bool
  | .snapshot _ | .write .. | .rename _ => true
  | _ => false

/-- Whether a call is about to swap the mark away, or to find it gone after an edit of its own. -/
def KvpStore.swapping (s : KvpStore) : Stage → Bool
  | .swap e => s.dirty || e.isSome
  | _ => false

/-- The edit a call has made by a stage. -/
def Stage.made : Stage → Option Edit
  | .mark e => some e
  | .swap e | .snapshot e | .write e _ | .rename e | .failed e => e
  | .edit _ => none

/-- No flush swaps the mark away while another has yet to rename its file, and no call that
writes through finds it gone then. -/
def Apart (_past : List KvpEntry) (e : KvpEntry) : Prop :=
  match e.op with
  | .advance call _ => (e.pre.calls.lookup call).any e.pre.swapping = true →
      ∀ c ∈ e.pre.calls.entries, c.2.flushing = false
  | _ => True

instance (past : List KvpEntry) (e : KvpEntry) : Decidable (Apart past e) := by
  unfold Apart
  cases e.op with
  | advance call ord => exact inferInstanceAs (Decidable (_ → _))
  | set resource key value sync => exact isTrue trivial
  | remove resource key sync => exact isTrue trivial
  | flush => exact isTrue trivial

/-- A file holds the effect of a call's edit or of a later edit of the same key. -/
def Holds (past : List KvpEntry) (file : Option KvpFile) (call : Nat) (e : Edit) : Prop :=
  ∃ before later, edits past = before ++ (call, e) :: later
    ∧ ∃ x ∈ (call, e) :: later, x.2.write.key = e.write.key
      ∧ (load file).lookup e.write.key = x.2.write.image

/-- What is asked of a state: the call that has just returned is on disk, and a quiet store that
is not dirty is on disk whole. -/
structure Durable (past : List KvpEntry) (s : KvpStore) : Prop where
  returned : ∀ e before call edit, past = e :: before → e.answer = .returned call (some edit) →
    edit.sync = true → Holds past s.file call edit
  settled : s.calls = ∅ → s.dirty = false →
    ∀ flat, (load s.file).lookup flat = s.entries.lookup flat

/-! ### The invariant -/

/-- What a file holds is the map after the edits of `past`. -/
def Mirrors (init : Option KvpFile) (past : List KvpEntry) (file : Option KvpFile) : Prop :=
  ∀ flat, (load file).lookup flat = (mapAfter init past).lookup flat

/-- Every edit after `upTo` is yet to be marked, unless the store is dirty. -/
def Covered (upTo past : List KvpEntry) (s : KvpStore) : Prop :=
  ∃ later, past = later ++ upTo
    ∧ ∀ x ∈ edits later, s.calls.lookup x.1 = some (.mark x.2) ∨ s.dirty = true

/-- No call but `call` is flushing. -/
def OnlyFlush (s : KvpStore) (call : Nat) : Prop :=
  ∀ other stage, s.calls.lookup other = some stage → stage.flushing = true → other = call

/-- How far the one flush under way has come, if there is one, and what of the edits is taken
care of. -/
inductive Phase (init : Option KvpFile) (past : List KvpEntry) (s : KvpStore)
    (onDisk : List KvpEntry) : Prop
  | idle (quiet : ∀ call stage, s.calls.lookup call = some stage → stage.flushing = false)
      (covered : Covered onDisk past s)
  /-- What is in the map by now will be in the snapshot. -/
  | taking (call : Nat) (e : Option Edit) (at_ : s.calls.lookup call = some (.snapshot e))
      (only : OnlyFlush s call)
  | writing (call : Nat) (e : Option Edit) (encoded : KvpFile) (taken : List KvpEntry)
      (at_ : s.calls.lookup call = some (.write e encoded)) (only : OnlyFlush s call)
      (mirrors : Mirrors init taken (some encoded))
      (own : ∀ edit, e = some edit → (call, edit) ∈ edits taken) (covered : Covered taken past s)
  | placing (call : Nat) (e : Option Edit) (encoded : KvpFile) (taken : List KvpEntry)
      (at_ : s.calls.lookup call = some (.rename e)) (only : OnlyFlush s call)
      (temporary : s.temporary = some encoded) (mirrors : Mirrors init taken (some encoded))
      (own : ∀ edit, e = some edit → (call, edit) ∈ edits taken) (covered : Covered taken past s)

/-- What holds of a call by a stage: its key has a resource and a key of its own, its edit is made,
and its file could be renamed. -/
structure CallOk (made : List (Nat × Edit)) (nextCall : Nat) (call : Nat) (stage : Stage) :
    Prop where
  numbered : call < nextCall
  keyed : ∀ e, stage = .edit e → (splitOnce e.write.key).isSome = true
  made : ∀ e, stage.made = some e → (call, e) ∈ made
  unfailed : ∀ e, stage ≠ .failed e

/-- What a run with its flushes apart keeps. -/
structure Ordered (init : Option KvpFile) (past : List KvpEntry) (s : KvpStore) : Prop where
  entries : s.entries = mapAfter init past
  keyed : ∀ flat value, s.entries.lookup flat = some value → (splitOnce flat).isSome = true
  calls : ∀ call stage, s.calls.lookup call = some stage →
    CallOk (edits past) s.nextCall call stage
  disk : ∃ onDisk, onDisk <:+ past ∧ Mirrors init onDisk s.file ∧ Phase init past s onDisk

theorem CallOk.mono {made made' : List (Nat × Edit)} {nextCall nextCall' call : Nat}
    {stage : Stage} (h : CallOk made nextCall call stage) (hmade : made ⊆ made')
    (hnext : nextCall ≤ nextCall') : CallOk made' nextCall' call stage :=
  ⟨Nat.lt_of_lt_of_le h.numbered hnext, h.keyed, fun e he => hmade (h.made e he), h.unfailed⟩

/-- A call stays in order when it goes on after its edit. -/
theorem CallOk.onward {made : List (Nat × Edit)} {nextCall call : Nat} {stage stage' : Stage}
    (h : CallOk made nextCall call stage) (hmade : stage'.made = stage.made)
    (hedit : ∀ e, stage' ≠ .edit e) (hfailed : ∀ e, stage' ≠ .failed e) :
    CallOk made nextCall call stage' :=
  ⟨h.numbered, fun e he => absurd he (hedit e), fun e he => h.made e (hmade.symm.trans he), hfailed⟩

/-- Every call is in order after one of them has gone to a stage that is. -/
theorem callOk_insert {made made' : List (Nat × Edit)} {nextCall nextCall' call : Nat}
    {calls : Map Nat Stage} {stage : Stage}
    (h : ∀ other st, calls.lookup other = some st → CallOk made nextCall other st)
    (hmade : made ⊆ made') (hnext : nextCall ≤ nextCall')
    (hstage : CallOk made' nextCall' call stage) :
    ∀ other st, (calls.insert call stage).lookup other = some st →
      CallOk made' nextCall' other st := by
  intro other st hother
  rw [Map.lookup_insert_of] at hother
  split at hother
  · next heq =>
      obtain rfl := Option.some.inj hother
      rw [heq]
      exact hstage
  · exact (h other st hother).mono hmade hnext

theorem callOk_erase {made : List (Nat × Edit)} {nextCall : Nat} {calls : Map Nat Stage}
    (h : ∀ other st, calls.lookup other = some st → CallOk made nextCall other st) (call : Nat) :
    ∀ other st, (calls.erase call).lookup other = some st → CallOk made nextCall other st := by
  intro other st hother
  rw [Map.lookup_erase_of] at hother
  split at hother
  · exact absurd hother (by simp)
  · exact h other st hother

theorem edits_cons (e : KvpEntry) (past : List KvpEntry) :
    edits (e :: past) = edits past ++ (edited e).toList := by
  unfold edits
  cases h : edited e with
  | none => rw [List.filterMap_cons_none h, Option.toList_none, List.append_nil]
  | some x => rw [List.filterMap_cons_some h, List.reverse_cons, Option.toList_some]

theorem edits_of_quiet {e : KvpEntry} (h : edited e = none) (past : List KvpEntry) :
    edits (e :: past) = edits past := by
  rw [edits_cons, h, Option.toList_none, List.append_nil]

theorem edits_append (later past : List KvpEntry) :
    edits (later ++ past) = edits past ++ edits later := by
  unfold edits
  rw [List.filterMap_append, List.reverse_append]

theorem Covered.suffix {upTo past : List KvpEntry} {s : KvpStore} (h : Covered upTo past s) :
    upTo <:+ past := by
  obtain ⟨later, rfl, -⟩ := h
  exact List.suffix_append later upTo

theorem mapAfter_of_quiet {e : KvpEntry} (h : edited e = none) (init : Option KvpFile)
    (past : List KvpEntry) : mapAfter init (e :: past) = mapAfter init past := by
  unfold mapAfter
  rw [edits_of_quiet h]

/-- After a step that leaves the map alone only the calls and the files have to be looked at. -/
theorem Ordered.quiet {init : Option KvpFile} {past : List KvpEntry} {s s' : KvpStore}
    (h : Ordered init past s) {entry : KvpEntry} (hquiet : edited entry = none)
    (hentries : s'.entries = s.entries)
    (hcalls : ∀ call stage, s'.calls.lookup call = some stage →
      CallOk (edits past) s'.nextCall call stage)
    (hdisk : ∃ onDisk, onDisk <:+ past ∧ Mirrors init onDisk s'.file
      ∧ Phase init (entry :: past) s' onDisk) : Ordered init (entry :: past) s' := by
  obtain ⟨onDisk, hsuffix, hmirrors, hphase⟩ := hdisk
  refine ⟨?_, ?_, ?_, onDisk, hsuffix.trans (List.suffix_cons _ _), hmirrors, hphase⟩
  · rw [mapAfter_of_quiet hquiet, hentries]
    exact h.entries
  · rw [hentries]
    exact h.keyed
  · rw [edits_of_quiet hquiet]
    exact hcalls

/-- What flushing calls and the mark do not see, a phase does not see. -/
theorem Phase.frame {init : Option KvpFile} {past onDisk : List KvpEntry} {e : KvpEntry}
    {s s' : KvpStore} (h : Phase init past s onDisk)
    (hcalls : ∀ call stage, stage.flushing = true →
      (s'.calls.lookup call = some stage ↔ s.calls.lookup call = some stage))
    (htemporary : s'.temporary = s.temporary)
    (hcovered : ∀ upTo, Covered upTo past s → Covered upTo (e :: past) s') :
    Phase init (e :: past) s' onDisk := by
  have honly : ∀ {call}, OnlyFlush s call → OnlyFlush s' call := by
    intro call only other stage hother hflush
    exact only other stage ((hcalls other stage hflush).mp hother) hflush
  cases h with
  | idle quiet covered =>
      refine .idle (fun call stage hcall => ?_) (hcovered _ covered)
      by_contra hflush
      rw [Bool.not_eq_false] at hflush
      have hquiet := quiet call stage ((hcalls call stage hflush).mp hcall)
      exact absurd (hquiet.symm.trans hflush) (by decide)
  | taking call edit at_ only =>
      exact .taking call edit ((hcalls _ _ rfl).mpr at_) (honly only)
  | writing call edit encoded taken at_ only mirrors own covered =>
      exact .writing call edit encoded taken ((hcalls _ _ rfl).mpr at_) (honly only)
        mirrors own (hcovered _ covered)
  | placing call edit encoded taken at_ only temporary mirrors own covered =>
      exact .placing call edit encoded taken ((hcalls _ _ rfl).mpr at_) (honly only)
        (htemporary.trans temporary) mirrors own (hcovered _ covered)

section Steps

variable {init : Option KvpFile} {past : List KvpEntry} {s : KvpStore}

/-- A call begins. -/
theorem Ordered.begin (h : Ordered init past s) {op : KvpOp} {stage : Stage}
    (hop : edited ⟨s, op, .none, s.begin stage⟩ = none)
    (hfresh : stage = .swap none ∨ ∃ e, stage = .edit e ∧ (splitOnce e.write.key).isSome = true) :
    Ordered init (⟨s, op, .none, s.begin stage⟩ :: past) (s.begin stage) := by
  have hstage : stage.flushing = false ∧ CallOk (edits past) (s.nextCall + 1) s.nextCall stage := by
    rcases hfresh with rfl | ⟨e, rfl, hkey⟩
    · exact ⟨rfl, Nat.lt_succ_self _, by simp, by simp [Stage.made], by simp⟩
    · refine ⟨rfl, Nat.lt_succ_self _, ?_, by simp [Stage.made], by simp⟩
      intro e' he
      obtain rfl := Stage.edit.inj he
      exact hkey
  have hlookup : ∀ other, (s.begin stage).calls.lookup other
      = if other = s.nextCall then some stage else s.calls.lookup other := fun other =>
    Map.lookup_insert_of s.nextCall other stage s.calls
  have hold : ∀ {other stage'}, s.calls.lookup other = some stage' →
      (s.begin stage).calls.lookup other = some stage' := by
    intro other stage' hother
    rw [hlookup, if_neg (Nat.ne_of_lt (h.calls other stage' hother).numbered), hother]
  obtain ⟨onDisk, hsuffix, hmirrors, hphase⟩ := h.disk
  refine h.quiet hop rfl (callOk_insert h.calls (List.Subset.refl _) (Nat.le_succ _) hstage.2)
    ⟨onDisk, hsuffix, hmirrors, ?_⟩
  refine hphase.frame ?_ rfl ?_
  · intro call stage' hflush
    constructor
    · intro hcall
      rw [hlookup] at hcall
      split at hcall
      · obtain rfl := Option.some.inj hcall
        exact absurd (hstage.1.symm.trans hflush) (by decide)
      · exact hcall
    · exact hold
  · rintro upTo ⟨later, rfl, hlater⟩
    refine ⟨_ :: later, rfl, fun x hx => ?_⟩
    rw [edits_of_quiet hop] at hx
    rcases hlater x hx with hmark | hdirty
    · exact .inl (hold hmark)
    · exact .inr hdirty

/-- The calls after one of them, not flushing, went to a stage of the same kind or returned: the
flushing ones are as they were. -/
theorem flushing_of_insert {calls : Map Nat Stage} {call : Nat} {stage₀ stage₁ : Stage}
    (hfrom : calls.lookup call = some stage₀) (hquiet : stage₀.flushing = false)
    (hquiet' : stage₁.flushing = false) (other : Nat) (stage : Stage) (hflush : stage.flushing = true) :
    (calls.insert call stage₁).lookup other = some stage ↔ calls.lookup other = some stage := by
  rw [Map.lookup_insert_of]
  by_cases heq : other = call
  · subst heq
    rw [if_pos rfl, hfrom]
    constructor
    · intro h
      obtain rfl := Option.some.inj h
      exact absurd (hquiet'.symm.trans hflush) (by decide)
    · intro h
      obtain rfl := Option.some.inj h
      exact absurd (hquiet.symm.trans hflush) (by decide)
  · rw [if_neg heq]

theorem flushing_of_erase {calls : Map Nat Stage} {call : Nat} {stage₀ : Stage}
    (hfrom : calls.lookup call = some stage₀) (hquiet : stage₀.flushing = false)
    (other : Nat) (stage : Stage) (hflush : stage.flushing = true) :
    (calls.erase call).lookup other = some stage ↔ calls.lookup other = some stage := by
  rw [Map.lookup_erase_of]
  by_cases heq : other = call
  · subst heq
    rw [if_pos rfl, hfrom]
    constructor
    · intro h
      exact absurd h (by simp)
    · intro h
      obtain rfl := Option.some.inj h
      exact absurd (hquiet.symm.trans hflush) (by decide)
  · rw [if_neg heq]

/-- The next step of a call that is at a stage. -/
def turn (s : KvpStore) (call : Nat) (ord : IterOrder Text) (stage : Stage) : KvpEntry :=
  ⟨s, .advance call ord, (s.next call ord stage).2, (s.next call ord stage).1⟩

theorem edited_turn {s : KvpStore} {call : Nat} (ord : IterOrder Text) {stage : Stage}
    (hcall : s.calls.lookup call = some stage) (hstage : ∀ e, stage ≠ .edit e) :
    edited (turn s call ord stage) = none := by
  unfold edited turn
  simp only [hcall]
  cases stage with
  | edit e => exact absurd rfl (hstage e)
  | mark e => rfl
  | swap e => rfl
  | snapshot e => rfl
  | write e encoded => rfl
  | rename e => rfl
  | failed e => rfl

variable {call : Nat} {ord : IterOrder Text}

/-- The turn of a call that is not about to mark the store leaves what is covered covered. -/
theorem Covered.turn {upTo : List KvpEntry} (h : Covered upTo past s) {stage : Stage}
    (hcall : s.calls.lookup call = some stage) (hmark : ∀ e, stage ≠ .mark e) {entry : KvpEntry}
    (hquiet : edited entry = none) {s' : KvpStore}
    (hcalls : ∀ other, other ≠ call → s'.calls.lookup other = s.calls.lookup other)
    (hdirty : s.dirty = true → s'.dirty = true) : Covered upTo (entry :: past) s' := by
  obtain ⟨later, rfl, hlater⟩ := h
  refine ⟨entry :: later, rfl, fun x hx => ?_⟩
  rw [edits_of_quiet hquiet] at hx
  rcases hlater x hx with hmarked | hset
  · refine .inl ((hcalls x.1 ?_).trans hmarked)
    intro heq
    rw [heq, hcall] at hmarked
    exact hmark x.2 (Option.some.inj hmarked)
  · exact .inr (hdirty hset)

/-- The map is changed. -/
theorem Ordered.edit (h : Ordered init past s) {e : Edit}
    (hcall : s.calls.lookup call = some (.edit e)) :
    Ordered init (turn s call ord (.edit e) :: past) (s.next call ord (.edit e)).1 := by
  have hedits : ∀ tail, edits (turn s call ord (.edit e) :: tail) = edits tail ++ [(call, e)] := by
    intro tail
    rw [edits_cons]
    simp only [edited, turn, hcall]
    rfl
  have hok := h.calls call _ hcall
  obtain ⟨onDisk, hsuffix, hmirrors, hphase⟩ := h.disk
  refine ⟨?_, ?_, ?_, onDisk, hsuffix.trans (List.suffix_cons _ _), hmirrors, ?_⟩
  · unfold mapAfter WriteLog.replay
    rw [hedits, List.map_append, List.foldl_append]
    show WriteLog.put s.entries e.write = _
    rw [h.entries]
    rfl
  · intro flat value hvalue
    have hput := WriteLog.lookup_put s.entries e.write flat
    rw [show (WriteLog.put s.entries e.write).lookup flat = some value from hvalue] at hput
    by_cases hkey : e.write.key = flat
    · rw [← hkey]
      exact hok.keyed e rfl
    · rw [if_neg hkey] at hput
      exact h.keyed flat value hput.symm
  · rw [hedits]
    refine callOk_insert h.calls (List.subset_append_left _ _) le_rfl
      ⟨hok.numbered, by simp, ?_, by simp⟩
    intro e' he'
    obtain rfl := Option.some.inj he'
    simp
  · refine hphase.frame (flushing_of_insert hcall rfl rfl) rfl ?_
    rintro upTo ⟨later, rfl, hlater⟩
    refine ⟨turn s call ord (.edit e) :: later, rfl, fun x hx => ?_⟩
    have hlookup := Map.lookup_insert_of call x.1 (Stage.mark e) s.calls
    rw [hedits, List.mem_append, List.mem_singleton] at hx
    rcases hx with hx | rfl
    · rcases hlater x hx with hmark | hdirty
      · refine .inl (hlookup.trans ?_)
        rw [if_neg, hmark]
        intro heq
        rw [heq, hcall] at hmark
        exact absurd (Option.some.inj hmark) (by simp)
      · exact .inr hdirty
    · exact .inl (hlookup.trans (if_pos rfl))

/-- The store is marked: every edit is accounted for. -/
theorem Ordered.mark (h : Ordered init past s) {e : Edit}
    (hcall : s.calls.lookup call = some (.mark e)) :
    Ordered init (turn s call ord (.mark e) :: past) (s.next call ord (.mark e)).1 := by
  have hquiet := edited_turn ord hcall (by simp)
  have hok := h.calls call _ hcall
  have hall : ∀ {s' : KvpStore}, s'.dirty = true → ∀ upTo, Covered upTo past s →
      Covered upTo (turn s call ord (.mark e) :: past) s' := by
    rintro s' hdirty upTo ⟨later, rfl, -⟩
    exact ⟨_ :: later, rfl, fun _ _ => .inr hdirty⟩
  obtain ⟨onDisk, hsuffix, hmirrors, hphase⟩ := h.disk
  by_cases hsync : e.sync = true
  · have hnext : (s.next call ord (.mark e)).1
        = { s with dirty := true, calls := s.calls.insert call (.swap (some e)) } := by
      simp [KvpStore.next, hsync, KvpStore.goOn]
    rw [hnext]
    refine h.quiet hquiet rfl ?_ ⟨onDisk, hsuffix, hmirrors, ?_⟩
    · exact callOk_insert h.calls (List.Subset.refl _) le_rfl
        (hok.onward rfl (by simp) (by simp))
    · exact hphase.frame (flushing_of_insert hcall rfl rfl) rfl (hall rfl)
  · have hnext : (s.next call ord (.mark e)).1
        = { s with dirty := true, calls := s.calls.erase call } := by
      simp [KvpStore.next, hsync, KvpStore.finish]
    rw [hnext]
    refine h.quiet hquiet rfl (callOk_erase h.calls call) ⟨onDisk, hsuffix, hmirrors, ?_⟩
    exact hphase.frame (flushing_of_erase hcall rfl) rfl (hall rfl)

/-- A file with an edit in it has that edit of its key or a later one. -/
theorem holds_of_mirrors {taken : List KvpEntry} {file : Option KvpFile} {e : Edit}
    (hsuffix : taken <:+ past) (hmirrors : Mirrors init taken file) (hin : (call, e) ∈ edits taken) :
    Holds past file call e := by
  obtain ⟨later, rfl⟩ := hsuffix
  obtain ⟨before, after, hsplit⟩ := List.append_of_mem hin
  refine ⟨before, after ++ edits later, ?_, ?_⟩
  · rw [edits_append, hsplit, List.append_assoc, List.cons_append]
  · have hvalue := hmirrors e.write.key
    unfold mapAfter at hvalue
    rw [hsplit, List.map_append, List.map_cons, WriteLog.lookup_replay,
      WriteLog.last_append_cons _ _ _ rfl] at hvalue
    have hsome : (WriteLog.last e.write.key
        (e.write :: after.map fun x => x.2.write)).isSome = true :=
      WriteLog.last_isSome ⟨_, List.mem_cons_self, rfl⟩
    obtain ⟨image, himage⟩ := Option.isSome_iff_exists.mp hsome
    obtain ⟨w, hw, hkey, hwimage⟩ := WriteLog.mem_of_last himage
    rw [himage, Option.getD_some] at hvalue
    rw [← List.map_cons (f := fun x : Nat × Edit => x.2.write) (a := (call, e))] at hw
    obtain ⟨x, hx, rfl⟩ := List.mem_map.mp hw
    refine ⟨x, ?_, hkey, by rw [hvalue, hwimage]⟩
    rcases List.mem_cons.mp hx with rfl | hx
    · exact List.mem_cons_self
    · exact List.mem_cons_of_mem _ (List.mem_append_left _ hx)

/-- While nobody is flushing, the file or the mark accounts for every edit. -/
theorem Phase.covered_of_quiet {onDisk : List KvpEntry} (h : Phase init past s onDisk)
    (hquiet : ∀ call stage, s.calls.lookup call = some stage → stage.flushing = false) :
    Covered onDisk past s := by
  cases h with
  | idle _ covered => exact covered
  | taking call e at_ only => exact absurd (hquiet call _ at_) (by simp [Stage.flushing])
  | writing call e encoded taken at_ only mirrors own covered =>
      exact absurd (hquiet call _ at_) (by simp [Stage.flushing])
  | placing call e encoded taken at_ only temporary mirrors own covered =>
      exact absurd (hquiet call _ at_) (by simp [Stage.flushing])

/-- The mark is swapped away. -/
theorem Ordered.take (h : Ordered init past s) {e : Option Edit}
    (hcall : s.calls.lookup call = some (.swap e)) (hdirty : s.dirty = true)
    (hapart : ∀ call stage, s.calls.lookup call = some stage → stage.flushing = false) :
    Ordered init (turn s call ord (.swap e) :: past) (s.next call ord (.swap e)).1 := by
  have hquiet := edited_turn ord hcall (by simp)
  have hok := h.calls call _ hcall
  obtain ⟨onDisk, hsuffix, hmirrors, hphase⟩ := h.disk
  have hnext : (s.next call ord (.swap e)).1
      = { s with dirty := false, calls := s.calls.insert call (.snapshot e) } := by
    simp [KvpStore.next, hdirty, KvpStore.goOn]
  rw [hnext]
  refine h.quiet hquiet rfl ?_ ⟨onDisk, hsuffix, hmirrors, ?_⟩
  · exact callOk_insert h.calls (List.Subset.refl _) le_rfl
      (hok.onward rfl (by simp) (by simp))
  · refine .taking call e (AList.lookup_insert _) ?_
    intro other stage hother hflush
    by_contra hne
    have hother' := (AList.lookup_insert_ne hne).symm.trans hother
    exact absurd ((hapart other stage hother').symm.trans hflush) (by decide)

/-- The mark is not set, and the call returns. -/
theorem Ordered.unset (h : Ordered init past s) {e : Option Edit}
    (hcall : s.calls.lookup call = some (.swap e)) (hdirty : ¬ s.dirty = true) :
    Ordered init (turn s call ord (.swap e) :: past) (s.next call ord (.swap e)).1 := by
  have hquiet := edited_turn ord hcall (by simp)
  obtain ⟨onDisk, hsuffix, hmirrors, hphase⟩ := h.disk
  have hnext : (s.next call ord (.swap e)).1 = { s with calls := s.calls.erase call } := by
    simp [KvpStore.next, hdirty, KvpStore.finish]
  rw [hnext]
  refine h.quiet hquiet rfl (callOk_erase h.calls call) ⟨onDisk, hsuffix, hmirrors, ?_⟩
  refine hphase.frame (flushing_of_erase hcall rfl) rfl ?_
  intro upTo hupTo
  exact hupTo.turn hcall (by simp) hquiet (fun _ hne => AList.lookup_erase_ne hne) id

/-- While nobody is flushing, the edit of a call that finds the mark gone is on disk. -/
theorem Ordered.unset_holds (h : Ordered init past s) {e : Edit}
    (hcall : s.calls.lookup call = some (.swap (some e))) (hdirty : ¬ s.dirty = true)
    (hapart : ∀ call stage, s.calls.lookup call = some stage → stage.flushing = false) :
    Holds (turn s call ord (.swap (some e)) :: past)
      (s.next call ord (.swap (some e))).1.file call e := by
  have hmade := (h.calls call _ hcall).made e rfl
  obtain ⟨onDisk, hsuffix, hmirrors, hphase⟩ := h.disk
  have hin : (call, e) ∈ edits onDisk := by
    obtain ⟨later, rfl, hlater⟩ := hphase.covered_of_quiet hapart
    rw [edits_append, List.mem_append] at hmade
    rcases hmade with hin | hin
    · exact hin
    · rcases hlater (call, e) hin with hmark | hmarked
      · rw [hcall] at hmark
        exact absurd (Option.some.inj hmark) (by simp)
      · exact absurd hmarked hdirty
  have hfile : (s.next call ord (.swap (some e))).1.file = s.file := by
    simp [KvpStore.next, hdirty, KvpStore.finish]
  rw [hfile]
  exact holds_of_mirrors (hsuffix.trans (List.suffix_cons _ _)) hmirrors hin

/-- Only the flushing call goes from one flushing stage to the next. -/
theorem onlyFlush_insert {calls : Map Nat Stage}
    (honly : ∀ other stage, calls.lookup other = some stage → stage.flushing = true →
      other = call) (to' : Stage) :
    ∀ other stage, (calls.insert call to').lookup other = some stage → stage.flushing = true →
      other = call := by
  intro other stage hother hflush
  by_contra hne
  exact hne (honly other stage ((AList.lookup_insert_ne hne).symm.trans hother) hflush)

/-- What a phase says when a flushing call has its turn. -/
theorem Phase.of_flushing {onDisk : List KvpEntry} (h : Phase init past s onDisk) {stage : Stage}
    (hcall : s.calls.lookup call = some stage) (hflush : stage.flushing = true) :
    OnlyFlush s call
      ∧ ((∃ e, stage = .snapshot e)
        ∨ ∃ e encoded taken, (stage = .write e encoded
            ∨ stage = .rename e ∧ s.temporary = some encoded)
          ∧ Mirrors init taken (some encoded)
          ∧ (∀ edit, e = some edit → (call, edit) ∈ edits taken) ∧ Covered taken past s) := by
  cases h with
  | idle quiet _ => exact absurd ((quiet call stage hcall).symm.trans hflush) (by decide)
  | taking other e at_ only =>
      obtain rfl := only call stage hcall hflush
      obtain rfl := Option.some.inj (hcall.symm.trans at_)
      exact ⟨only, .inl ⟨e, rfl⟩⟩
  | writing other e encoded taken at_ only mirrors own covered =>
      obtain rfl := only call stage hcall hflush
      obtain rfl := Option.some.inj (hcall.symm.trans at_)
      exact ⟨only, .inr ⟨e, encoded, taken, .inl rfl, mirrors, own, covered⟩⟩
  | placing other e encoded taken at_ only temporary mirrors own covered =>
      obtain rfl := only call stage hcall hflush
      obtain rfl := Option.some.inj (hcall.symm.trans at_)
      exact ⟨only, .inr ⟨e, encoded, taken, .inr ⟨rfl, temporary⟩, mirrors, own, covered⟩⟩

/-- The snapshot has every edit made so far. -/
theorem Ordered.snapshot (h : Ordered init past s) {e : Option Edit}
    (hcall : s.calls.lookup call = some (.snapshot e)) :
    Ordered init (turn s call ord (.snapshot e) :: past) (s.next call ord (.snapshot e)).1 := by
  have hquiet := edited_turn ord hcall (by simp)
  have hok := h.calls call _ hcall
  obtain ⟨onDisk, hsuffix, hmirrors, hphase⟩ := h.disk
  have honly := (hphase.of_flushing hcall rfl).1
  refine h.quiet hquiet rfl ?_ ⟨onDisk, hsuffix, hmirrors, ?_⟩
  · exact callOk_insert h.calls (List.Subset.refl _) le_rfl
      (hok.onward rfl (by simp) (by simp))
  · refine .writing call e _ past (AList.lookup_insert _) (onlyFlush_insert honly _)
      ?_ ?_ ⟨[turn s call ord (.snapshot e)], rfl, ?_⟩
    · intro flat
      rw [lookup_load_byResource h.keyed ord flat, h.entries]
    · intro edit hedit
      exact hok.made edit hedit
    · intro x hx
      rw [edits_of_quiet hquiet] at hx
      exact absurd hx (by simp [edits])

/-- The temporary file is written. -/
theorem Ordered.write (h : Ordered init past s) {e : Option Edit} {encoded : KvpFile}
    (hcall : s.calls.lookup call = some (.write e encoded)) :
    Ordered init (turn s call ord (.write e encoded) :: past)
      (s.next call ord (.write e encoded)).1 := by
  have hquiet := edited_turn ord hcall (by simp)
  have hok := h.calls call _ hcall
  obtain ⟨onDisk, hsuffix, hmirrors, hphase⟩ := h.disk
  obtain ⟨honly, hwhich⟩ := hphase.of_flushing hcall rfl
  refine h.quiet hquiet rfl ?_ ⟨onDisk, hsuffix, hmirrors, ?_⟩
  · exact callOk_insert h.calls (List.Subset.refl _) le_rfl
      (hok.onward rfl (by simp) (by simp))
  · rcases hwhich with ⟨e', heq⟩ | ⟨e', encoded', taken, hstage, htaken, hown, hcovered⟩
    · exact absurd heq (by simp)
    · rcases hstage with heq | ⟨heq, -⟩
      · obtain ⟨rfl, rfl⟩ := Stage.write.inj heq
        exact .placing call e encoded taken (AList.lookup_insert _) (onlyFlush_insert honly _) rfl
          htaken hown
          (hcovered.turn hcall (by simp) hquiet (fun _ hne => AList.lookup_insert_ne hne) id)
      · exact absurd heq (by simp)

/-- The file is renamed into place, and with it the edit of this call. -/
theorem Ordered.rename (h : Ordered init past s) (ord : IterOrder Text) {e : Option Edit}
    (hcall : s.calls.lookup call = some (.rename e)) :
    Ordered init (turn s call ord (.rename e) :: past) (s.next call ord (.rename e)).1
      ∧ ∀ edit, (s.next call ord (.rename e)).2 = .returned call (some edit) →
        Holds (turn s call ord (.rename e) :: past) (s.next call ord (.rename e)).1.file call
          edit := by
  have hquiet := edited_turn ord hcall (by simp)
  obtain ⟨onDisk, hsuffix, hmirrors, hphase⟩ := h.disk
  obtain ⟨honly, hwhich⟩ := hphase.of_flushing hcall rfl
  rcases hwhich with ⟨e', heq⟩ | ⟨e', encoded, taken, hstage, htaken, hown, hcovered⟩
  · exact absurd heq (by simp)
  · rcases hstage with heq | ⟨heq, htemporary⟩
    · exact absurd heq (by simp)
    · obtain rfl := Stage.rename.inj heq
      have hnext : s.next call ord (.rename e)
          = ({ s with file := some encoded, temporary := none, calls := s.calls.erase call },
            .returned call e) := by
        simp [KvpStore.next, htemporary, KvpStore.finish]
      rw [hnext]
      have hlater := hcovered.suffix.trans (List.suffix_cons (turn s call ord (.rename e)) past)
      refine ⟨h.quiet hquiet rfl (callOk_erase h.calls call)
        ⟨taken, hcovered.suffix, htaken, .idle ?_ ?_⟩, ?_⟩
      · intro other stage hother
        by_contra hflush
        rw [Bool.not_eq_false] at hflush
        have hcalls : (s.calls.erase call).lookup other = some stage := hother
        rw [Map.lookup_erase_of] at hcalls
        split at hcalls
        · exact absurd hcalls (by simp)
        · next hne => exact hne (honly other stage hcalls hflush)
      · exact hcovered.turn hcall (by simp) hquiet (fun _ hne => AList.lookup_erase_ne hne) id
      · intro edit hreturned
        obtain ⟨-, rfl⟩ := KvpAnswer.returned.inj hreturned
        exact holds_of_mirrors hlater htaken (hown edit rfl)

end Steps

/-- A step that returns returns the call whose turn it was. -/
theorem KvpStore.returned_call {s : KvpStore} {call other : Nat} {ord : IterOrder Text}
    {stage : Stage} {edit : Option Edit}
    (h : (s.next call ord stage).2 = .returned other edit) : other = call := by
  cases stage with
  | edit e => exact absurd h (by simp [next, goOn])
  | snapshot e => exact absurd h (by simp [next, goOn])
  | write e encoded => exact absurd h (by simp [next, goOn])
  | failed e => exact (KvpAnswer.returned.inj h).1.symm
  | mark e =>
      unfold next at h
      simp only at h
      split at h
      · exact absurd h (by simp [goOn])
      · exact (KvpAnswer.returned.inj h).1.symm
  | swap e =>
      unfold next at h
      simp only at h
      split at h
      · exact absurd h (by simp [goOn])
      · exact (KvpAnswer.returned.inj h).1.symm
  | rename e =>
      unfold next at h
      simp only at h
      split at h
      · exact (KvpAnswer.returned.inj h).1.symm
      · exact absurd h (by simp [goOn])

/-! ### Runs -/

theorem ordered_init (init : Option KvpFile) : Ordered init [] (KvpStore.openFile init) := by
  refine ⟨rfl, ?_, ?_, [], List.suffix_refl _, fun flat => rfl, .idle ?_ ?_⟩
  · intro flat value hvalue
    cases init with
    | none => exact absurd hvalue (by simp [KvpStore.openFile, load])
    | some file =>
        have hload : (load (some file)).lookup flat = some value := hvalue
        unfold load at hload
        rw [WriteLog.lookup_replay, AList.lookup_empty] at hload
        cases hlast : WriteLog.last flat (fileEntries file) with
        | none =>
            rw [hlast] at hload
            exact absurd hload (by simp)
        | some image =>
            obtain ⟨w, hw, rfl, -⟩ := WriteLog.mem_of_last hlast
            obtain ⟨resource, key, -, -, rfl⟩ := mem_fileEntries.mp hw
            exact splitOnce_flatKey resource key
  · intro call stage hcall
    exact absurd hcall (by simp [KvpStore.openFile])
  · intro call stage hcall
    exact absurd hcall (by simp [KvpStore.openFile])
  · exact ⟨[], rfl, fun x hx => absurd hx (by simp [edits])⟩

/-- **One step of a run with its flushes apart**: what it keeps, and that a call that returns after
writing through is on disk. -/
theorem Ordered.step {init : Option KvpFile} {past : List KvpEntry} {s s' : KvpStore} {op : KvpOp}
    {a : KvpAnswer} (h : Ordered init past s) (hstep : KvpStore.step op s = some (s', a))
    (hapart : Apart past ⟨s, op, a, s'⟩) :
    Ordered init (⟨s, op, a, s'⟩ :: past) s'
      ∧ ∀ call edit, a = .returned call (some edit) → edit.sync = true →
        Holds (⟨s, op, a, s'⟩ :: past) s'.file call edit := by
  cases op with
  | set resource key value sync =>
      obtain ⟨rfl, rfl⟩ := Prod.mk.inj (Option.some.inj hstep)
      exact ⟨h.begin rfl (.inr ⟨_, rfl, splitOnce_flatKey resource key⟩),
        fun call edit hreturned => absurd hreturned (by simp)⟩
  | remove resource key sync =>
      obtain ⟨rfl, rfl⟩ := Prod.mk.inj (Option.some.inj hstep)
      exact ⟨h.begin rfl (.inr ⟨_, rfl, splitOnce_flatKey resource key⟩),
        fun call edit hreturned => absurd hreturned (by simp)⟩
  | flush =>
      obtain ⟨rfl, rfl⟩ := Prod.mk.inj (Option.some.inj hstep)
      exact ⟨h.begin rfl (.inl rfl), fun call edit hreturned => absurd hreturned (by simp)⟩
  | advance call ord =>
      obtain ⟨stage, hcall, heq⟩ := Option.map_eq_some_iff.mp hstep
      have hs' : s' = (s.next call ord stage).1 := by rw [heq]
      have ha : a = (s.next call ord stage).2 := by rw [heq]
      subst hs' ha
      cases stage with
      | edit e =>
          exact ⟨h.edit hcall, fun _ _ hreturned =>
            absurd hreturned (by simp [KvpStore.next, KvpStore.goOn])⟩
      | mark e =>
          refine ⟨h.mark hcall, ?_⟩
          intro other edit hreturned hsync
          by_cases hthrough : e.sync = true
          · exact absurd hreturned (by simp [KvpStore.next, KvpStore.goOn, hthrough])
          · have hedit : (s.next call ord (.mark e)).2 = .returned call (some e) := by
              simp [KvpStore.next, KvpStore.finish, hthrough]
            rw [hedit] at hreturned
            obtain ⟨-, hsame⟩ := KvpAnswer.returned.inj hreturned
            rw [Option.some.inj hsame] at hthrough
            exact absurd hsync hthrough
      | swap e =>
          have hquiet : s.swapping (.swap e) = true → ∀ other stage,
              s.calls.lookup other = some stage → stage.flushing = false := by
            intro hswapping other stage hother
            have hswap : (s.calls.lookup call).any s.swapping = true := by
              rw [hcall]
              exact hswapping
            exact hapart hswap ⟨other, stage⟩ (AList.mem_lookup_iff.mp hother)
          by_cases hdirty : s.dirty = true
          · refine ⟨h.take hcall hdirty (hquiet ?_), fun _ _ hreturned => ?_⟩
            · simp [KvpStore.swapping, hdirty]
            · exact absurd hreturned (by simp [KvpStore.next, KvpStore.goOn, hdirty])
          · refine ⟨h.unset hcall hdirty, fun other edit hreturned _ => ?_⟩
            have hunset : (s.next call ord (.swap e)).2 = .returned call e := by
              simp [KvpStore.next, KvpStore.finish, hdirty]
            rw [hunset] at hreturned
            obtain ⟨rfl, rfl⟩ := KvpAnswer.returned.inj hreturned
            exact h.unset_holds hcall hdirty (hquiet (by simp [KvpStore.swapping]))
      | snapshot e =>
          exact ⟨h.snapshot hcall, fun _ _ hreturned =>
            absurd hreturned (by simp [KvpStore.next, KvpStore.goOn])⟩
      | write e encoded =>
          exact ⟨h.write hcall, fun _ _ hreturned =>
            absurd hreturned (by simp [KvpStore.next, KvpStore.goOn])⟩
      | rename e =>
          obtain ⟨hkept, hheld⟩ := h.rename ord hcall
          refine ⟨hkept, fun other edit hreturned _ => ?_⟩
          obtain rfl := KvpStore.returned_call hreturned
          exact hheld edit hreturned
      | failed e => exact absurd rfl ((h.calls call _ hcall).unfailed e)

/-- **Writes are durable in every run whose flushes stay apart.**  When a call that writes through
returns, the file holds its edit or a later one of the same key; and whenever no call is under way
and the store is not dirty, the file holds what the map does. -/
theorem writes_durable {init : Option KvpFile} {past : List KvpEntry} {s : KvpStore}
    (run : Run KvpStore.step (KvpStore.openFile init) past s) (hapart : Along Apart past) :
    Durable past s := by
  have inv := run.invariant (I := fun past s => Ordered init past s ∧ Durable past s) (P := Apart)
    ⟨ordered_init init, by
      refine ⟨fun e before call edit heq => absurd heq (by simp), fun _ _ flat => rfl⟩⟩
    (by
      rintro past s op a s' - ⟨hkept, -⟩ hstep hapart
      obtain ⟨hnext, hheld⟩ := hkept.step hstep hapart
      refine ⟨hnext, ?_, ?_⟩
      · intro e before call edit heq hreturned hsync
        obtain ⟨rfl, rfl⟩ := List.cons.inj heq
        exact hheld call edit hreturned hsync
      · intro hnone hclean flat
        obtain ⟨onDisk, -, hmirrors, hphase⟩ := hnext.disk
        obtain ⟨later, hlater, hmarked⟩ := hphase.covered_of_quiet (by
          intro call stage hcall
          rw [hnone] at hcall
          exact absurd hcall (by simp))
        -- with no call under way and no mark there is no edit beyond what is on disk
        have hedits : edits later = [] := by
          refine List.eq_nil_iff_forall_not_mem.mpr fun x hx => ?_
          rcases hmarked x hx with hmark | hdirty
          · rw [hnone] at hmark
            exact absurd hmark (by simp)
          · exact absurd (hclean.symm.trans hdirty) (by simp)
        rw [hnext.entries, hmirrors flat]
        unfold mapAfter
        rw [hlater, edits_append, hedits, List.append_nil])
    hapart
  exact inv.2

/-! ### Two writers -/

/-- A resource sets one of its keys and waits for the disk. -/
def setKey (key value : String) : KvpOp :=
  .set "bank".toList key.toList value.toList true

/-- The next `n` steps of a call. -/
def advances (call n : Nat) : List KvpOp := List.replicate n (.advance call (.stored _))

/-- Two writes one after the other, and a sweep that finds nothing to do while the second is on
its way to the disk. -/
def oneByOne : List KvpOp :=
  setKey "cash" "5" :: advances 0 6 ++ setKey "loan" "2" :: advances 1 4
    ++ .flush :: advances 2 1 ++ advances 1 2

/-- The second write finds the mark gone before the first has begun its file. -/
def markGone : List KvpOp :=
  [setKey "cash" "5", setKey "loan" "2"] ++ advances 0 2 ++ advances 1 2 ++ advances 0 1
    ++ advances 1 1

theorem oneByOne_durable : ∃ past s, Run KvpStore.step (KvpStore.openFile none) past s
    ∧ (edits past).length = 2 ∧ s.calls = ∅ ∧ s.dirty = false ∧ Durable past s := by
  have run := run_of_ops KvpStore.step (KvpStore.openFile none) oneByOne rfl
  exact ⟨_, _, run, by decide +kernel, rfl, rfl,
    writes_durable run (by decide +kernel)⟩

/-- Without a file nothing is durable once a call that writes through has returned, if all that
was written are values. -/
theorem not_durable_of_unwritten {e : KvpEntry} {before : List KvpEntry} {s : KvpStore}
    {call : Nat} {edit : Edit} (hreturned : e.answer = .returned call (some edit))
    (hsync : edit.sync = true) (hfile : s.file = none)
    (hvalues : ∀ x ∈ edits (e :: before), x.2.write.image.isSome = true) :
    ¬ Durable (e :: before) s := by
  intro hdurable
  obtain ⟨earlier, later, hedits, x, hx, -, himage⟩ :=
    hdurable.returned e before call edit rfl hreturned hsync
  have hmem : x ∈ edits (e :: before) := by
    rw [hedits]
    exact List.mem_append_right _ hx
  rw [hfile] at himage
  have hnone : x.2.write.image = none := himage.symm
  exact absurd (hvalues x hmem) (by rw [hnone]; simp)

/-- **A call that writes through returns with nothing on disk**, because another call has taken
the mark and not yet written its file. -/
theorem markGone_not_durable :
    ¬ ∀ (init : Option KvpFile) (past : List KvpEntry) (s : KvpStore),
      Run KvpStore.step (KvpStore.openFile init) past s → Durable past s := by
  intro h
  have run := run_of_ops KvpStore.step (KvpStore.openFile none) markGone rfl
  exact not_durable_of_unwritten rfl rfl rfl (by decide +kernel) (h none _ _ run)

end Baston.Scripting
