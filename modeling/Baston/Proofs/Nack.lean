/-
What a NACK brings back.

A NACK names the frames a client missed, and the repair rolls every entry back to the
frame before the first of them.  But an entry's base frame is the frame its entity was
last updated in, not the one its record was sent in, so an entity that was sent late is
not rolled back at all; a created entry stays created, so a lost create is never sent as
one; and of a lost remove no entry is left to send it again.  The condition under which
a lost record does come back is read off the entry the NACK finds.
-/
import Baston.Proofs.Entries

namespace Baston.Zone

open Assoc Baston.Rage Trace ServerGameState

variable {F : Type} [Scalar F]

/-- A record is a create or sync of `(id, u)`. -/
def OutboundRecord.updates (id u : UInt16) : OutboundRecord → Bool
  | .clone r => r.objectId = id && r.uniqifier = u
  | .remove _ _ => false

/-! ### What follows a NACK -/

/-- The entity is still the one it was, unchanged, and in scope if the step ticks `c`. -/
def holdsStill (c : UInt32) (id : UInt16) (e : ServerEntity F)
    (y : Entry (ServerGameState F) (Op F) Answer) : Bool :=
  ((y.pre.entities.lookup id).any fun e' => e'.uniqifier = e.uniqifier &&
    e'.frameIndex = e.frameIndex && e'.data = e.data) &&
    match y.pre.viewOf c, y.pre.tickOf y.op c with
    | some view, some ctx => (view.relevant ctx id).isSome
    | _, _ => true

/-- The client stays connected, and nothing under the id is in scope if the step ticks it. -/
def staysOut (c : UInt32) (id : UInt16) (y : Entry (ServerGameState F) (Op F) Answer) : Bool :=
  (match y.op with
    | .removeClient _ source => decide (source ≠ c)
    | _ => true) &&
    match y.pre.viewOf c, y.pre.tickOf y.op c with
    | some view, some ctx => (view.relevant ctx id).isNone
    | _, _ => true

/-- The step ticks `c` with a remove budget that covers everything that left its scope. -/
def roomyExit (c : UInt32) (y : Entry (ServerGameState F) (Op F) Answer) : Bool :=
  match y.pre.viewOf c, y.pre.tickOf y.op c with
  | some view, some ctx =>
    (ClientView.exited (view.mark ctx).1).length ≤ ClientView.maxRemoves ctx.cfg
  | _, _ => false

/-- A record that was lost is sent again after the NACK that `s` takes: a create or sync if
its entity is still there, unchanged and in scope, by the first tick the budget allows, a
create as a create; a remove if the entity stays out of scope. -/
def Resent (c : UInt32) (s : ServerGameState F)
    (later : List (Entry (ServerGameState F) (Op F) Answer)) : OutboundRecord → Prop
  | .clone r =>
    ∀ e ∈ s.entities.lookup r.objectId, e.uniqifier = r.uniqifier →
      (∀ y ∈ later, holdsStill c r.objectId e y = true) →
      (∃ y ∈ later, y.pre.roomyTick y.op c = true) →
      ∃ z ∈ later, ((z.pre.sentTo z.op c).any fun r' =>
        if r.syncType = Rec.create then r'.creates r.objectId r.uniqifier
        else r'.updates r.objectId r.uniqifier) = true
  | .remove id u =>
    (∀ y ∈ later, staysOut c id y = true) → (∃ y ∈ later, roomyExit c y = true) →
      ∃ z ∈ later, OutboundRecord.remove id u ∈ z.pre.sentTo z.op c

instance Resent.decidable (c : UInt32) (s : ServerGameState F)
    (later : List (Entry (ServerGameState F) (Op F) Answer)) :
    ∀ r, Decidable (Resent c s later r)
  | .clone r => inferInstanceAs (Decidable (∀ e ∈ s.entities.lookup r.objectId,
      e.uniqifier = r.uniqifier → (∀ y ∈ later, holdsStill c r.objectId e y = true) →
      (∃ y ∈ later, y.pre.roomyTick y.op c = true) →
      ∃ z ∈ later, ((z.pre.sentTo z.op c).any fun r' =>
        if r.syncType = Rec.create then r'.creates r.objectId r.uniqifier
        else r'.updates r.objectId r.uniqifier) = true))
  | .remove id u => inferInstanceAs (Decidable ((∀ y ∈ later, staysOut c id y = true) →
      (∃ y ∈ later, roomyExit c y = true) →
      ∃ z ∈ later, OutboundRecord.remove id u ∈ z.pre.sentTo z.op c))

/-! ### When a record comes back -/

/-- What the entry and the entity must be like before a NACK for a lost record to be sent
again.  A create needs an entry that is not created, or is about to be recreated; a sync
also does with an entity that is newer than the frame it is rolled back to; a remove
needs an entry to remove. -/
def recoverable (s : ServerGameState F) (c : UInt32) (n : GameStateNAck) (first : UInt64) :
    OutboundRecord → Bool
  | .clone r =>
    (s.entities.lookup r.objectId).all fun e => e.uniqifier ≠ r.uniqifier ||
      (s.entryOf c r.objectId).all fun v =>
        !v.created || r.objectId ∈ n.recreateList ||
          (r.syncType ≠ Rec.create && e.data ≠ [] &&
            (v.baseFrame < e.frameIndex || frameBefore first < e.frameIndex ||
              n.ignoreList.any fun i => i.objectId = r.objectId && i.lastFrame < e.frameIndex))
  | .remove id u => (s.entryOf c id).any (·.uniqifier = u)

/-- Every record of `c` in the frames a NACK reports missing is recoverable. -/
def recoversAll (c : UInt32) (past : List (Entry (ServerGameState F) (Op F) Answer))
    (x : Entry (ServerGameState F) (Op F) Answer) : Bool :=
  match x.op with
  | .nack source n =>
    source ≠ c ||
      n.missingFrames.all fun range =>
        past.all fun z => !(range.1 ≤ z.pre.frameIndex && z.pre.frameIndex ≤ range.2) ||
          (z.pre.sentTo z.op c).all (recoverable x.pre c n range.1)
  | _ => true

omit [Scalar F] in
theorem entryOf_applyNack (s : ServerGameState F) (c : UInt32) (n : GameStateNAck) (id : UInt16) :
    (s.applyNack c n).entryOf c id = (s.entryOf c id).map (nackEntry n id) := by
  unfold entryOf viewOf applyNack
  simp only [Map.lookup_modify_self]
  cases s.clients.lookup c with
  | none => rfl
  | some st => exact lookup_nackView n st.view id

/-! ### Records that are due -/

/-- An entry that makes the next tick with room send something of its entity. -/
def Due (e : ServerEntity F) (v : EntityView F) : Prop :=
  v.created = true → v.baseFrame < e.frameIndex ∧ e.data ≠ []

omit [Scalar F] in
theorem Due.repair {e : ServerEntity F} {v : EntityView F} (h : Due e v)
    (ignoreList : List IgnoreEntry) (recreateList : List UInt16) (id : UInt16) :
    Due e (repairEntry ignoreList recreateList id v) := by
  intro hc
  obtain ⟨hcreated, hback⟩ := repairEntry_back hc
  obtain ⟨hbase, hdata⟩ := h hcreated
  exact ⟨hback _ hbase, hdata⟩

omit [Scalar F] in
theorem Due.nack {e : ServerEntity F} {v : EntityView F} (h : Due e v) (n : GameStateNAck)
    (id : UInt16) : Due e (nackEntry n id v) := by
  intro hc
  obtain ⟨hcreated, hback⟩ := nackEntry_back hc
  obtain ⟨hbase, hdata⟩ := h hcreated
  exact ⟨hback _ hbase, hdata⟩

omit [Scalar F] in
/-- A repaired entry is due if one of the frames it is rolled back to is old enough. -/
theorem nackEntry_due {e : ServerEntity F} {v : EntityView F} {n : GameStateNAck} {id : UInt16}
    {first last : UInt64} (hmissing : n.missingFrames = some (first, last))
    (h : v.created = false ∨ id ∈ n.recreateList ∨
      (e.data ≠ [] ∧ (v.baseFrame < e.frameIndex ∨ frameBefore first < e.frameIndex ∨
        ∃ i ∈ n.ignoreList, i.objectId = id ∧ i.lastFrame < e.frameIndex))) :
    Due e (nackEntry n id v) := by
  intro hc
  unfold nackEntry repairEntry at hc ⊢
  split at hc
  · exact absurd hc (by simp)
  · rename_i hmem
    rw [if_neg hmem]
    rcases h with hnew | hrec | ⟨hdata, hframe⟩
    · rw [show v.created = true from hc] at hnew
      exact absurd hnew (by simp)
    · exact absurd hrec hmem
    · refine ⟨(foldl_min_lt _ _ _).mpr ?_, hdata⟩
      simp only [hmissing]
      rw [min_lt_iff_or]
      rcases hframe with hbase | hfirst | ⟨i, hi, hid, hlast⟩
      · exact .inl (.inl hbase)
      · exact .inl (.inr hfirst)
      · exact .inr ⟨i.lastFrame, List.mem_map.mpr ⟨i, List.mem_filter.mpr ⟨hi, by simpa using hid⟩,
          rfl⟩, hlast⟩

theorem pending_due (id : UInt16) (e : ServerEntity F) : Pending id e (Due e) where
  repair := fun ignoreList recreateList h => h.repair ignoreList recreateList id
  nack := fun n h => h.nack n id
  refresh := by
    intro before ctx snap h
    cases before with
    | none =>
        intro hc
        exact absurd hc (by simp [ClientView.refreshed])
    | some v => exact h v rfl
  behind := fun h hc => (h hc).1

theorem update_due {lz4 : Lz4} {s s' : ServerGameState F} {op : Op F} {a : Answer}
    (filed : Filed s) (h : step lz4 op s = some (s', a)) {c : UInt32} {id : UInt16}
    {e : ServerEntity F} (he : s.entities.lookup id = some e)
    (hscope : ∀ view ctx, s.viewOf c = some view → s.tickOf op c = some ctx →
      view.relevant ctx id = some e.snapshot)
    (hdue : ∀ v, s.entryOf c id = some v → Due e v) :
    (s.sentTo op c).any (·.updates id e.uniqifier) = true ∨
      (s.roomyTick op c = false ∧ ∀ v, s'.entryOf c id = some v → Due e v) := by
  rcases (pending_due id e).step filed h hscope hdue with ⟨view, act, hact, hsent⟩ | hwait
  · left
    rw [List.any_eq_true]
    rcases hact with rfl | ⟨v, hv, hc, rfl⟩
    · refine ⟨_, hsent _ (createRecord_eq he), ?_⟩
      simp [OutboundRecord.updates, createRecord, filed.entity he]
    · refine ⟨_, hsent _ (syncRecord_eq he (hv hc).2), ?_⟩
      simp [OutboundRecord.updates, syncRecord, filed.entity he]
  · exact .inr hwait

theorem staysOut_iff {c : UInt32} {id : UInt16} {y : Entry (ServerGameState F) (Op F) Answer} :
    staysOut c id y = true ↔ (∀ ord, y.op ≠ .removeClient ord c) ∧
      ∀ view ctx, y.pre.viewOf c = some view → y.pre.tickOf y.op c = some ctx →
        view.relevant ctx id = none := by
  unfold staysOut
  rw [Bool.and_eq_true]
  refine and_congr ?_ ?_
  · split
    · rename_i heq
      rw [heq]
      simp
    · rename_i hne
      exact ⟨fun _ ord heq => hne ord c heq, fun _ => rfl⟩
  · split
    · rename_i view ctx hv ht
      simp [hv, ht]
    · rename_i hne
      exact ⟨fun _ view ctx hv ht => absurd ht (hne view ctx hv), fun _ => rfl⟩

/-- A remove that is due is sent by the first tick with room for it. -/
theorem remove_due {lz4 : Lz4} {s s' : ServerGameState F} {op : Op F} {a : Answer}
    (filed : Filed s) (h : step lz4 op s = some (s', a)) {c : UInt32} {id u : UInt16}
    (hout : staysOut c id ⟨s, op, a, s'⟩ = true)
    (hdue : ∃ v, s.entryOf c id = some v ∧ v.uniqifier = u) :
    OutboundRecord.remove id u ∈ s.sentTo op c ∨
      (roomyExit c ⟨s, op, a, s'⟩ = false ∧ ∃ v, s'.entryOf c id = some v ∧ v.uniqifier = u) := by
  obtain ⟨hstay, hscope⟩ := staysOut_iff.mp hout
  obtain ⟨v, hv, rfl⟩ := hdue
  have idle : s.viewOf c = none ∨ s.tickOf op c = none →
      roomyExit c ⟨s, op, a, s'⟩ = false := by
    intro hidle
    unfold roomyExit
    rcases hidle with hnone | hnone
    · simp [hnone]
    · simp [hnone]
  have heff := entry_effect filed h c id
  have hsent : ∀ {r}, r ∈ s.sentAbout op c id → r ∈ s.sentTo op c :=
    fun hr => (mem_sentAbout.mp hr).1
  rw [hv] at heff
  generalize s.sentAbout op c id = sent at heff hsent
  generalize s'.entryOf c id = after at heff
  cases heff with
  | same hidle => exact .inr ⟨idle hidle, v, rfl, rfl⟩
  | left hop => exact absurd hop (hstay _)
  | nacked hop =>
      exact .inr ⟨idle (.inr (by rw [hop]; rfl)), _, rfl, repairEntry_uniqifier _ _ _ _⟩
  | acked hop =>
      exact .inr ⟨idle (.inr (by rw [hop]; rfl)), _, rfl, repairEntry_uniqifier _ _ _ _⟩
  | ticked hview tick effect =>
      rw [hscope _ _ hview tick] at effect
      cases effect with
      | exits => exact .inl (hsent (by simp [actionRecord]))
      | lingers beyond =>
          refine .inr ⟨?_, _, rfl, rfl⟩
          simpa [roomyExit, hview, tick] using beyond

theorem holdsStill_entity {c : UInt32} {id : UInt16} {e : ServerEntity F}
    {y : Entry (ServerGameState F) (Op F) Answer} (filed : Filed y.pre)
    (h : holdsStill c id e y = true) :
    ∃ e', y.pre.entities.lookup id = some e' ∧ e'.uniqifier = e.uniqifier ∧
      e'.frameIndex = e.frameIndex ∧ e'.data = e.data ∧
      ∀ view ctx, y.pre.viewOf c = some view → y.pre.tickOf y.op c = some ctx →
        view.relevant ctx id = some e'.snapshot := by
  unfold holdsStill at h
  simp only [Bool.and_eq_true, Option.any_eq_true, decide_eq_true_eq] at h
  obtain ⟨⟨e', he', ⟨hu, hf⟩, hd⟩, hscope⟩ := h
  refine ⟨e', he', hu, hf, hd, ?_⟩
  intro view ctx hv ht
  rw [hv, ht] at hscope
  obtain ⟨snap, hsnap⟩ := Option.isSome_iff_exists.mp hscope
  obtain ⟨ent, hl, rfl, -, -⟩ := filed.relevant_entity ht hsnap
  rw [he'] at hl
  rw [hsnap, ← Option.some.inj hl]

/-! ### Runs after a NACK -/

section
variable {lz4 : Lz4} {mid s : ServerGameState F} {c : UInt32} {id u : UInt16}
  {later : List (Entry (ServerGameState F) (Op F) Answer)}

/-- An entity that is new to the client is created. -/
theorem create_resent (run : Run (step lz4) mid later s) (filed : Filed mid)
    {e : ServerEntity F} (hstill : ∀ y ∈ later, holdsStill c id e y = true)
    (hnew : ∀ v, mid.entryOf c id = some v → v.created = false)
    (hroom : ∃ y ∈ later, y.pre.roomyTick y.op c = true) :
    ∃ z ∈ later, (z.pre.sentTo z.op c).any (·.creates id e.uniqifier) = true :=
  run.delivers (D := fun t => Filed t ∧ ∀ v, t.entryOf c id = some v → v.created = false)
    (K := fun y => holdsStill c id e y = true)
    (S := fun z => (z.pre.sentTo z.op c).any (·.creates id e.uniqifier) = true)
    (R := fun y => y.pre.roomyTick y.op c = true)
    (by
      rintro t op a t' ⟨ht, hv⟩ hstep hP
      obtain ⟨e', he', hu, -, -, hscope⟩ := holdsStill_entity ht hP
      rcases create_due ht hstep he' hscope hv with hsent | ⟨hno, hv'⟩
      · rw [hu] at hsent
        exact .inl hsent
      · exact .inr ⟨by simp [hno], ht.step hstep, hv'⟩)
    ⟨filed, hnew⟩ hstill hroom

/-- An entity the client is behind on is sent. -/
theorem update_resent (run : Run (step lz4) mid later s) (filed : Filed mid)
    {e : ServerEntity F} (hstill : ∀ y ∈ later, holdsStill c id e y = true)
    (hdue : ∀ v, mid.entryOf c id = some v → Due e v)
    (hroom : ∃ y ∈ later, y.pre.roomyTick y.op c = true) :
    ∃ z ∈ later, (z.pre.sentTo z.op c).any (·.updates id e.uniqifier) = true :=
  run.delivers (D := fun t => Filed t ∧ ∀ v, t.entryOf c id = some v → Due e v)
    (K := fun y => holdsStill c id e y = true)
    (S := fun z => (z.pre.sentTo z.op c).any (·.updates id e.uniqifier) = true)
    (R := fun y => y.pre.roomyTick y.op c = true)
    (by
      rintro t op a t' ⟨ht, hv⟩ hstep hP
      obtain ⟨e', he', hu, hf, hd, hscope⟩ := holdsStill_entity ht hP
      have same : ∀ v : EntityView F, Due e v ↔ Due e' v := by
        intro v
        unfold Due
        rw [hf, hd]
      rcases update_due ht hstep he' hscope fun v hv' => (same v).mp (hv v hv') with
        hsent | ⟨hno, hv'⟩
      · rw [hu] at hsent
        exact .inl hsent
      · exact .inr ⟨by simp [hno], ht.step hstep, fun v hv'' => (same v).mpr (hv' v hv'')⟩)
    ⟨filed, hdue⟩ hstill hroom

/-- An entry that stays out of scope is removed. -/
theorem remove_resent (run : Run (step lz4) mid later s) (filed : Filed mid)
    (hout : ∀ y ∈ later, staysOut c id y = true)
    (hdue : ∃ v, mid.entryOf c id = some v ∧ v.uniqifier = u)
    (hroom : ∃ y ∈ later, roomyExit c y = true) :
    ∃ z ∈ later, OutboundRecord.remove id u ∈ z.pre.sentTo z.op c :=
  run.delivers (D := fun t => Filed t ∧ ∃ v, t.entryOf c id = some v ∧ v.uniqifier = u)
    (K := fun y => staysOut c id y = true)
    (S := fun z => OutboundRecord.remove id u ∈ z.pre.sentTo z.op c)
    (R := fun y => roomyExit c y = true)
    (by
      rintro t op a t' ⟨ht, hv⟩ hstep hP
      rcases remove_due ht hstep hP hv with hsent | ⟨hno, hv'⟩
      · exact .inl hsent
      · exact .inr ⟨by simp [hno], ht.step hstep, hv'⟩)
    ⟨filed, hdue⟩ hout hroom

end

/-- **A NACK repairs what it can.**  In every run whose NACKs find all the records of the
missing frames recoverable, each of these records is sent again. -/
theorem nack_repairs (lz4 : Lz4) (bigMode lengthHack : Bool) (build : GameBuild) (c : UInt32)
    {tr : List (Entry (ServerGameState F) (Op F) Answer)} {s : ServerGameState F}
    (run : Run (step lz4) (ServerGameState.withBuild bigMode lengthHack build) tr s)
    (hcond : Along (fun past x => recoversAll c past x = true) tr)
    (later past : List (Entry (ServerGameState F) (Op F) Answer))
    (x : Entry (ServerGameState F) (Op F) Answer) (htr : tr = later ++ x :: past)
    (n : GameStateNAck) (hop : x.op = .nack c n) (first last : UInt64)
    (hmissing : n.missingFrames = some (first, last))
    (z : Entry (ServerGameState F) (Op F) Answer) (hz : z ∈ past)
    (hfirst : first ≤ z.pre.frameIndex) (hlast : z.pre.frameIndex ≤ last)
    (r : OutboundRecord) (hr : r ∈ z.pre.sentTo z.op c) : Resent c x.pre later r := by
  subst htr
  have hrec : recoverable x.pre c n first r = true := by
    have hall := along_append hcond
    simp only [recoversAll, hop, hmissing, Option.all_some, Bool.or_eq_true, decide_eq_true_eq,
      List.all_eq_true, Bool.not_eq_true', Bool.and_eq_false_iff, decide_eq_false_iff_not] at hall
    rcases hall with hne | hall
    · exact absurd rfl hne
    · rcases hall z hz with (hlt | hgt) | hrec
      · exact absurd hfirst hlt
      · exact absurd hlast hgt
      · exact hrec r hr
  obtain ⟨mid, hpast, hlater⟩ := run.split
  have filed : Filed mid := .of_run hpast
  have hentry : ∀ id, mid.entryOf c id = (x.pre.entryOf c id).map (nackEntry n id) := by
    intro id
    cases hpast with
    | snoc _ hstep =>
        subst hop
        obtain ⟨rfl, -⟩ := Prod.mk.inj (Option.some.inj hstep)
        exact entryOf_applyNack _ c n id
  cases r with
  | remove id u =>
      simp only [recoverable, Option.any_eq_true, decide_eq_true_eq] at hrec
      obtain ⟨v, hv, hu⟩ := hrec
      intro hout hroom
      refine remove_resent hlater filed hout ⟨nackEntry n id v, ?_, ?_⟩ hroom
      · rw [hentry, hv]
        rfl
      · rw [nackEntry, repairEntry_uniqifier]
        exact hu
  | clone r =>
      intro e he hu hstill hroom
      have he' : x.pre.entities.lookup r.objectId = some e := he
      simp only [recoverable, he', Option.all_some, hu, ne_eq, not_true, decide_false,
        Bool.false_or, Option.all_eq_true, Bool.or_eq_true, Bool.not_eq_true', decide_eq_true_eq,
        Bool.and_eq_true, List.any_eq_true] at hrec
      rw [← hu]
      by_cases hcreate : r.syncType = Rec.create
      · simp only [hcreate, if_true]
        refine create_resent hlater filed hstill ?_ hroom
        intro v hv
        rw [hentry] at hv
        obtain ⟨v0, hv0, rfl⟩ := Option.map_eq_some_iff.mp hv
        rcases hrec v0 hv0 with (hnew | hmem) | ⟨⟨hne, -⟩, -⟩
        · exact repairEntry_created hnew
        · unfold nackEntry repairEntry
          rw [if_pos hmem]
        · exact absurd hcreate hne
      · simp only [hcreate, if_false]
        refine update_resent hlater filed hstill ?_ hroom
        intro v hv
        rw [hentry] at hv
        obtain ⟨v0, hv0, rfl⟩ := Option.map_eq_some_iff.mp hv
        refine nackEntry_due hmissing ?_
        rcases hrec v0 hv0 with (hnew | hmem) | ⟨⟨-, hdata⟩, hframe⟩
        · exact .inl hnew
        · exact .inr (.inl hmem)
        · exact .inr (.inr ⟨hdata, by simpa [or_assoc] using hframe⟩)

/-! ### Lost frames -/

/-- A step is the given NACK of `c`. -/
def isNack (c : UInt32) (n : GameStateNAck) (x : Entry (ServerGameState F) (Op F) Answer) :
    Bool :=
  match x.op with
  | .nack c' n' => c' = c && n' = n
  | _ => false

omit [Scalar F] in
theorem op_of_isNack {c : UInt32} {n : GameStateNAck}
    {x : Entry (ServerGameState F) (Op F) Answer} (h : isNack c n x = true) :
    x.op = .nack c n := by
  unfold isNack at h
  split at h
  · rename_i c' n' heq
    simp only [Bool.and_eq_true, decide_eq_true_eq] at h
    rw [heq, h.1, h.2]
  · exact absurd h (by simp)

/-- The NACK of one frame. -/
def missed (f : UInt64) : GameStateNAck := { missingFrames := some (f, f) }

/-- Object 5 is synced with the byte 0. -/
def syncFive : Op Float32 := .ingest 1 (LiteralRun.clonePayload
  [0x40, 0x00, 0x20, 0x05, 0x00, 0x10, 0x0E])

/-- Client 2 misses a frame with a sync of an object that was updated in that very frame, and
is sent the sync again. -/
theorem sync_of_this_frame_resent :
    ∃ tr s later past x z r, Run (step LiteralRun.lz4)
        (ServerGameState.withBuild false false default : ServerGameState Float32) tr s ∧
      Along (fun past x => recoversAll 2 past x = true) tr ∧ tr = later ++ x :: past ∧
      x.op = .nack 2 (missed 2) ∧ z ∈ past ∧ z.pre.frameIndex = 2 ∧
      r ∈ z.pre.sentTo z.op 2 ∧ r.updates 5 1 = true ∧
      (∃ w ∈ later, (w.pre.sentTo w.op 2).any (·.updates 5 1) = true) ∧
      Resent 2 x.pre later r := by
  obtain ⟨tr, s, run, hcheck⟩ := exists_run (step LiteralRun.lz4)
    (ServerGameState.withBuild false false default : ServerGameState Float32)
    (objectScene bareCreate ++ [tickAll, .tick, syncFive, tickAll, .nack 2 (missed 2), tickAll])
    (fun tr _ => decide (Along (fun past x => recoversAll 2 past x = true) tr)
      && (tr[1]?).any (isNack 2 (missed 2))
      && ((tr.drop 2).any fun z => z.pre.frameIndex = 2 &&
        (z.pre.sentTo z.op 2).any (·.updates 5 1))
      && (tr.take 1).any fun w => (w.pre.sentTo w.op 2).any (·.updates 5 1)) (by decide +kernel)
  simp only [Bool.and_eq_true, decide_eq_true_eq, Option.any_eq_true, List.any_eq_true] at hcheck
  obtain ⟨⟨⟨hcond, x, hx, hnack⟩, z, hz, hf, r, hr, hupd⟩, w, hw, hagain⟩ := hcheck
  refine ⟨tr, s, tr.take 1, tr.drop 2, x, z, r, run, hcond, cut_at hx, op_of_isNack hnack, hz, hf,
    hr, hupd, ⟨w, hw, List.any_eq_true.mpr hagain⟩, ?_⟩
  exact nack_repairs LiteralRun.lz4 false false default 2 run hcond _ _ x (cut_at hx) _
    (op_of_isNack hnack) 2 2 rfl z hz (by rw [hf]; decide) (by rw [hf]; decide) r hr

/-- A record of some kind is lost in frame `f`, and the NACK of that frame does not bring it
back. -/
def LostForGood (f : UInt64) (kind : OutboundRecord → Bool) : Prop :=
  ∃ tr s later past x z r, Run (step LiteralRun.lz4)
      (ServerGameState.withBuild false false default : ServerGameState Float32) tr s ∧
    tr = later ++ x :: past ∧ x.op = .nack 2 (missed f) ∧ z ∈ past ∧ z.pre.frameIndex = f ∧
    r ∈ z.pre.sentTo z.op 2 ∧ kind r = true ∧ ¬ Resent 2 x.pre later r

theorem lostForGood_of_run (f : UInt64) (kind : OutboundRecord → Bool) (ops : List (Op Float32))
    (h : ((history (step LiteralRun.lz4) [] ops
        (ServerGameState.withBuild false false default)).any fun r =>
      (r.1[1]?).any fun x => isNack 2 (missed f) x && (r.1.drop 2).any fun z =>
        z.pre.frameIndex = f && (z.pre.sentTo z.op 2).any fun rec =>
          kind rec && decide (¬ Resent 2 x.pre (r.1.take 1) rec)) = true) :
    LostForGood f kind := by
  obtain ⟨tr, s, run, hcheck⟩ := exists_run (step LiteralRun.lz4)
    (ServerGameState.withBuild false false default : ServerGameState Float32) ops
    (fun tr _ => (tr[1]?).any fun x => isNack 2 (missed f) x && (tr.drop 2).any fun z =>
        z.pre.frameIndex = f && (z.pre.sentTo z.op 2).any fun rec =>
          kind rec && decide (¬ Resent 2 x.pre (tr.take 1) rec)) h
  simp only [Option.any_eq_true, Bool.and_eq_true, List.any_eq_true, decide_eq_true_eq] at hcheck
  obtain ⟨x, hx, hnack, z, hz, hf, r, hr, hkind, hlost⟩ := hcheck
  exact ⟨tr, s, tr.take 1, tr.drop 2, x, z, r, run, cut_at hx, op_of_isNack hnack, hz, hf, hr,
    hkind, hlost⟩

/-- The create of an object that was updated before the frame it was sent in, a sync of one,
and a remove, each lost for good. -/
theorem nack_does_not_repair :
    LostForGood 2 (·.creates 5 1) ∧
      LostForGood 3 (fun r => r.updates 5 1 && !r.creates 5 1) ∧
      LostForGood 2 (· = .remove 5 1) := by
  refine ⟨?_, ?_, ?_⟩
  · exact lostForGood_of_run _ _ (objectScene bareCreate ++ [.tick, tickAll, .nack 2 (missed 2), tickAll])
      (by decide +kernel)
  · exact lostForGood_of_run _ _
      (objectScene bareCreate ++ [tickAll, .tick, syncFive, .tick, tickAll, .nack 2 (missed 3), tickAll])
      (by decide +kernel)
  · exact lostForGood_of_run _ _
      (objectScene bareCreate ++ [tickAll, .setPosition 5 ⟨1.0e4, 0.0, 0.0⟩, .tick, tickAll,
        .nack 2 (missed 2), tickAll])
      (by decide +kernel)

end Baston.Zone
