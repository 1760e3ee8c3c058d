/-
Does the simulator of an entity have the entity?

A client that is handed an entity should keep the copy it has, or be sent one.  The
tick does neither: an entity of the client's own is passed over as an echo, so the
entry of a copy the client was sent falls out of scope and is removed, and a copy it
was never sent is never created.  What is left are the hand-overs to a client that made
or was sent the entity earlier and has no entry for it, and those to sources beyond 16
bits, whose own entities the truncated net id does not recognise.
-/
import Baston.Proofs.Entries
import Baston.Rage.LiteralRun

namespace Baston.Zone

open Assoc Baston.Rage Trace ServerGameState

variable {F : Type} [Scalar F]

/-! ### What a client knows -/

/-- A payload of `c` creates `(id, u)`. -/
def createsItself (lz4 : Lz4) (c : UInt32) (id u : UInt16)
    (x : Entry (ServerGameState F) (Op F) Answer) : Bool :=
  match x.op with
  | .ingest source payload =>
    source = c && (x.pre.trail lz4 source payload).any fun y =>
      match y.op with
      | .clone true id' u' _ _ _ => id' = id && u' = u && y.answer
      | _ => false
  | _ => false

/-- Since it last connected, `c` has created `(id, u)` itself or been sent its create. -/
def knows (lz4 : Lz4) (c : UInt32) (id u : UInt16) :
    List (Entry (ServerGameState F) (Op F) Answer) → Bool
  | [] => false
  | x :: past =>
    createsItself lz4 c id u x || (x.pre.sentTo x.op c).any (·.creates id u)
      || (knows lz4 c id u past &&
        match x.op with
        | .removeClient _ source => source ≠ c
        | _ => true)

/-! ### Hand-overs -/

/-- A step makes `c` the owner of `(id, u)`: a takeover in another's payload, or a
reassignment. -/
def handedTo (c : UInt32) (id u : UInt16) (x : Entry (ServerGameState F) (Op F) Answer) :
    Bool :=
  ((x.post.entities.lookup id).any fun e => e.owner = c && e.uniqifier = u) &&
    !((x.pre.entities.lookup id).any fun e => e.owner = c) &&
    match x.op with
    | .ingest source _ => source ≠ c
    | .reassign _ => true
    | _ => false

/-- Whether the tick of `c` recognises an entity of `c`: a net id has 16 bits. -/
def recognisesOwn (c : UInt32) : Bool := c.toUInt16.toUInt32 = c

/-- An entity in the block around the client, in its bucket and within its radius. -/
def inScope (view : ClientView F) (ctx : TickContext F) (id : UInt16) : Bool :=
  (ClientView.nearby ctx).any fun e => e.objectId = id && e.routingBucket = ctx.routingBucket &&
    !ClientView.outsideAoi ctx (view.views.lookup id).isSome e

/-- The entity is live and `c`'s before the step, and in scope if the step ticks `c`. -/
def staysWith (c : UInt32) (id u : UInt16) (y : Entry (ServerGameState F) (Op F) Answer) :
    Bool :=
  ((y.pre.entities.lookup id).any fun e => e.owner = c && e.uniqifier = u) &&
    match y.pre.viewOf c, y.pre.tickOf y.op c with
    | some view, some ctx => inScope view ctx id
    | _, _ => true

/-- What a hand-over needs for the new owner to have the entity. -/
def cleanHandover (lz4 : Lz4) (c : UInt32) (id u : UInt16)
    (past : List (Entry (ServerGameState F) (Op F) Answer))
    (x : Entry (ServerGameState F) (Op F) Answer) : Bool :=
  !handedTo c id u x ||
    if recognisesOwn c then
      (x.pre.entryOf c id).all (·.uniqifier ≠ u) && knows lz4 c id u past
    else (x.pre.entryOf c id).all (!·.created) || knows lz4 c id u past

/-- The new owner is not told to remove the entity, and is told to create it if it has to be:
by the first tick the budget allows. -/
structure Served (c : UInt32) (id u : UInt16) (known : Bool)
    (later : List (Entry (ServerGameState F) (Op F) Answer)) : Prop where
  kept : ∀ y ∈ later, OutboundRecord.remove id u ∉ y.pre.sentTo y.op c
  created : known = false → (∃ y ∈ later, y.pre.roomyTick y.op c = true) →
    ∃ z ∈ later, (z.pre.sentTo z.op c).any (·.creates id u) = true

theorem staysWith_iff {c : UInt32} {id u : UInt16}
    {y : Entry (ServerGameState F) (Op F) Answer} : staysWith c id u y = true ↔
      ∃ e, y.pre.entities.lookup id = some e ∧ e.owner = c ∧ e.uniqifier = u ∧
        ∀ view ctx, y.pre.viewOf c = some view → y.pre.tickOf y.op c = some ctx →
          inScope view ctx id = true := by
  unfold staysWith
  rw [Bool.and_eq_true, Option.any_eq_true]
  simp only [Bool.and_eq_true, decide_eq_true_eq]
  constructor
  · rintro ⟨⟨e, he, ho, hu⟩, hscope⟩
    refine ⟨e, he, ho, hu, ?_⟩
    intro view ctx hv ht
    rw [hv, ht] at hscope
    exact hscope
  · rintro ⟨e, he, ho, hu, hscope⟩
    refine ⟨⟨e, he, ho, hu⟩, ?_⟩
    split
    · rename_i view ctx hv ht
      exact hscope view ctx hv ht
    · rfl

/-! ### Ticks of an owner -/

/-- A tick passes over what it recognises as the client's own. -/
theorem own_not_relevant {s : ServerGameState F} (filed : Filed s) {op : Op F} {c : UInt32}
    {view : ClientView F} {ctx : TickContext F} (hview : s.viewOf c = some view)
    (htick : s.tickOf op c = some ctx) (hown : recognisesOwn c = true) {id : UInt16}
    {e : ServerEntity F} (he : s.entities.lookup id = some e) (howner : e.owner = c) :
    view.relevant ctx id = none := by
  cases hr : view.relevant ctx id with
  | none => rfl
  | some snap =>
      obtain ⟨ent, hl, -, -, hne⟩ := filed.relevant_entity htick hr
      rw [he] at hl
      rw [← Option.some.inj hl, howner, filed.view hview] at hne
      exact absurd (by simpa [recognisesOwn] using hown) hne

/-- What a tick does not recognise is relevant when it is in scope. -/
theorem relevant_of_inScope {s : ServerGameState F} (filed : Filed s) {op : Op F} {c : UInt32}
    {view : ClientView F} {ctx : TickContext F} (hview : s.viewOf c = some view)
    (htick : s.tickOf op c = some ctx) (hown : recognisesOwn c = false) {id : UInt16}
    {e : ServerEntity F} (he : s.entities.lookup id = some e) (howner : e.owner = c)
    (hscope : inScope view ctx id = true) : view.relevant ctx id = some e.snapshot := by
  unfold inScope at hscope
  rw [List.any_eq_true] at hscope
  obtain ⟨snap, hnear, hsnap⟩ := hscope
  simp only [Bool.and_eq_true, decide_eq_true_eq, Bool.not_eq_true'] at hsnap
  obtain ⟨⟨rfl, hbucket⟩, hin⟩ := hsnap
  obtain ⟨ent, hl, heq, -⟩ := filed.entity_of_world htick
    (ClientView.mem_world_of_mem_nearby hnear)
  rw [he] at hl
  obtain rfl := Option.some.inj hl
  have hne : view.netId.toUInt32 ≠ snap.owner := by
    rw [filed.view hview, heq]
    show _ ≠ e.owner
    rw [howner]
    simpa [recognisesOwn] using hown
  have hmem : snap ∈ view.relevantList ctx := by
    refine List.mem_filter.mpr ⟨hnear, ?_⟩
    simp [ClientView.suppressed, hne, hbucket, hin]
  rw [ClientView.relevant_of_mem (filed.tickOf_wellPosed htick) hmem, heq]

/-- One step of a recognised owner: nothing is said about its entity, and no entry of it
appears. -/
theorem own_step {lz4 : Lz4} {s s' : ServerGameState F} {op : Op F} {a : Answer}
    (filed : Filed s) (h : step lz4 op s = some (s', a)) {c : UInt32} {id u : UInt16}
    (hown : recognisesOwn c = true) {e : ServerEntity F} (he : s.entities.lookup id = some e)
    (howner : e.owner = c) (hentry : ∀ v, s.entryOf c id = some v → v.uniqifier ≠ u) :
    OutboundRecord.remove id u ∉ s.sentTo op c ∧
      ∀ v, s'.entryOf c id = some v → v.uniqifier ≠ u := by
  have heff := entry_effect filed h c id
  have hsent : ∀ {r}, r ∈ s.sentTo op c → r.objectId = id → r ∈ s.sentAbout op c id :=
    fun hr hid => mem_sentAbout.mpr ⟨hr, hid⟩
  generalize s.sentAbout op c id = sent at heff hsent
  generalize s.entryOf c id = before at heff hentry
  generalize s'.entryOf c id = after at heff
  cases heff with
  | same => exact ⟨fun hr => absurd (hsent hr rfl) List.not_mem_nil, hentry⟩
  | left => exact ⟨fun hr => absurd (hsent hr rfl) List.not_mem_nil, by simp⟩
  | nacked =>
      refine ⟨fun hr => absurd (hsent hr rfl) List.not_mem_nil, ?_⟩
      intro v hv
      obtain ⟨v0, hv0, rfl⟩ := Option.map_eq_some_iff.mp hv
      rw [nackEntry, repairEntry_uniqifier]
      exact hentry v0 hv0
  | acked =>
      refine ⟨fun hr => absurd (hsent hr rfl) List.not_mem_nil, ?_⟩
      intro v hv
      obtain ⟨v0, hv0, rfl⟩ := Option.map_eq_some_iff.mp hv
      rw [repairEntry_uniqifier]
      exact hentry v0 hv0
  | ticked hview tick effect =>
      rw [own_not_relevant filed hview tick hown he howner] at effect
      cases effect with
      | outside => exact ⟨fun hr => absurd (hsent hr rfl) List.not_mem_nil, by simp⟩
      | @exits v _ =>
          -- the entry was of another entity, so its remove names another
          refine ⟨fun hr => ?_, by simp⟩
          have hmem := hsent hr rfl
          simp only [List.filterMap_cons, actionRecord, List.filterMap_nil,
            List.mem_singleton, OutboundRecord.remove.injEq, true_and] at hmem
          exact hentry v rfl hmem.symm
      | @lingers v _ =>
          refine ⟨fun hr => absurd (hsent hr rfl) List.not_mem_nil, ?_⟩
          intro v' hv'
          rw [← Option.some.inj hv']
          exact hentry v rfl

/-- One step of an unrecognised owner whose entity is in scope: no remove, and the create as
soon as the budget allows. -/
theorem unrecognised_step {lz4 : Lz4} {s s' : ServerGameState F} {op : Op F} {a : Answer}
    (filed : Filed s) (h : step lz4 op s = some (s', a)) {c : UInt32} {id u : UInt16}
    (hown : recognisesOwn c = false)
    (hstays : staysWith c id u ⟨s, op, a, s'⟩ = true) :
    OutboundRecord.remove id u ∉ s.sentTo op c ∧
      ((∀ v, s.entryOf c id = some v → v.created = false) →
        (s.sentTo op c).any (·.creates id u) = true ∨
          (s.roomyTick op c = false ∧ ∀ v, s'.entryOf c id = some v → v.created = false)) := by
  obtain ⟨e, he, howner, rfl, hscope⟩ := staysWith_iff.mp hstays
  have hrel : ∀ view ctx, s.viewOf c = some view → s.tickOf op c = some ctx →
      view.relevant ctx id = some e.snapshot := fun view ctx hview tick =>
    relevant_of_inScope filed hview tick hown he howner (hscope view ctx hview tick)
  refine ⟨fun hr => ?_, create_due filed h he hrel⟩
  have hmem : OutboundRecord.remove id e.uniqifier ∈ s.sentAbout op c id :=
    mem_sentAbout.mpr ⟨hr, rfl⟩
  have heff := entry_effect filed h c id
  generalize s.sentAbout op c id = sent at heff hmem
  generalize s.entryOf c id = before at heff
  generalize s'.entryOf c id = after at heff
  cases heff with
  | same => exact absurd hmem List.not_mem_nil
  | left => exact absurd hmem List.not_mem_nil
  | nacked => exact absurd hmem List.not_mem_nil
  | acked => exact absurd hmem List.not_mem_nil
  | ticked hview tick effect =>
      have hact := remove_mem_actionRecords hmem
      rw [hrel _ _ hview tick] at effect
      cases effect with
      | creates => exact absurd hact (by simp)
      | syncs => exact absurd hact (by simp)
      | waits => exact absurd hact (by simp)
      | idles => exact absurd hact (by simp)

/-! ### Hand-overs that are served -/

/-- A hand-over happens between ticks. -/
theorem entryOf_handedTo {lz4 : Lz4} {s s' : ServerGameState F} {op : Op F} {a : Answer}
    (filed : Filed s) (h : step lz4 op s = some (s', a)) {c : UInt32} {id u : UInt16}
    (hhanded : handedTo c id u ⟨s, op, a, s'⟩ = true) : s'.entryOf c id = s.entryOf c id := by
  have hop : s.tickOf op c = none ∧ (∀ ord, op ≠ .removeClient ord c) ∧
      (∀ n, op ≠ .nack c n) ∧ ∀ n, op ≠ .ack c n := by
    cases op with
    | ingest source payload => exact ⟨rfl, by simp, by simp, by simp⟩
    | reassign ord => exact ⟨rfl, by simp, by simp, by simp⟩
    | _ => exact absurd hhanded (by simp [handedTo])
  have heff := entry_effect filed h c id
  generalize s.sentAbout op c id = sent at heff
  generalize s.entryOf c id = before at heff ⊢
  generalize s'.entryOf c id = after at heff ⊢
  cases heff with
  | same => rfl
  | left heq => exact absurd heq (hop.2.1 _)
  | ticked _ tick =>
      rw [hop.1] at tick
      exact absurd tick (by simp)
  | nacked heq => exact absurd heq (hop.2.2.1 _)
  | acked heq => exact absurd heq (hop.2.2.2 _)

/-- **The simulator has the entity** in every run whose hand-overs are all clean: from a
takeover or a reassignment on, as long as the entity stays the client's and in its scope,
the client is never sent its remove, and is sent its create if it did not know it. -/
theorem simulator_has_entity (lz4 : Lz4) (bigMode lengthHack : Bool) (build : GameBuild)
    (c : UInt32) (id u : UInt16) {tr : List (Entry (ServerGameState F) (Op F) Answer)}
    {s : ServerGameState F}
    (run : Run (step lz4) (ServerGameState.withBuild bigMode lengthHack build) tr s)
    (hclean : Along (fun past x => cleanHandover lz4 c id u past x = true) tr)
    (later past : List (Entry (ServerGameState F) (Op F) Answer))
    (x : Entry (ServerGameState F) (Op F) Answer) (htr : tr = later ++ x :: past)
    (hhanded : handedTo c id u x = true) (hstays : ∀ y ∈ later, staysWith c id u y = true) :
    Served c id u (knows lz4 c id u past) later := by
  subst htr
  have hcond := along_append hclean
  simp only [cleanHandover, hhanded, Bool.not_true, Bool.false_or] at hcond
  obtain ⟨mid, hpast, hlater⟩ := run.split
  have filed : Filed mid := .of_run hpast
  have hentry : mid.entryOf c id = x.pre.entryOf c id := by
    cases hpast with
    | snoc hbefore hstep => exact entryOf_handedTo (.of_run hbefore) hstep hhanded
  rw [← hentry] at hcond
  cases hown : recognisesOwn c with
  | true =>
      simp only [hown, if_true, Bool.and_eq_true, Option.all_eq_true, decide_eq_true_eq] at hcond
      have inv := hlater.invariant (I := fun later t => Filed t ∧
          (∀ y ∈ later, OutboundRecord.remove id u ∉ y.pre.sentTo y.op c) ∧
          ∀ v, t.entryOf c id = some v → v.uniqifier ≠ u)
        (P := fun _ y => staysWith c id u y = true) ⟨filed, by simp, hcond.1⟩
        (by
          rintro later t op a t' - ⟨ht, hkept, hv⟩ hstep hP
          obtain ⟨e, he, howner, -, -⟩ := staysWith_iff.mp hP
          obtain ⟨hnot, hv'⟩ := own_step ht hstep hown he howner hv
          exact ⟨ht.step hstep, List.forall_mem_cons.mpr ⟨hnot, hkept⟩, hv'⟩)
        (along_of_forall hstays)
      refine ⟨inv.2.1, fun hknown => ?_⟩
      rw [hcond.2] at hknown
      exact absurd hknown (by simp)
  | false =>
      simp only [hown, Bool.false_eq_true, if_false, Bool.or_eq_true, Option.all_eq_true,
        Bool.not_eq_true'] at hcond
      have inv := hlater.invariant (I := fun later t => Filed t ∧
          ∀ y ∈ later, OutboundRecord.remove id u ∉ y.pre.sentTo y.op c)
        (P := fun _ y => staysWith c id u y = true) ⟨filed, by simp⟩
        (by
          rintro later t op a t' - ⟨ht, hkept⟩ hstep hP
          exact ⟨ht.step hstep, List.forall_mem_cons.mpr
            ⟨(unrecognised_step ht hstep hown hP).1, hkept⟩⟩)
        (along_of_forall hstays)
      refine ⟨inv.2, fun hknown hroomy => ?_⟩
      have hnew : ∀ v, mid.entryOf c id = some v → v.created = false := by
        rcases hcond with hnew | hknown'
        · exact hnew
        · rw [hknown] at hknown'
          exact absurd hknown' (by simp)
      exact hlater.delivers
        (D := fun t => Filed t ∧ ∀ v, t.entryOf c id = some v → v.created = false)
        (K := fun y => staysWith c id u y = true)
        (S := fun z => (z.pre.sentTo z.op c).any (·.creates id u) = true)
        (R := fun y => y.pre.roomyTick y.op c = true)
        (by
          rintro t op a t' ⟨ht, hv⟩ hstep hP
          rcases (unrecognised_step ht hstep hown hP).2 hv with hsent | ⟨hno, hv'⟩
          · exact .inl hsent
          · exact .inr ⟨by simp [hno], ht.step hstep, hv'⟩)
        ⟨filed, hnew⟩ hstays hroomy

/-! ### Hand-overs -/

/-- The server spawns object 5 at the origin, client `c` brings its player entity 10 there and
is handed the object; then all clients are ticked. -/
def adoptedBy (c : UInt32) : List (Op Float32) :=
  [.spawnWithId 5 ⟨.object, 1, Vec3.zero, 0.0, false⟩,
    .ingest c (LiteralRun.clonePayload
      [0x20, 0x00, 0x20, 0x0A, 0x00, 0x00, 0x00, 0x00, 0xB0, 0x00, 0xE0]),
    .setPosition 10 Vec3.zero, .reassign (.stored UInt16),
    .tickClients (.stored UInt16) ∅ .standard]

/-- Client 1 creates object 5 at the origin and hands it to client 2. -/
def handedOver : List (Op Float32) :=
  [.addClient 2,
    .ingest 1 (LiteralRun.clonePayload
      [0x20, 0x00, 0x20, 0x05, 0x00, 0x00, 0x00, 0x00, 0x50, 0x00, 0xE0]),
    .setPosition 5 Vec3.zero,
    .tickClients (.stored UInt16) ∅ .standard,
    .ingest 1 (LiteralRun.clonePayload [0x80, 0x00, 0x40, 0x05, 0xE0]),
    .tickClients (.stored UInt16) ∅ .standard]

/-- A client beyond 16 bits adopts the object and is sent its create. -/
theorem adopter_is_sent_create :
    ∃ tr s later past x, Run (step LiteralRun.lz4)
        (ServerGameState.withBuild false false default : ServerGameState Float32) tr s ∧
      Along (fun past x => cleanHandover LiteralRun.lz4 65537 5 1 past x = true) tr ∧
      tr = later ++ x :: past ∧ handedTo 65537 5 1 x = true ∧
      (∀ y ∈ later, staysWith 65537 5 1 y = true) ∧ (∃ y ∈ later, y.pre.roomyTick y.op 65537 = true) ∧
      knows LiteralRun.lz4 65537 5 1 past = false ∧
      Served 65537 5 1 (knows LiteralRun.lz4 65537 5 1 past) later := by
  obtain ⟨tr, s, run, hcheck⟩ := exists_run (step LiteralRun.lz4)
    (ServerGameState.withBuild false false default : ServerGameState Float32) (adoptedBy 65537)
    (fun tr _ =>
      decide (Along (fun past x => cleanHandover LiteralRun.lz4 65537 5 1 past x = true) tr)
        && (tr[1]?).any (handedTo 65537 5 1) && (tr.take 1).all (staysWith 65537 5 1)
        && (tr.take 1).any (fun y => y.pre.roomyTick y.op 65537)
        && knows LiteralRun.lz4 65537 5 1 (tr.drop 2) == false) (by decide +kernel)
  simp only [Bool.and_eq_true, decide_eq_true_eq, Option.any_eq_true, List.all_eq_true,
    List.any_eq_true, beq_iff_eq] at hcheck
  obtain ⟨⟨⟨⟨hclean, x, hx, hhanded⟩, hstays⟩, hroomy⟩, hknown⟩ := hcheck
  exact ⟨tr, s, tr.take 1, tr.drop 2, x, run, hclean, cut_at hx, hhanded, hstays, hroomy, hknown,
    simulator_has_entity LiteralRun.lz4 false false default 65537 5 1 run hclean _ _ x (cut_at hx)
      hhanded hstays⟩

/-- Client 2 was sent object 5, is handed it, and is told to remove it; client 1 adopts the
server's object, which it never was sent, and a tick with room for everything sends it
nothing. -/
theorem simulator_without_entity :
    (∃ tr s later past x, Run (step LiteralRun.lz4)
        (ServerGameState.withBuild false false default : ServerGameState Float32) tr s ∧
      tr = later ++ x :: past ∧ handedTo 2 5 1 x = true ∧
      (∀ y ∈ later, staysWith 2 5 1 y = true) ∧
      ∃ y ∈ later, OutboundRecord.remove 5 1 ∈ y.pre.sentTo y.op 2) ∧
    ∃ tr s later past x, Run (step LiteralRun.lz4)
        (ServerGameState.withBuild false false default : ServerGameState Float32) tr s ∧
      tr = later ++ x :: past ∧ handedTo 1 5 1 x = true ∧
      (∀ y ∈ later, staysWith 1 5 1 y = true) ∧ (∃ y ∈ later, y.pre.roomyTick y.op 1 = true) ∧
      knows LiteralRun.lz4 1 5 1 past = false ∧ ∀ z ∈ later, z.pre.sentTo z.op 1 = [] := by
  constructor
  · obtain ⟨tr, s, run, hcheck⟩ := exists_run (step LiteralRun.lz4)
      (ServerGameState.withBuild false false default : ServerGameState Float32) handedOver
      (fun tr _ => (tr[1]?).any (handedTo 2 5 1) && (tr.take 1).all (staysWith 2 5 1)
        && (tr.take 1).any fun y => decide (OutboundRecord.remove 5 1 ∈ y.pre.sentTo y.op 2))
      (by decide +kernel)
    simp only [Bool.and_eq_true, Option.any_eq_true, List.all_eq_true, List.any_eq_true,
      decide_eq_true_eq] at hcheck
    obtain ⟨⟨⟨x, hx, hhanded⟩, hstays⟩, hremove⟩ := hcheck
    exact ⟨tr, s, tr.take 1, tr.drop 2, x, run, cut_at hx, hhanded, hstays, hremove⟩
  · obtain ⟨tr, s, run, hcheck⟩ := exists_run (step LiteralRun.lz4)
      (ServerGameState.withBuild false false default : ServerGameState Float32) (adoptedBy 1)
      (fun tr _ => (tr[1]?).any (handedTo 1 5 1) && (tr.take 1).all (staysWith 1 5 1)
        && (tr.take 1).any (fun y => y.pre.roomyTick y.op 1)
        && knows LiteralRun.lz4 1 5 1 (tr.drop 2) == false
        && (tr.take 1).all fun z => decide (z.pre.sentTo z.op 1 = [])) (by decide +kernel)
    simp only [Bool.and_eq_true, Option.any_eq_true, List.all_eq_true, List.any_eq_true,
      decide_eq_true_eq, beq_iff_eq] at hcheck
    obtain ⟨⟨⟨⟨⟨x, hx, hhanded⟩, hstays⟩, hroomy⟩, hknown⟩, hnothing⟩ := hcheck
    exact ⟨tr, s, tr.take 1, tr.drop 2, x, run, cut_at hx, hhanded, hstays, hroomy, hknown,
      hnothing⟩

end Baston.Zone
