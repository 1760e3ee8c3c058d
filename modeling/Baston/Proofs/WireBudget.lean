/-
The records of a tick: the baseline a sync carries, and the byte budget they spend.

A sync is a delta, and the frame it names is the one the client is taken to have.  A tick
moves the client's entry on to the frame of the entity when it plans the sync, and the
record is only made from the entry afterwards.  So the frame in the record is the entity's
own, and never the one the client was sent before.

A tick plans against the size of an entity's sync blob, whatever it plans.  What it has
planned stays within the budget by that measure, or is a single record.  A create carries
the create blob instead, so what is written stays within the budget when no create that
may be planned has a larger blob than it was counted with.
-/
import Mathlib.Algebra.Order.BigOperators.Group.List
import Baston.Proofs.Nack

namespace Baston.Zone

open Assoc Baston.Rage Trace

variable {F : Type}

namespace ServerGameState

/-- The baseline of a sync is the frame the client was sent of the entity before the tick, and
it is older than the entity. -/
def cutAgainstLast (s : ServerGameState F) (c : UInt32) (r : OutboundClone) : Prop :=
  (s.entryOf c r.objectId).map (·.baseFrame) = some r.dependentFrameIndex ∧
    ∃ e ∈ s.entities.lookup r.objectId, r.dependentFrameIndex < e.frameIndex

variable [Scalar F]

omit [Scalar F] in
/-- What a plan makes a sync of is a planned sync, and its baseline is read off the view. -/
theorem actionRecord_sync {s : ServerGameState F} {view : ClientView F} {id : UInt16}
    {act : Action} {r : OutboundClone} (hsync : r.syncType = Rec.sync)
    (h : actionRecord s.entities s.frameIndex view id act = some (.clone r)) :
    act = .sync ∧ r.dependentFrameIndex = (view.baseFrame id).getD 0 := by
  cases act with
  | sync =>
      obtain ⟨e, c, -, hc, -, hbase, -⟩ := cloneRecord_spec h
      rw [OutboundRecord.clone.inj hc]
      exact ⟨rfl, hbase⟩
  | create =>
      obtain ⟨e, c, -, hc, hty, -, -⟩ := cloneRecord_spec h
      rw [OutboundRecord.clone.inj hc, hty] at hsync
      exact absurd hsync (by decide)
  | remove u => exact absurd h (by simp [actionRecord])

/-- **The sync of a tick.**  The client had an older frame of the entity, and the record names
the entity's own. -/
theorem Filed.sync_spec {s : ServerGameState F} (filed : Filed s) {op : Op F} {c : UInt32}
    {r : OutboundClone} (hr : .clone r ∈ s.sentTo op c) (hsync : r.syncType = Rec.sync) :
    ∃ v e, s.entryOf c r.objectId = some v ∧ s.entities.lookup r.objectId = some e ∧
      v.baseFrame < e.frameIndex ∧ r.dependentFrameIndex = e.frameIndex := by
  unfold sentTo at hr
  split at hr
  case h_2 => exact absurd hr List.not_mem_nil
  case h_1 view ctx hview tick =>
    have hmem : .clone r ∈ ((view.tickWithContext ctx).2.about r.objectId).filterMap
        (actionRecord s.entities s.frameIndex (view.tickWithContext ctx).1 r.objectId) := by
      rw [← records_about filed]
      exact List.mem_filter.mpr ⟨hr, by simp [OutboundRecord.objectId]⟩
    obtain ⟨act, hact, hrec⟩ := List.mem_filterMap.mp hmem
    obtain ⟨rfl, hbase⟩ := actionRecord_sync hsync hrec
    have heff := view.tick_effect (filed.tickOf_wellPosed tick) r.objectId
    generalize hacts : (view.tickWithContext ctx).2.about r.objectId = acts at heff hact
    generalize hafter : (view.tickWithContext ctx).1.views.lookup r.objectId = after at heff
    generalize hbefore : view.views.lookup r.objectId = before at heff
    generalize hrel : view.relevant ctx r.objectId = rel at heff
    cases heff with
    | @syncs _ snap known newer =>
        obtain ⟨e, he, rfl, -, -⟩ := filed.relevant_entity tick hrel
        obtain ⟨v, rfl⟩ : ∃ v, before = some v := by
          cases before with
          | none => exact absurd known (by simp [ClientView.refreshed])
          | some v => exact ⟨v, rfl⟩
        have hentry : s.entryOf c r.objectId = some v := by
          unfold entryOf
          rw [hview]
          exact hbefore
        refine ⟨v, e, hentry, he, newer, ?_⟩
        rw [hbase, ClientView.baseFrame, hafter]
        rfl
    | _ => exact absurd hact (by simp)

/-- **No sync is cut against what the client was sent.**  In every run, each sync a tick sends
names the frame of the entity itself, while the client was last sent an older one. -/
theorem sync_never_cut_against_last (lz4 : Lz4) (bigMode lengthHack : Bool) (build : GameBuild)
    {tr : List (Entry (ServerGameState F) (Op F) Answer)} {s : ServerGameState F}
    (run : Run (step lz4) (withBuild bigMode lengthHack build) tr s) (op : Op F) (c : UInt32)
    (r : OutboundClone) (hr : .clone r ∈ s.sentTo op c) (hsync : r.syncType = Rec.sync) :
    ¬ s.cutAgainstLast c r ∧
      ∃ v e, s.entryOf c r.objectId = some v ∧ s.entities.lookup r.objectId = some e ∧
        r.dependentFrameIndex = e.frameIndex ∧ v.baseFrame < r.dependentFrameIndex := by
  obtain ⟨v, e, hv, he, hnewer, hframe⟩ := (Filed.of_run run).sync_spec hr hsync
  rw [← hframe] at hnewer
  refine ⟨?_, v, e, hv, he, hframe, hnewer⟩
  intro hcut
  have hsame := hcut.1
  rw [hv, Option.map_some, Option.some.injEq] at hsame
  rw [hsame] at hnewer
  exact absurd hnewer (UInt64.lt_irrefl _)

/-! ### A sync in frame 2 -/

/-- Client 2 was sent object 5 in frame 1, and a sync of frame 2 is waiting for it. -/
def syncWaiting : List (Op Float32) := objectScene bareCreate ++ [tickAll, .tick, syncFive]

/-- After `syncWaiting`, the next tick sends client 2 one record, for which `check` holds. -/
theorem exists_sync (check : ServerGameState Float32 → OutboundClone → Bool)
    (h : ((history (step LiteralRun.lz4) [] syncWaiting
        (ServerGameState.withBuild false false default)).any fun r =>
      match r.2.sentTo tickAll 2 with
      | [.clone record] => record.syncType = Rec.sync && check r.2 record
      | _ => false) = true) :
    ∃ tr s r, Run (step LiteralRun.lz4)
        (ServerGameState.withBuild false false default : ServerGameState Float32) tr s ∧
      .clone r ∈ s.sentTo tickAll 2 ∧ r.syncType = Rec.sync ∧ check s r = true := by
  obtain ⟨tr, s, run, hcheck⟩ := exists_run (step LiteralRun.lz4) _ syncWaiting
    (fun _ s => match s.sentTo tickAll 2 with
      | [.clone record] => record.syncType = Rec.sync && check s record
      | _ => false) h
  split at hcheck
  · rename_i record hsent
    simp only [Bool.and_eq_true, decide_eq_true_eq] at hcheck
    exact ⟨tr, s, record, run, by rw [hsent]; exact List.mem_cons_self, hcheck⟩
  · exact absurd hcheck (by simp)

theorem waiting_sync_not_cut :
    ∃ tr s r, Run (step LiteralRun.lz4)
        (ServerGameState.withBuild false false default : ServerGameState Float32) tr s ∧
      .clone r ∈ s.sentTo tickAll 2 ∧ r.syncType = Rec.sync ∧ ¬ s.cutAgainstLast 2 r ∧
      ∃ v e, s.entryOf 2 r.objectId = some v ∧ s.entities.lookup r.objectId = some e ∧
        r.dependentFrameIndex = e.frameIndex ∧ v.baseFrame < r.dependentFrameIndex := by
  obtain ⟨tr, s, r, run, hr, hsync, -⟩ := exists_sync (fun _ _ => true) (by decide +kernel)
  exact ⟨tr, s, r, run, hr, hsync, sync_never_cut_against_last LiteralRun.lz4 false false default
    run tickAll 2 r hr hsync⟩

/-- The sync of frame 2 says that client 2 already has frame 2. -/
theorem sync_names_its_own_frame :
    ∃ tr s r, Run (step LiteralRun.lz4)
        (ServerGameState.withBuild false false default : ServerGameState Float32) tr s ∧
      .clone r ∈ s.sentTo tickAll 2 ∧ r.syncType = Rec.sync ∧ r.dependentFrameIndex = 2 ∧
      (∃ v ∈ s.entryOf 2 r.objectId, v.baseFrame = 1) ∧ ¬ s.cutAgainstLast 2 r := by
  obtain ⟨tr, s, r, run, hr, hsync, hcheck⟩ := exists_sync
    (fun s r => r.dependentFrameIndex = 2 && (s.entryOf 2 r.objectId).any (·.baseFrame = 1))
    (by decide +kernel)
  simp only [Bool.and_eq_true, Option.any_eq_true, decide_eq_true_eq] at hcheck
  obtain ⟨hframe, v, hv, hbase⟩ := hcheck
  refine ⟨tr, s, r, run, hr, hsync, hframe, ⟨v, hv, hbase⟩, ?_⟩
  intro hcut
  have hsame := hcut.1
  rw [hv, Option.map_some, hbase, hframe] at hsame
  exact absurd hsame (by decide)

end ServerGameState

/-- A create or a sync, as opposed to a remove. -/
def OutboundRecord.isClone : OutboundRecord → Bool
  | .clone _ => true
  | .remove _ _ => false

/-- The estimated header of a create or sync, and the blob it carries. -/
def OutboundRecord.wireSize : OutboundRecord → Nat
  | .clone c => 22 + c.data.length
  | .remove _ _ => 0

/-- The creates and syncs among the records fit the budget, or are a single one. -/
def WithinBudget (budget : Nat) (records : List OutboundRecord) : Prop :=
  ((records.filter (·.isClone)).map (·.wireSize)).sum ≤ budget ∨
    (records.filter (·.isClone)).length = 1

instance (budget : Nat) (records : List OutboundRecord) :
    Decidable (WithinBudget budget records) :=
  inferInstanceAs (Decidable (_ ∨ _))

/-- The creates and syncs a plan holds. -/
def TickPlan.sends (plan : TickPlan) : List UInt16 := plan.creates ++ plan.syncs

/-! ### What is planned -/

namespace ClientView

variable [Scalar F]

/-- A turn of the fill sends nothing, or the candidate; then it either was the first, or the
candidate fits. -/
theorem send_sends (cfg : InterestConfig F) (fill : Fill F) (c : Candidate F) :
    ((send cfg fill c).plan.sends = fill.plan.sends ∧ (send cfg fill c).spent = fill.spent) ∨
      ((send cfg fill c).plan.sends.Perm (c.objectId :: fill.plan.sends) ∧
        (send cfg fill c).spent = fill.spent + cost c.entity ∧
        (fill.spent = 0 ∨ fill.spent + cost c.entity ≤ cfg.budgetBytes)) := by
  unfold send
  split
  · exact .inl ⟨rfl, rfl⟩
  · rename_i hroom
    have hfits : fill.spent = 0 ∨ fill.spent + cost c.entity ≤ cfg.budgetBytes := by omega
    split
    · exact .inl ⟨rfl, rfl⟩
    · simp only
      split
      · refine .inr ⟨?_, rfl, hfits⟩
        simp only [TickPlan.sends, List.append_assoc, List.singleton_append]
        exact List.perm_middle
      · split
        · refine .inr ⟨?_, rfl, hfits⟩
          simp only [TickPlan.sends, ← List.append_assoc]
          exact List.perm_append_singleton _ _
        · exact .inl ⟨rfl, rfl⟩

/-- A fill has spent the sizes of what it sends, and they fit unless it is a single one. -/
structure Spends (size : UInt16 → Nat) (budget : Nat) (fill : Fill F) : Prop where
  spent : fill.spent = (fill.plan.sends.map size).sum
  fits : fill.spent ≤ budget ∨ fill.plan.sends.length ≤ 1

theorem Spends.send {size : UInt16 → Nat} {cfg : InterestConfig F} {fill : Fill F}
    {c : Candidate F} (h : Spends size cfg.budgetBytes fill) (hpos : ∀ id, 0 < size id)
    (hsize : size c.objectId = cost c.entity) :
    Spends size cfg.budgetBytes (send cfg fill c) := by
  rcases send_sends cfg fill c with ⟨hsends, hspent⟩ | ⟨hperm, hspent, hroom⟩
  · exact ⟨by rw [hspent, hsends, h.spent], by rw [hspent, hsends]; exact h.fits⟩
  · refine ⟨?_, ?_⟩
    · rw [hspent, (hperm.map size).sum_nat, List.map_cons, List.sum_cons, hsize, h.spent]
      omega
    · rcases hroom with hfirst | hroom
      · -- nothing was sent before it
        have hnone : fill.plan.sends = [] := by
          cases hl : fill.plan.sends with
          | nil => rfl
          | cons id rest =>
              have hsum := h.spent
              have := hpos id
              rw [hl, List.map_cons, List.sum_cons] at hsum
              omega
        right
        rw [hperm.length_eq, hnone]
        simp
      · left
        rw [hspent]
        exact hroom

theorem foldl_spends {size : UInt16 → Nat} {cfg : InterestConfig F} (hpos : ∀ id, 0 < size id) :
    ∀ (l : List (Candidate F)) (fill : Fill F), (∀ c ∈ l, size c.objectId = cost c.entity) →
      Spends size cfg.budgetBytes fill →
      Spends size cfg.budgetBytes (l.foldl (ClientView.send cfg) fill) := by
  intro l
  induction l with
  | nil =>
      intro fill _ h
      exact h
  | cons c rest ih =>
      intro fill hsize h
      rw [List.foldl_cons]
      exact ih _ (fun c' hc' => hsize c' (List.mem_cons_of_mem _ hc'))
        (h.send hpos (hsize c List.mem_cons_self))

/-- Whatever is measured, a fill sends no more of it than the candidates have. -/
theorem foldl_sends_le (cfg : InterestConfig F) (g : UInt16 → Nat) :
    ∀ (l : List (Candidate F)) (fill : Fill F),
      ((l.foldl (ClientView.send cfg) fill).plan.sends.map g).sum
        ≤ (fill.plan.sends.map g).sum + (l.map fun c => g c.objectId).sum := by
  intro l
  induction l with
  | nil =>
      intro fill
      simp
  | cons c rest ih =>
      intro fill
      have hrest := ih (ClientView.send cfg fill c)
      rw [List.foldl_cons, List.map_cons, List.sum_cons]
      rcases send_sends cfg fill c with ⟨hsends, -⟩ | ⟨hperm, -⟩
      · rw [hsends] at hrest
        omega
      · rw [(hperm.map g).sum_nat, List.map_cons, List.sum_cons] at hrest
        omega

/-- **What a tick plans**, measured as it is counted, fits the budget or is a single record. -/
theorem tick_spends (view : ClientView F) {ctx : TickContext F} (h : WellPosed ctx)
    {size : UInt16 → Nat} (hpos : ∀ id, 0 < size id)
    (hsize : ∀ e ∈ view.relevantList ctx, size e.objectId = cost e) :
    ((view.tickWithContext ctx).2.sends.map size).sum ≤ ctx.cfg.budgetBytes ∨
      (view.tickWithContext ctx).2.sends.length ≤ 1 := by
  have hspends := foldl_spends hpos (view.sendOrder ctx) (view.startFill ctx)
    (by
      intro c hc
      obtain ⟨e, he, rfl⟩ := List.mem_map.mp ((view.sendOrder_perm h).mem_iff.mp hc)
      exact hsize e he)
    (show Spends size ctx.cfg.budgetBytes (view.startFill ctx) from
      ⟨rfl, .inr (by simp [startFill, TickPlan.sends])⟩)
  rw [tickWithContext_eq]
  rw [← hspends.spent]
  exact hspends.fits

/-- A tick plans no more than what is relevant. -/
theorem tick_sends_le (view : ClientView F) {ctx : TickContext F} (h : WellPosed ctx)
    (g : UInt16 → Nat) :
    ((view.tickWithContext ctx).2.sends.map g).sum
      ≤ ((view.relevantList ctx).map fun e => g e.objectId).sum := by
  have hle := foldl_sends_le ctx.cfg g (view.sendOrder ctx) (view.startFill ctx)
  have hperm := ((view.sendOrder_perm h).map fun c => g c.objectId).sum_nat
  have hnone : (view.startFill ctx).plan.sends = [] := rfl
  rw [List.map_map] at hperm
  rw [hperm, hnone, List.map_nil, List.sum_nil, Nat.zero_add] at hle
  exact hle

/-- What a tick creates is relevant and was not sent before; what it syncs was. -/
theorem tick_kinds (view : ClientView F) {ctx : TickContext F} (h : WellPosed ctx) (id : UInt16) :
    (id ∈ (view.tickWithContext ctx).2.creates →
      (∃ e, view.relevant ctx id = some e) ∧ (view.views.lookup id).any (·.created) = false) ∧
    (id ∈ (view.tickWithContext ctx).2.syncs →
      (∃ e, view.relevant ctx id = some e) ∧ (view.views.lookup id).any (·.created) = true) := by
  have hcreate : id ∈ (view.tickWithContext ctx).2.creates →
      Action.create ∈ (view.tickWithContext ctx).2.about id := by
    intro hmem
    simp [TickPlan.about, hmem]
  have hsync : id ∈ (view.tickWithContext ctx).2.syncs →
      Action.sync ∈ (view.tickWithContext ctx).2.about id := by
    intro hmem
    simp [TickPlan.about, hmem]
  have heff := view.tick_effect h id
  generalize (view.tickWithContext ctx).2.about id = acts at heff hcreate hsync
  generalize (view.tickWithContext ctx).1.views.lookup id = after at heff
  generalize view.views.lookup id = before at heff
  generalize view.relevant ctx id = rel at heff
  cases heff with
  | @creates _ e fresh =>
      refine ⟨fun _ => ⟨⟨e, rfl⟩, ?_⟩, fun hmem => absurd (hsync hmem) (by simp)⟩
      cases before with
      | none => rfl
      | some v => exact fresh
  | @syncs _ e known _ =>
      refine ⟨fun hmem => absurd (hcreate hmem) (by simp), fun _ => ⟨⟨e, rfl⟩, ?_⟩⟩
      cases before with
      | none => exact absurd known (by simp [refreshed])
      | some v => exact known
  | _ => exact ⟨fun hmem => absurd (hcreate hmem) (by simp), fun hmem => absurd (hsync hmem) (by simp)⟩

end ClientView

/-! ### What is written -/

namespace ServerGameState

/-- The size a tick counts an entity with. -/
def plannedSize (s : ServerGameState F) (id : UInt16) : Nat :=
  22 + ((s.entities.lookup id).map (·.data.length)).getD 0

/-- The size of the record that takes an entity to a client: a sync if the client was sent its
create, the create otherwise. -/
def recordSize (s : ServerGameState F) (c : UInt32) (id : UInt16) : Nat :=
  22 + ((s.entities.lookup id).map fun e =>
    if (s.entryOf c id).any (·.created) then e.data.length else e.createData.length).getD 0

theorem sum_records_le {entities : Map UInt16 (ServerEntity F)} {frameIndex : UInt64}
    {view : ClientView F} {syncType : UInt32} {size : UInt16 → Nat} : ∀ {ids : List UInt16},
    (∀ id ∈ ids, ∀ r, cloneRecord entities frameIndex view syncType id = some r →
      r.wireSize ≤ size id) →
    ((ids.filterMap (cloneRecord entities frameIndex view syncType)).map (·.wireSize)).sum
      ≤ (ids.map size).sum := by
  intro ids
  induction ids with
  | nil => simp
  | cons id rest ih =>
      intro hsize
      have hrest := ih fun id' hid' => hsize id' (List.mem_cons_of_mem _ hid')
      rw [List.filterMap_cons, List.map_cons, List.sum_cons]
      cases hr : cloneRecord entities frameIndex view syncType id with
      | none => exact Nat.le_add_left_of_le hrest
      | some r =>
          have := hsize id List.mem_cons_self r hr
          simp only [List.map_cons, List.sum_cons]
          omega

theorem filter_isClone_records {entities : Map UInt16 (ServerEntity F)} {frameIndex : UInt64}
    {view : ClientView F} {syncType : UInt32} (ids : List UInt16) :
    (ids.filterMap (cloneRecord entities frameIndex view syncType)).filter (·.isClone)
      = ids.filterMap (cloneRecord entities frameIndex view syncType) := by
  rw [List.filter_eq_self]
  intro r hr
  obtain ⟨id, -, hr⟩ := List.mem_filterMap.mp hr
  obtain ⟨e, c, -, rfl, -, -, -⟩ := cloneRecord_spec hr
  rfl

/-- The creates and syncs of a plan, written. -/
theorem filter_isClone_planRecords {entities : Map UInt16 (ServerEntity F)} {frameIndex : UInt64}
    {view : ClientView F} {plan : TickPlan} :
    (planRecords entities frameIndex view plan).filter (·.isClone)
      = plan.creates.filterMap (cloneRecord entities frameIndex view Rec.create)
        ++ plan.syncs.filterMap (cloneRecord entities frameIndex view Rec.sync) := by
  have hremoves : (plan.removes.map fun r => OutboundRecord.remove r.1 r.2).filter (·.isClone)
      = [] := by
    rw [List.filter_eq_nil_iff]
    intro r hr
    obtain ⟨p, -, rfl⟩ := List.mem_map.mp hr
    simp [OutboundRecord.isClone]
  unfold planRecords
  rw [List.filter_append, List.filter_append, filter_isClone_records, filter_isClone_records,
    hremoves, List.append_nil]

/-- What a tick writes for a planned create or sync is the record of the entity. -/
theorem wireSize_planned {s : ServerGameState F} {view after : ClientView F} {c : UInt32}
    {syncType : UInt32} {id : UInt16} {r : OutboundRecord} (hview : s.viewOf c = some view)
    (hkind : (view.views.lookup id).any (·.created) = !decide (syncType = Rec.create))
    (h : cloneRecord s.entities s.frameIndex after syncType id = some r) :
    r.wireSize = s.recordSize c id := by
  obtain ⟨e, clone, he, rfl, -, -, hdata⟩ := cloneRecord_spec h
  unfold recordSize entryOf
  rw [he, hview, Option.map_some, Option.getD_some, Option.bind_some, hkind]
  show 22 + clone.data.length = _
  rw [hdata]
  by_cases hty : syncType = Rec.create
  · simp [hty]
  · simp [hty]

section
variable [Scalar F]

/-- **What a tick writes** is no more than the records of what it planned. -/
theorem written_le {s : ServerGameState F} (filed : Filed s) {op : Op F} {c : UInt32}
    {view : ClientView F} {ctx : TickContext F} (hview : s.viewOf c = some view)
    (tick : s.tickOf op c = some ctx) :
    (((s.sentTo op c).filter (·.isClone)).map (·.wireSize)).sum
        ≤ ((view.tickWithContext ctx).2.sends.map (s.recordSize c)).sum ∧
      ((s.sentTo op c).filter (·.isClone)).length ≤ (view.tickWithContext ctx).2.sends.length := by
  have hsent : s.sentTo op c = planRecords s.entities s.frameIndex (view.tickWithContext ctx).1
      (view.tickWithContext ctx).2 := by
    unfold sentTo
    rw [hview, tick]
  have hkinds := view.tick_kinds (filed.tickOf_wellPosed tick)
  rw [hsent, filter_isClone_planRecords]
  unfold TickPlan.sends
  constructor
  · rw [List.map_append, List.sum_append, List.map_append, List.sum_append]
    refine Nat.add_le_add (sum_records_le ?_) (sum_records_le ?_)
    · intro id hid r hr
      exact (wireSize_planned hview (by rw [((hkinds id).1 hid).2]; rfl) hr).le
    · intro id hid r hr
      exact (wireSize_planned hview (by rw [((hkinds id).2 hid).2]; rfl) hr).le
  · rw [List.length_append, List.length_append]
    exact Nat.add_le_add (List.length_filterMap_le _ _) (List.length_filterMap_le _ _)

/-- No create that a tick may plan is larger than it is counted, or at most one entity is
relevant, or there is room for everything. -/
def wireRoom (s : ServerGameState F) (op : Op F) (c : UInt32) : Bool :=
  match s.viewOf c, s.tickOf op c with
  | some view, some ctx =>
    let ids := (view.relevantList ctx).map (·.objectId)
    ids.length ≤ 1 || ids.all (fun id => s.recordSize c id ≤ s.plannedSize id)
      || (ids.map (s.recordSize c)).sum ≤ ctx.cfg.budgetBytes
  | _, _ => true

/-- What is relevant is counted with the size of its sync blob. -/
theorem plannedSize_relevant {s : ServerGameState F} (filed : Filed s) {op : Op F} {c : UInt32}
    {view : ClientView F} {ctx : TickContext F} (tick : s.tickOf op c = some ctx)
    {e : EntitySnapshot F} (he : e ∈ view.relevantList ctx) :
    s.plannedSize e.objectId = ClientView.cost e := by
  have hrel := ClientView.relevant_of_mem (filed.tickOf_wellPosed tick) he
  obtain ⟨ent, hent, rfl, -, -⟩ := filed.relevant_entity tick hrel
  unfold plannedSize
  rw [hent]
  rfl

/-- **The budget is kept on the wire** by every tick that has room for the blobs it writes. -/
theorem wire_budget_respected (lz4 : Lz4) (bigMode lengthHack : Bool) (build : GameBuild)
    {tr : List (Entry (ServerGameState F) (Op F) Answer)} {s : ServerGameState F}
    (run : Run (step lz4) (withBuild bigMode lengthHack build) tr s) (op : Op F) (c : UInt32)
    (ctx : TickContext F) (tick : s.tickOf op c = some ctx) (hroom : s.wireRoom op c = true) :
    WithinBudget ctx.cfg.budgetBytes (s.sentTo op c) := by
  have filed := Filed.of_run run
  have wellPosed := filed.tickOf_wellPosed tick
  cases hview : s.viewOf c with
  | none =>
      rw [sentTo_of_idle (.inl hview)]
      exact .inl (Nat.zero_le _)
  | some view =>
      obtain ⟨hsize, hcount⟩ := written_le filed hview tick
      -- a single record is allowed, and none at all fits
      have few : (view.tickWithContext ctx).2.sends.length ≤ 1 →
          WithinBudget ctx.cfg.budgetBytes (s.sentTo op c) := by
        intro hsingle
        rcases Nat.le_one_iff_eq_zero_or_eq_one.mp (hcount.trans hsingle) with hnone | hone
        · left
          rw [List.length_eq_zero_iff.mp hnone]
          exact Nat.zero_le _
        · exact .inr hone
      have hall := view.tick_sends_le wellPosed (s.recordSize c)
      have hnum := view.tick_sends_le wellPosed fun _ => 1
      unfold wireRoom at hroom
      rw [hview, tick] at hroom
      simp only [Bool.or_eq_true, decide_eq_true_eq, List.all_eq_true, List.length_map,
        List.map_map] at hroom
      rcases hroom with (hone | hcover) | hfits
      · refine few ?_
        simp only [List.map_const', List.sum_replicate_nat, mul_one] at hnum
        omega
      · have hcounted := view.tick_spends wellPosed
          (show ∀ id, 0 < s.plannedSize id from fun id => by unfold plannedSize; omega)
          (fun e he => plannedSize_relevant filed tick he)
        rcases hcounted with hcounted | hsingle
        · refine .inl (hsize.trans (le_trans ?_ hcounted))
          refine List.sum_le_sum fun id hid => ?_
          have hrel : ∃ e, view.relevant ctx id = some e := by
            rcases List.mem_append.mp hid with hid | hid
            · exact ((view.tick_kinds wellPosed id).1 hid).1
            · exact ((view.tick_kinds wellPosed id).2 hid).1
          obtain ⟨e, he⟩ := hrel
          obtain ⟨hmem, rfl⟩ := ClientView.relevant_eq_some he
          exact hcover _ (List.mem_map_of_mem hmem)
        · exact few hsingle
      · exact .inl (hsize.trans (hall.trans hfits))

end

/-! ### Two objects -/

/-- The create of an object with a blob of five bytes. -/
def objectCreate (id : UInt8) : List UInt8 :=
  [0x20, 0x00, 0x20, id, 0x00, 0x00, 0x00, 0x00, 0x50, 0x05, 0x00, 0x07, 0x20, 0x01, 0x80, 0xE0]

/-- Client 1 creates two objects, with blobs of five bytes, where client 2 is. -/
def twoObjects : List (Op Float32) :=
  objectScene (objectCreate 5)
    ++ [.ingest 1 (LiteralRun.clonePayload (objectCreate 6)), .setPosition 6 Vec3.zero]

/-- The standard configuration with another budget. -/
def budgeted (bytes : Nat) : InterestConfig Float32 :=
  { InterestConfig.standard with budgetBytes := bytes }

/-- The outbound tick of all clients with a budget. -/
def tickWith (bytes : Nat) : Op Float32 := .tickClients (.stored UInt16) ∅ (budgeted bytes)

/-- What the tick of client 2 reads in it. -/
def twoObjectsTick (s : ServerGameState Float32) (bytes : Nat) : TickContext Float32 :=
  s.tickContext 2 (s.focusOf (.stored UInt16) ∅ 2) (budgeted bytes)

/-- The two creates have 54 bytes, and a budget of 54 has room for them. -/
theorem two_creates_within_budget :
    ∃ tr s, Run (step LiteralRun.lz4)
        (ServerGameState.withBuild false false default : ServerGameState Float32) tr s ∧
      s.tickOf (tickWith 54) 2 = some (twoObjectsTick s 54) ∧ s.wireRoom (tickWith 54) 2 = true ∧
      (s.sentTo (tickWith 54) 2).length = 2 ∧ WithinBudget 54 (s.sentTo (tickWith 54) 2) := by
  obtain ⟨tr, s, run, hcheck⟩ := exists_run (step LiteralRun.lz4)
    (ServerGameState.withBuild false false default : ServerGameState Float32) twoObjects
    (fun _ s => s.wireRoom (tickWith 54) 2 && (s.sentTo (tickWith 54) 2).length = 2)
    (by decide +kernel)
  simp only [Bool.and_eq_true, decide_eq_true_eq] at hcheck
  exact ⟨tr, s, run, rfl, hcheck.1, hcheck.2, wire_budget_respected LiteralRun.lz4 false false
    default run (tickWith 54) 2 (twoObjectsTick s 54) rfl hcheck.1⟩

/-- The two creates are counted as 44 bytes, and a budget of 44, which the validation accepts,
lets both through. -/
theorem two_creates_over_budget :
    ∃ tr s, Run (step LiteralRun.lz4)
        (ServerGameState.withBuild false false default : ServerGameState Float32) tr s ∧
      (budgeted 44).accepted = true ∧
      s.tickOf (tickWith 44) 2 = some (twoObjectsTick s 44) ∧
      (s.sentTo (tickWith 44) 2).length = 2 ∧
      ((s.sentTo (tickWith 44) 2).map (·.wireSize)).sum = 54 ∧
      ¬ WithinBudget 44 (s.sentTo (tickWith 44) 2) := by
  obtain ⟨tr, s, run, hcheck⟩ := exists_run (step LiteralRun.lz4)
    (ServerGameState.withBuild false false default : ServerGameState Float32) twoObjects
    (fun _ s => decide ((s.sentTo (tickWith 44) 2).length = 2 ∧
      ((s.sentTo (tickWith 44) 2).map (·.wireSize)).sum = 54 ∧
      ¬ WithinBudget 44 (s.sentTo (tickWith 44) 2))) (by decide +kernel)
  simp only [decide_eq_true_eq] at hcheck
  exact ⟨tr, s, run, by decide +kernel, rfl, hcheck⟩

end ServerGameState

end Baston.Zone
