/-
What a recovery leaves behind.

With other tasks writing to the routing table at any point, every player that was routed to the
failed zone when its players were read is dealt with once, and nobody else is; whoever is routed
there when the recovery is through was put there by somebody else since.

When nothing interferes the table is what the plan said: no zone goes over what it may hold, and
a player is only lost when every zone is full.
-/
import Baston.Gateway.Rebalance
import Baston.Proofs.Drain
import Baston.Proofs.Rebalance

namespace Baston.Gateway

open Assoc Trace Baston.Zone Rebalance

abbrev RecoveryEntry := Entry Recovery RecoveryOp RecoveryAnswer

variable {router : ConnectionRouter} {source : UInt32} {zone failedZone : ZoneId}

/-! ### Tables -/

theorem mem_playersInZone (ord : IterOrder UInt32) :
    source ∈ router.playersInZone ord zone ↔ router.routingTable.lookup source = some zone := by
  refine ⟨(ConnectionRouter.playersInZone_spec ord zone router).2 source, fun h => ?_⟩
  unfold ConnectionRouter.playersInZone
  exact List.mem_map.mpr ⟨(source, zone),
    List.mem_filter.mpr ⟨Map.mem_visit.mpr h, decide_eq_true rfl⟩, rfl⟩

theorem lookup_remove (other : UInt32) :
    (router.remove source).routingTable.lookup other
      = if other = source then none else router.routingTable.lookup other :=
  Map.lookup_erase_of source other router.routingTable

/-- The survivors are the other zones, each once. -/
theorem survivors_spec (failedZone : ZoneId) (zones : ZoneRooms) (ord : IterOrder ZoneId) :
    ((zones.survivors ord (some failedZone)).map Prod.fst).Nodup ∧
      ∀ z, z ∈ zones.survivors ord (some failedZone) ↔
        z.1 ≠ failedZone ∧ ∃ room, zones.lookup z.1 = some room ∧ z.2 = room.maxPlayers := by
  have hperm := List.perm_insertionSort (fun a b : ZoneId × UInt32 => a.1 ≤ b.1)
    (((zones.visit ord).filter fun z => some z.1 ≠ some failedZone).map
      fun z => (z.1, z.2.maxPlayers))
  unfold ZoneRooms.survivors
  constructor
  · rw [(hperm.map Prod.fst).nodup_iff, List.map_map]
    exact (Map.nodup_visit ord zones).sublist (List.filter_sublist.map Prod.fst)
  · intro z
    rw [hperm.mem_iff, List.mem_map]
    constructor
    · rintro ⟨⟨name, room⟩, hin, rfl⟩
      obtain ⟨hvisit, hne⟩ := List.mem_filter.mp hin
      exact ⟨fun h => of_decide_eq_true hne (congrArg some h), room, Map.mem_visit.mp hvisit, rfl⟩
    · obtain ⟨name, capacity⟩ := z
      rintro ⟨hne, room, hroom, rfl⟩
      refine ⟨(name, room), List.mem_filter.mpr ⟨Map.mem_visit.mpr hroom, ?_⟩, rfl⟩
      exact decide_eq_true fun h => hne (Option.some.inj h)

/-- What a plan says. -/
theorem planned_of_plan (router : ConnectionRouter) {survivors : List (ZoneId × UInt32)}
    (hnodup : (survivors.map Prod.fst).Nodup) (orphaned : List UInt32) :
    ∃ plan, planRebalance router orphaned survivors = (plan.assignments, plan.unplaceable) ∧
      Planned router survivors orphaned plan := by
  unfold planRebalance
  by_cases hempty : survivors = []
  · subst hempty
    refine ⟨⟨[], [], orphaned⟩, rfl, rfl, .refl _, ?_, ?_, ?_⟩
    · intro s hs
      cases hs
    · intro _ s hs
      cases hs
    · intro before a after hsplit
      simp at hsplit
  · rw [if_neg hempty]
    refine ⟨_, rfl, ?_⟩
    have hstart : Planned router survivors []
        ⟨survivors.map fun s => ⟨router.countInZone s.1, s.2.toNat, s.1⟩, [], []⟩ :=
      ⟨rfl, .refl _, fun s _ hused => by simp at hused, fun hne => absurd rfl hne,
        fun before a after hsplit => by simp at hsplit⟩
    exact planned_run hnodup orphaned [] _ hstart

/-- An assignment goes to a survivor. -/
theorem Rebalance.Planned.chosen {survivors : List (ZoneId × UInt32)} {orphaned : List UInt32}
    {plan : Plan} (h : Planned router survivors orphaned plan) {a : UInt32 × ZoneId}
    (ha : a ∈ plan.assignments) : ∃ capacity, (a.2, capacity) ∈ survivors := by
  obtain ⟨before, after, hsplit⟩ := List.append_of_mem ha
  obtain ⟨capacity, hin, -⟩ := h.least before a after hsplit
  exact ⟨capacity, hin⟩

/-! ### Among other tasks -/

/-- Whom an answer of the recovery is about. -/
def RecoveryAnswer.dealtWith : RecoveryAnswer → Option UInt32
  | .none => .none
  | .kicked source => some source
  | .rerouted source _ => some source

/-- Whom the recovery has dealt with, the last one first. -/
def dealtWith (past : List RecoveryEntry) : List UInt32 :=
  past.filterMap fun e => e.answer.dealtWith

/-- Somebody else routes a player to a zone. -/
def RecoveryOp.RoutesTo (op : RecoveryOp) (source : UInt32) (zone : ZoneId) : Prop :=
  op = .assign source zone ∨ op = .commitHandoff source zone

/-- Since the players of the failed zone were read: those that have been dealt with and those
that remain are the players that were there, and whoever is routed there is one that remains or
has been put there since. -/
structure Since (failedZone : ZoneId) (since : List RecoveryEntry)
    (orphaned remaining : List UInt32) (router : ConnectionRouter) : Prop where
  perm : (dealtWith since ++ remaining).Perm orphaned
  stays : ∀ source, router.routingTable.lookup source = some failedZone →
    source ∈ remaining ∨ ∃ e ∈ since, e.op.RoutesTo source failedZone
  elsewhere : ∀ e ∈ since, ∀ source zone, e.answer = .rerouted source zone → zone ≠ failedZone

namespace Since

variable {since : List RecoveryEntry} {orphaned remaining : List UInt32} {e : RecoveryEntry}

/-- A step that deals with nobody. -/
theorem quiet (h : Since failedZone since orphaned remaining router)
    {remaining' : List UInt32} (hanswer : e.answer = .none)
    (hremaining : remaining'.Perm remaining) :
    Since failedZone (e :: since) orphaned remaining' router where
  perm := by
    have hsame : dealtWith (e :: since) = dealtWith since := by
      simp [dealtWith, hanswer, RecoveryAnswer.dealtWith]
    rw [hsame]
    exact (hremaining.append_left _).trans h.perm
  stays source hsource := by
    rcases h.stays source hsource with hin | ⟨x, hx, hroutes⟩
    · exact .inl (hremaining.mem_iff.mpr hin)
    · exact .inr ⟨x, List.mem_cons_of_mem _ hx, hroutes⟩
  elsewhere := by
    refine List.forall_mem_cons.mpr ⟨?_, h.elsewhere⟩
    intro source zone hrerouted
    rw [hanswer] at hrerouted
    cases hrerouted

/-- Somebody else writes to the table. -/
theorem write (h : Since failedZone since orphaned remaining router) {router' : ConnectionRouter}
    (hanswer : e.answer = .none)
    (htable : ∀ source, router'.routingTable.lookup source = some failedZone →
      router.routingTable.lookup source = some failedZone ∨ e.op.RoutesTo source failedZone) :
    Since failedZone (e :: since) orphaned remaining router' where
  perm := (h.quiet hanswer (.refl _)).perm
  stays source hsource := by
    rcases htable source hsource with hold | hnow
    · exact (h.quiet hanswer (.refl _)).stays source hold
    · exact .inr ⟨e, List.mem_cons_self, hnow⟩
  elsewhere := (h.quiet hanswer (.refl _)).elsewhere

/-- The recovery deals with the next one. -/
theorem deal {next : UInt32} (h : Since failedZone since orphaned remaining router)
    {remaining' : List UInt32} {router' : ConnectionRouter}
    (hanswer : e.answer.dealtWith = some next)
    (hzone : ∀ source zone, e.answer = .rerouted source zone → zone ≠ failedZone)
    (hremaining : remaining.Perm (next :: remaining'))
    (htable : ∀ source, router'.routingTable.lookup source = some failedZone →
      source ≠ next ∧ router.routingTable.lookup source = some failedZone) :
    Since failedZone (e :: since) orphaned remaining' router' where
  perm := by
    have hmore : dealtWith (e :: since) = next :: dealtWith since := by
      simp [dealtWith, hanswer]
    rw [hmore]
    refine .trans ?_ ((hremaining.symm.append_left _).trans h.perm)
    exact List.perm_middle.symm
  stays source hsource := by
    obtain ⟨hne, hold⟩ := htable source hsource
    rcases h.stays source hold with hin | ⟨x, hx, hroutes⟩
    · exact .inl ((List.mem_cons.mp (hremaining.mem_iff.mp hin)).resolve_left hne)
    · exact .inr ⟨x, List.mem_cons_of_mem _ hx, hroutes⟩
  elsewhere := List.forall_mem_cons.mpr ⟨hzone, h.elsewhere⟩

end Since

/-- Whom a recovery still has to deal with. -/
def RecoveryPhase.remaining : RecoveryPhase → List UInt32
  | .evicted => []
  | .orphansRead orphaned | .survivorsRead orphaned _ => orphaned
  | .kicking assignments unplaceable => unplaceable ++ assignments.map Prod.fst
  | .committing assignments => assignments.map Prod.fst
  | .recovered => []

/-- The zones it may send them to are not the failed one. -/
def RecoveryPhase.Elsewhere (failedZone : ZoneId) : RecoveryPhase → Prop
  | .survivorsRead _ survivors =>
    (survivors.map Prod.fst).Nodup ∧ ∀ s ∈ survivors, s.1 ≠ failedZone
  | .kicking assignments _ | .committing assignments => ∀ a ∈ assignments, a.2 ≠ failedZone
  | _ => True

/-- A recovery that has not read the players yet, or what there is to say since it has. -/
def Underway (failedZone : ZoneId) (past : List RecoveryEntry) (s : Recovery) : Prop :=
  s.phase = .evicted ∨
    (s.phase.Elsewhere failedZone ∧ ∃ since read before ord, past = since ++ read :: before ∧
      read.op = .playersInZone ord ∧
      Since failedZone since (read.pre.router.playersInZone ord failedZone) s.phase.remaining
        s.router)

/-- Another task's write to the table. -/
theorem Underway.write {past : List RecoveryEntry} {s : Recovery} {op : RecoveryOp}
    {router' : ConnectionRouter} (h : Underway failedZone past s)
    (htable : ∀ source, router'.routingTable.lookup source = some failedZone →
      s.router.routingTable.lookup source = some failedZone ∨ op.RoutesTo source failedZone) :
    Underway failedZone (⟨s, op, .none, { s with router := router' }⟩ :: past)
      { s with router := router' } := by
  rcases h with hevicted | ⟨helse, since, read, before, ord, rfl, hop, hsince⟩
  · exact .inl hevicted
  · exact .inr ⟨helse, _ :: since, read, before, ord, rfl, hop, hsince.write rfl htable⟩

/-- Whoever is routed to the failed zone after a commit was so before, or is the one committed. -/
theorem failed_of_commitHandoff {source other : UInt32} {zone : ZoneId}
    (h : (router.commitHandoff other zone).routingTable.lookup source = some failedZone) :
    router.routingTable.lookup source = some failedZone ∨ source = other ∧ zone = failedZone := by
  rw [ConnectionRouter.lookup_commitHandoff] at h
  split at h
  · exact .inr ⟨‹_›, Option.some.inj h⟩
  · exact .inl h

theorem Underway.step {past : List RecoveryEntry} {s s' : Recovery} {op : RecoveryOp}
    {answer : RecoveryAnswer} (h : Underway failedZone past s)
    (hs : Recovery.step failedZone op s = some (s', answer)) :
    Underway failedZone (⟨s, op, answer, s'⟩ :: past) s' := by
  -- a step since the players were read is one more entry of the same stretch
  have hon : ∀ {phase : RecoveryPhase}, s.phase = phase → phase ≠ .evicted →
      (phase.Elsewhere failedZone → s'.phase.Elsewhere failedZone) →
      (phase.Elsewhere failedZone → ∀ since orphaned,
        Since failedZone since orphaned phase.remaining s.router →
        Since failedZone (⟨s, op, answer, s'⟩ :: since) orphaned s'.phase.remaining s'.router) →
      Underway failedZone (⟨s, op, answer, s'⟩ :: past) s' := by
    rintro phase rfl hread helse hsince
    rcases h with hevicted | ⟨hel, since, read, before, ord, rfl, hop, hs⟩
    · exact absurd hevicted hread
    · exact .inr ⟨helse hel, _ :: since, read, before, ord, rfl, hop, hsince hel since _ hs⟩
  cases op with
  | playersInZone ord =>
      simp only [Recovery.step] at hs
      split at hs
      · obtain ⟨rfl, rfl⟩ := Prod.mk.inj (Option.some.inj hs)
        refine .inr ⟨trivial, [], _, past, ord, rfl, rfl, .refl _, ?_, by simp⟩
        intro source hsource
        exact .inl ((mem_playersInZone ord).mpr hsource)
      · cases hs
  | survivors zones ord =>
      simp only [Recovery.step] at hs
      split at hs
      · rename_i orphaned hphase
        obtain ⟨rfl, rfl⟩ := Prod.mk.inj (Option.some.inj hs)
        obtain ⟨hnodup, hmem⟩ := survivors_spec failedZone zones ord
        exact hon hphase (by simp) (fun _ => ⟨hnodup, fun s hs => ((hmem s).mp hs).1⟩)
          fun _ since _ hsince => hsince.quiet rfl (.refl _)
      · cases hs
  | planRebalance =>
      simp only [Recovery.step] at hs
      split at hs
      · rename_i orphaned survivors hphase
        obtain ⟨rfl, rfl⟩ := Prod.mk.inj (Option.some.inj hs)
        refine hon hphase (by simp) ?_ ?_
        · rintro ⟨hnodup, helse⟩
          obtain ⟨plan, hplan, hplanned⟩ := planned_of_plan s.router hnodup orphaned
          intro a ha
          simp only [hplan] at ha
          obtain ⟨capacity, hin⟩ := hplanned.chosen ha
          exact helse _ hin
        · rintro ⟨hnodup, -⟩ since all hsince
          obtain ⟨plan, hplan, hplanned⟩ := planned_of_plan s.router hnodup orphaned
          refine hsince.quiet rfl ?_
          simp only [RecoveryPhase.remaining, hplan]
          exact List.perm_append_comm.trans hplanned.perm
      · cases hs
  | kick =>
      simp only [Recovery.step] at hs
      split at hs
      · rename_i assignments next unplaceable hphase
        obtain ⟨rfl, rfl⟩ := Prod.mk.inj (Option.some.inj hs)
        refine hon hphase (by simp) (fun h => h) fun _ since _ hsince =>
          hsince.deal rfl (by simp) (.refl _) ?_
        intro source hsource
        rw [lookup_remove] at hsource
        split at hsource
        · cases hsource
        · exact ⟨‹_›, hsource⟩
      · cases hs
  | lock =>
      simp only [Recovery.step] at hs
      split at hs
      · rename_i hphase
        obtain ⟨rfl, rfl⟩ := Prod.mk.inj (Option.some.inj hs)
        exact hon hphase (by simp) (fun _ => trivial)
          fun _ since _ hsince => hsince.quiet rfl (.refl _)
      · rename_i assignments _ hphase
        obtain ⟨rfl, rfl⟩ := Prod.mk.inj (Option.some.inj hs)
        exact hon hphase (by simp) (fun h => h) fun _ since _ hsince => hsince.quiet rfl (.refl _)
      · cases hs
  | commit =>
      simp only [Recovery.step] at hs
      split at hs
      · rename_i next zone assignments hphase
        obtain ⟨rfl, rfl⟩ := Prod.mk.inj (Option.some.inj hs)
        refine hon hphase (by simp) (fun h => (List.forall_mem_cons.mp h).2) ?_
        intro helse since _ hsince
        have hzone : zone ≠ failedZone := (List.forall_mem_cons.mp helse).1
        refine hsince.deal rfl ?_ (.refl _) ?_
        · intro source zone' heq
          obtain ⟨-, rfl⟩ := RecoveryAnswer.rerouted.inj heq
          exact hzone
        · intro source hsource
          rw [ConnectionRouter.lookup_commitHandoff] at hsource
          split at hsource
          · exact absurd (Option.some.inj hsource) hzone
          · exact ⟨‹_›, hsource⟩
      · rename_i hphase
        obtain ⟨rfl, rfl⟩ := Prod.mk.inj (Option.some.inj hs)
        exact hon hphase (by simp) (fun _ => trivial)
          fun _ since _ hsince => hsince.quiet rfl (.refl _)
      · cases hs
  | assign other zone =>
      obtain ⟨rfl, rfl⟩ := Prod.mk.inj (Option.some.inj hs)
      refine h.write fun source hsource => (failed_of_commitHandoff hsource).imp_right ?_
      rintro ⟨rfl, rfl⟩
      exact .inl rfl
  | commitHandoff other zone =>
      simp only [Recovery.step] at hs
      split at hs
      · cases hs
      · obtain ⟨rfl, rfl⟩ := Prod.mk.inj (Option.some.inj hs)
        refine h.write fun source hsource => (failed_of_commitHandoff hsource).imp_right ?_
        rintro ⟨rfl, rfl⟩
        exact .inr rfl
  | remove other =>
      obtain ⟨rfl, rfl⟩ := Prod.mk.inj (Option.some.inj hs)
      refine h.write fun source hsource => .inl ?_
      rw [lookup_remove] at hsource
      split at hsource
      · cases hsource
      · exact hsource

/-- Two players in a zone that fails, and two zones with room for one of them. -/
def failingTable : ConnectionRouter :=
  ⟨(((∅ : Map UInt32 ZoneId).insert 1 "a").insert 2 "a").insert 7 "b"⟩

def tightZones : ZoneRooms := ((∅ : ZoneRooms).insert "b" ⟨1, 1⟩).insert "c" ⟨1, 0⟩

/-- The recovery of zone `a`, up to the kick. -/
def untilKick : List RecoveryOp :=
  [.playersInZone (.stored UInt32), .survivors tightZones (.stored ZoneId), .planRebalance, .kick]

/-- The recovery's own steps. -/
def RecoveryOp.own : RecoveryOp → Bool
  | .assign _ _ | .commitHandoff _ _ | .remove _ => false
  | _ => true

/-- The table without some players. -/
def without (router : ConnectionRouter) (players : List UInt32) : ConnectionRouter :=
  players.foldl ConnectionRouter.remove router

theorem without_append (router : ConnectionRouter) (players : List UInt32) (source : UInt32) :
    without router (players ++ [source]) = (without router players).remove source := by
  simp [without]

theorem lookup_without (other : UInt32) : ∀ (players : List UInt32) (router : ConnectionRouter),
    (without router players).routingTable.lookup other
      = if other ∈ players then none else router.routingTable.lookup other := by
  intro players
  induction players with
  | nil =>
      intro router
      simp [without]
  | cons source rest ih =>
      intro router
      refine (ih (router.remove source)).trans ?_
      rw [lookup_remove]
      by_cases hrest : other ∈ rest
      · simp [hrest]
      · by_cases hsource : other = source <;> simp [hrest, hsource]

/-- A player that goes is counted nowhere but where it was. -/
theorem countInZone_without (hne : failedZone ≠ zone) :
    ∀ (players : List UInt32) (router : ConnectionRouter), players.Nodup →
      (∀ source ∈ players, router.routingTable.lookup source = some failedZone) →
      (without router players).countInZone zone = router.countInZone zone := by
  intro players
  induction players with
  | nil =>
      intro router _ _
      rfl
  | cons source rest ih =>
      intro router hnodup hrouted
      obtain ⟨hfresh, hrest⟩ := List.nodup_cons.mp hnodup
      refine (ih (router.remove source) hrest ?_).trans ?_
      · intro other hother
        have hne : other ≠ source := by
          rintro rfl
          exact hfresh hother
        rw [lookup_remove, if_neg hne]
        exact hrouted other (List.mem_cons_of_mem _ hother)
      · have hentries : (router.remove source).routingTable.entries
            = List.kerase source router.routingTable.entries := rfl
        unfold ConnectionRouter.countInZone
        rw [hentries, ConnectionRouter.filter_kerase _ (hrouted source List.mem_cons_self) hne]

/-- The last reroute of a player decides. -/
theorem lookup_routedAfter (other : UInt32) : ∀ (moved : List (UInt32 × ZoneId))
    (router : ConnectionRouter), (moved.map Prod.fst).Nodup →
      (∀ zone, (other, zone) ∈ moved →
        (routedAfter router moved).routingTable.lookup other = some zone) ∧
      (other ∉ moved.map Prod.fst →
        (routedAfter router moved).routingTable.lookup other
          = router.routingTable.lookup other) := by
  intro moved
  induction moved with
  | nil =>
      intro router _
      refine ⟨?_, fun _ => rfl⟩
      intro zone h
      cases h
  | cons m rest ih =>
      intro router hnodup
      obtain ⟨hfresh, hrest⟩ := List.nodup_cons.mp hnodup
      obtain ⟨hin, hout⟩ := ih (router.commitHandoff m.1 m.2) hrest
      constructor
      · intro zone h
        rcases List.mem_cons.mp h with rfl | h
        · refine (hout hfresh).trans ?_
          rw [ConnectionRouter.lookup_commitHandoff, if_pos rfl]
        · exact hin zone h
      · intro h
        rw [List.map_cons, List.mem_cons, not_or] at h
        refine (hout h.2).trans ?_
        rw [ConnectionRouter.lookup_commitHandoff, if_neg h.1]

/-- The players of a zone are counted where they go. -/
theorem countInZone_moved (hne : failedZone ≠ zone) : ∀ (moved : List (UInt32 × ZoneId))
    (router : ConnectionRouter), (moved.map Prod.fst).Nodup →
      (∀ m ∈ moved, router.routingTable.lookup m.1 = some failedZone) →
      (routedAfter router moved).countInZone zone
        = router.countInZone zone + (moved.filter fun m => m.2 = zone).length := by
  intro moved
  induction moved with
  | nil =>
      intro router _ _
      simp [routedAfter]
  | cons m rest ih =>
      intro router hnodup hrouted
      obtain ⟨hfresh, hrest⟩ := List.nodup_cons.mp hnodup
      have hone := ConnectionRouter.countInZone_commitHandoff m.2
        (hrouted m List.mem_cons_self) hne
      refine (ih (router.commitHandoff m.1 m.2) hrest ?_).trans ?_
      · intro other hother
        rw [ConnectionRouter.lookup_commitHandoff, if_neg]
        · exact hrouted other (List.mem_cons_of_mem _ hother)
        · intro heq
          exact hfresh (heq ▸ List.mem_map_of_mem hother)
      · rw [hone]
        by_cases hto : m.2 = zone
        · simp only [hto, if_true, List.filter_cons, decide_true, List.length_cons]
          omega
        · simp [hto]

/-- The table is what the plan says, as far as it has been carried out. -/
def Undisturbed (failedZone : ZoneId) (router : ConnectionRouter) (zones : ZoneRooms)
    (s : Recovery) : Prop :=
  match s.phase with
  | .evicted => s.router = router
  | .orphansRead orphaned => s.router = router ∧
      ∃ ord, orphaned = router.playersInZone ord failedZone
  | .survivorsRead orphaned survivors => s.router = router ∧
      (∃ ord, orphaned = router.playersInZone ord failedZone) ∧
      ∃ ord, survivors = zones.survivors ord (some failedZone)
  | .kicking assignments unplaceable => ∃ ord ord' kicked,
      planRebalance router (router.playersInZone ord failedZone)
        (zones.survivors ord' (some failedZone)) = (assignments, kicked ++ unplaceable) ∧
      s.router = without router kicked
  | .committing assignments => ∃ ord ord' moved kicked,
      planRebalance router (router.playersInZone ord failedZone)
        (zones.survivors ord' (some failedZone)) = (moved ++ assignments, kicked) ∧
      s.router = routedAfter (without router kicked) moved
  | .recovered => ∃ ord ord' moved kicked,
      planRebalance router (router.playersInZone ord failedZone)
        (zones.survivors ord' (some failedZone)) = (moved, kicked) ∧
      s.router = routedAfter (without router kicked) moved

theorem Undisturbed.step {zones : ZoneRooms} {s s' : Recovery} {op : RecoveryOp}
    {answer : RecoveryAnswer} (h : Undisturbed failedZone router zones s)
    (hs : Recovery.step failedZone op s = some (s', answer)) (hown : op.own = true)
    (hzones : ∀ zones' ord, op = .survivors zones' ord → zones' = zones) :
    Undisturbed failedZone router zones s' := by
  cases op with
  | playersInZone ord =>
      simp only [Recovery.step] at hs
      split at hs
      · rename_i hphase
        obtain ⟨rfl, -⟩ := Prod.mk.inj (Option.some.inj hs)
        simp only [Undisturbed, hphase] at h
        exact ⟨h, ord, by rw [h]⟩
      · cases hs
  | survivors zones' ord =>
      simp only [Recovery.step] at hs
      split at hs
      · rename_i orphaned hphase
        obtain ⟨rfl, -⟩ := Prod.mk.inj (Option.some.inj hs)
        simp only [Undisturbed, hphase] at h
        exact ⟨h.1, h.2, ord, by rw [hzones zones' ord rfl]⟩
      · cases hs
  | planRebalance =>
      simp only [Recovery.step] at hs
      split at hs
      · rename_i orphaned survivors hphase
        obtain ⟨rfl, -⟩ := Prod.mk.inj (Option.some.inj hs)
        simp only [Undisturbed, hphase] at h
        obtain ⟨hrouter, ⟨ord, rfl⟩, ord', rfl⟩ := h
        exact ⟨ord, ord', [], by rw [hrouter]; rfl, hrouter⟩
      · cases hs
  | kick =>
      simp only [Recovery.step] at hs
      split at hs
      · rename_i assignments next unplaceable hphase
        obtain ⟨rfl, -⟩ := Prod.mk.inj (Option.some.inj hs)
        simp only [Undisturbed, hphase] at h
        obtain ⟨ord, ord', kicked, hplan, hrouter⟩ := h
        refine ⟨ord, ord', kicked ++ [next], ?_, ?_⟩
        · rw [hplan, List.append_assoc, List.singleton_append]
        · rw [without_append, ← hrouter]
      · cases hs
  | lock =>
      simp only [Recovery.step] at hs
      split at hs
      · rename_i hphase
        obtain ⟨rfl, -⟩ := Prod.mk.inj (Option.some.inj hs)
        simp only [Undisturbed, hphase] at h
        obtain ⟨ord, ord', kicked, hplan, hrouter⟩ := h
        exact ⟨ord, ord', [], kicked, by rw [hplan, List.append_nil], hrouter⟩
      · rename_i assignments _ hphase
        obtain ⟨rfl, -⟩ := Prod.mk.inj (Option.some.inj hs)
        simp only [Undisturbed, hphase] at h
        obtain ⟨ord, ord', kicked, hplan, hrouter⟩ := h
        exact ⟨ord, ord', [], kicked, by rw [hplan, List.append_nil, List.nil_append], hrouter⟩
      · cases hs
  | commit =>
      simp only [Recovery.step] at hs
      split at hs
      · rename_i next zone assignments hphase
        obtain ⟨rfl, -⟩ := Prod.mk.inj (Option.some.inj hs)
        simp only [Undisturbed, hphase] at h
        obtain ⟨ord, ord', moved, kicked, hplan, hrouter⟩ := h
        refine ⟨ord, ord', moved ++ [(next, zone)], kicked, ?_, ?_⟩
        · rw [hplan, List.append_assoc, List.singleton_append]
        · rw [routedAfter, List.foldl_append]
          exact congrArg (·.commitHandoff next zone) hrouter
      · rename_i hphase
        obtain ⟨rfl, -⟩ := Prod.mk.inj (Option.some.inj hs)
        simp only [Undisturbed, hphase] at h
        obtain ⟨ord, ord', moved, kicked, hplan, hrouter⟩ := h
        exact ⟨ord, ord', moved, kicked, by rw [hplan, List.append_nil], hrouter⟩
      · cases hs
  | assign _ _ | commitHandoff _ _ | remove _ => cases hown

/-- **What a recovery that is left alone makes of the table.**  Whoever was elsewhere stays where
it was, and nobody is left in the failed zone: each of its players is in another registered zone
or gone.  No zone holds more than it may unless it did before, and if a player is gone every
registered zone is full. -/
theorem recovery_left_alone (zones : ZoneRooms) {past : List RecoveryEntry} {s : Recovery}
    (run : Run (Recovery.step failedZone) ⟨router, .evicted⟩ past s)
    (hown : ∀ e ∈ past, e.op.own = true)
    (hzones : ∀ e ∈ past, ∀ zones' ord, e.op = .survivors zones' ord → zones' = zones)
    (hdone : s.phase = .recovered) :
    (∀ source, router.routingTable.lookup source ≠ some failedZone →
      s.router.routingTable.lookup source = router.routingTable.lookup source) ∧
    (∀ source zone, router.routingTable.lookup source = some failedZone →
      s.router.routingTable.lookup source = some zone →
      zone ≠ failedZone ∧ ∃ room, zones.lookup zone = some room) ∧
    (∀ zone room, zone ≠ failedZone → zones.lookup zone = some room →
      s.router.countInZone zone ≤ max room.maxPlayers.toNat (router.countInZone zone)) ∧
    ((∃ source, router.routingTable.lookup source = some failedZone ∧
        s.router.routingTable.lookup source = none) →
      ∀ zone room, zone ≠ failedZone → zones.lookup zone = some room →
        room.maxPlayers.toNat ≤ s.router.countInZone zone) := by
  have hall : Undisturbed failedZone router zones s := by
    clear hdone
    induction run with
    | nil => exact rfl
    | snoc _ h ih =>
        obtain ⟨howne, hown⟩ := List.forall_mem_cons.mp hown
        obtain ⟨hzonese, hzones⟩ := List.forall_mem_cons.mp hzones
        exact (ih hown hzones).step h howne hzonese
  simp only [Undisturbed, hdone] at hall
  obtain ⟨ord, ord', moved, kicked, hplan, hrouter⟩ := hall
  obtain ⟨hnodup, hsurvivors⟩ := survivors_spec failedZone zones ord'
  obtain ⟨plan, heq, hplanned⟩ := planned_of_plan router hnodup
    (router.playersInZone ord failedZone)
  obtain ⟨rfl, rfl⟩ := Prod.mk.inj (heq.symm.trans hplan)
  have horphans := hplanned.perm
  have hdistinct : (plan.assignments.map Prod.fst ++ plan.unplaceable).Nodup :=
    horphans.nodup_iff.mpr (ConnectionRouter.playersInZone_spec ord failedZone router).1
  obtain ⟨hmoved, hkicked, hapart⟩ := List.nodup_append.mp hdistinct
  have hrouted : ∀ source ∈ plan.assignments.map Prod.fst ++ plan.unplaceable,
      router.routingTable.lookup source = some failedZone :=
    fun source hin => (mem_playersInZone ord).mp (horphans.mem_iff.mp hin)
  have hmovedRouted : ∀ m ∈ plan.assignments,
      (without router plan.unplaceable).routingTable.lookup m.1 = some failedZone := by
    intro m hm
    have hin := List.mem_map_of_mem (f := Prod.fst) hm
    rw [lookup_without, if_neg fun hk => hapart _ hin _ hk rfl]
    exact hrouted _ (List.mem_append_left _ hin)
  -- a zone holds what the plan has it hold
  have hcount : ∀ zone, zone ≠ failedZone →
      s.router.countInZone zone = loadAfter router plan.assignments zone := by
    intro zone hne
    rw [hrouter, countInZone_moved (Ne.symm hne) _ _ hmoved hmovedRouted,
      countInZone_without (Ne.symm hne) _ _ hkicked
        fun source hin => hrouted source (List.mem_append_right _ hin)]
    rfl
  refine ⟨?_, ?_, ?_, ?_⟩
  · intro source hsource
    have hnot : source ∉ plan.assignments.map Prod.fst ++ plan.unplaceable :=
      fun hin => hsource (hrouted source hin)
    rw [List.mem_append, not_or] at hnot
    rw [hrouter, (lookup_routedAfter source _ _ hmoved).2 hnot.1, lookup_without, if_neg hnot.2]
  · intro source zone hsource hzone
    have hin := horphans.mem_iff.mpr ((mem_playersInZone ord).mpr hsource)
    rw [hrouter] at hzone
    rcases List.mem_append.mp hin with hassigned | hunplaceable
    · obtain ⟨⟨_, zone'⟩, ha, rfl⟩ := List.mem_map.mp hassigned
      rw [(lookup_routedAfter _ _ _ hmoved).1 zone' ha] at hzone
      obtain rfl := Option.some.inj hzone
      obtain ⟨capacity, hchosen⟩ := hplanned.chosen ha
      obtain ⟨hne, room, hroom, -⟩ := (hsurvivors _).mp hchosen
      exact ⟨hne, room, hroom⟩
    · have hnot : source ∉ plan.assignments.map Prod.fst :=
        fun h => hapart _ h _ hunplaceable rfl
      rw [(lookup_routedAfter _ _ _ hmoved).2 hnot, lookup_without, if_pos hunplaceable] at hzone
      cases hzone
  · intro zone room hne hroom
    have hin : (zone, room.maxPlayers) ∈ zones.survivors ord' (some failedZone) :=
      (hsurvivors _).mpr ⟨hne, room, hroom, rfl⟩
    rw [hcount zone hne]
    by_cases hused : ∃ a ∈ plan.assignments, a.2 = zone
    · exact Nat.le_trans (hplanned.capacity _ hin hused) (Nat.le_max_left _ _)
    · have hnone : (plan.assignments.filter fun a => a.2 = zone) = [] := by
        rw [List.filter_eq_nil_iff]
        intro a ha haz
        exact hused ⟨a, ha, of_decide_eq_true haz⟩
      rw [loadAfter, hnone]
      exact Nat.le_max_right _ _
  · rintro ⟨source, hsource, hgone⟩ zone room hne hroom
    have hin : (zone, room.maxPlayers) ∈ zones.survivors ord' (some failedZone) :=
      (hsurvivors _).mpr ⟨hne, room, hroom, rfl⟩
    rw [hcount zone hne]
    refine hplanned.full ?_ _ hin
    intro hnobody
    have horphan := horphans.mem_iff.mpr ((mem_playersInZone ord).mpr hsource)
    rw [hnobody, List.append_nil] at horphan
    obtain ⟨⟨_, zone'⟩, ha, rfl⟩ := List.mem_map.mp horphan
    rw [hrouter, (lookup_routedAfter _ _ _ hmoved).1 zone' ha] at hgone
    cases hgone

/-- A run of `recovery_left_alone` that loses a player. -/
theorem lost_in_recovery : ∃ past s,
    Run (Recovery.step "a") ⟨failingTable, .evicted⟩ past s ∧
    s.router.countInZone "b" ≤ max 1 (failingTable.countInZone "b") ∧
    1 ≤ s.router.countInZone "c" := by
  have run := run_of_ops (Recovery.step "a") ⟨failingTable, .evicted⟩
    (untilKick ++ [.lock, .commit, .commit]) rfl
  obtain ⟨-, -, hroom, hfull⟩ := recovery_left_alone tightZones run (by decide) (by simp) rfl
  exact ⟨_, _, run, hroom "b" ⟨1, 1⟩ (by decide) rfl,
    hfull ⟨1, rfl, rfl⟩ "c" ⟨1, 0⟩ (by decide) rfl⟩

end Baston.Gateway
