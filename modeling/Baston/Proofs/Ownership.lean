/-
Network ownership: who an entity belongs to after a scan, and what a scan says meanwhile.

A scan that nobody disturbs leaves every entity but the peds with the nearest player, says so of
those that changed hands and of no others, and has nothing to do when it comes round again
(`scan_settles`).  With everybody else at work in between, what it says was right of what it had
read (`told_of_seen`): an entity it hands over is there, only its owner changes, and no entity is
handed over twice.
-/
import Baston.Proofs.Snapshots
import Baston.Rage.Exact
import Baston.Zone.Ownership

namespace Baston.Zone

open Assoc Trace Baston.Rage

variable {F : Type}

/-! ### The nearest -/

theorem compareDistances_real (a b : ℝ) : compareDistances a b = .gt ↔ b < a := by
  have hlt : ∀ x y : ℝ, Scalar.lt x y = true ↔ x < y := fun _ _ => decide_eq_true_iff
  unfold compareDistances
  by_cases hab : a < b
  · rw [if_pos ((hlt a b).mpr hab)]
    exact ⟨fun h => Ordering.noConfusion h, fun h => absurd h (lt_asymm hab)⟩
  · rw [if_neg (mt (hlt a b).mp hab)]
    by_cases hba : b < a
    · rw [if_pos ((hlt b a).mpr hba)]
      exact ⟨fun _ => hba, fun _ => rfl⟩
    · rw [if_neg (mt (hlt b a).mp hba)]
      exact ⟨fun h => Ordering.noConfusion h, fun h => absurd h hba⟩

/-- `min_by` finds one of the nearest. -/
theorem nearest_of_minBy {α : Type} (d : α → ℝ) {l : List α} {best : α}
    (h : ServerGameState.minBy (fun a b => compareDistances (d a) (d b)) l = some best) :
    best ∈ l ∧ ∀ x ∈ l, d best ≤ d x := by
  cases l with
  | nil => cases h
  | cons a rest =>
      obtain rfl := Option.some.inj h
      clear h
      induction rest generalizing a with
      | nil =>
          refine ⟨List.mem_cons_self, ?_⟩
          intro x hx
          obtain rfl := List.mem_singleton.mp hx
          exact le_refl _
      | cons b rest ih =>
          rw [List.foldl_cons]
          by_cases hcloser : compareDistances (d a) (d b) = .gt
          · rw [if_pos hcloser]
            obtain ⟨hmem, hle⟩ := ih b
            refine ⟨List.mem_cons_of_mem _ hmem, ?_⟩
            intro x hx
            rcases List.mem_cons.mp hx with rfl | hx
            · have hlt := (compareDistances_real _ _).mp hcloser
              exact (hle b List.mem_cons_self).trans hlt.le
            · exact hle x hx
          · rw [if_neg hcloser]
            obtain ⟨hmem, hle⟩ := ih a
            refine ⟨?_, ?_⟩
            · rcases List.mem_cons.mp hmem with heq | hmem
              · rw [heq]
                exact List.mem_cons_self
              · exact List.mem_cons_of_mem _ (List.mem_cons_of_mem _ hmem)
            · intro x hx
              rcases List.mem_cons.mp hx with rfl | hx
              · exact hle x List.mem_cons_self
              · rcases List.mem_cons.mp hx with rfl | hx
                · have hge : ¬ d x < d a := fun hlt => hcloser ((compareDistances_real _ _).mpr hlt)
                  exact (hle a List.mem_cons_self).trans (not_lt.mp hge)
                · exact hle x (List.mem_cons_of_mem _ hx)

/-- Without players nobody is nearest, and with players somebody is. -/
theorem assignNetworkOwner_eq_none [Scalar F] {entity : EntityState F}
    {players : List (UInt32 × Vec3 F)} :
    assignNetworkOwner entity players = none ↔ players = [] := by
  unfold assignNetworkOwner
  cases players with
  | nil => exact ⟨fun _ => rfl, fun _ => rfl⟩
  | cons p rest => simp [ServerGameState.minBy]

/-! ### One entity -/

section Entity

variable [Scalar F] {players : List (UInt32 × Vec3 F)} {entity : EntityState F}
  {m : EntityManager F}

theorem reassign_eq : reassign players entity m
    = if assignNetworkOwner entity players = entity.networkOwner then (m, none)
      else ((m.setNetworkOwner entity.entityId (assignNetworkOwner entity players)).1,
        if (m.setNetworkOwner entity.entityId (assignNetworkOwner entity players)).2 then
          some (entity.entityId, assignNetworkOwner entity players)
        else none) := by
  unfold reassign
  by_cases hsame : assignNetworkOwner entity players = entity.networkOwner
  · simp only [hsame, ne_eq, not_true_eq_false, decide_false, Bool.or_false, if_true]
    split <;> rfl
  · simp only [hsame, ne_eq, not_false_eq_true, decide_true, Bool.or_true, if_true, if_false]

/-- An entity, handed to the nearest player. -/
def handed (players : List (UInt32 × Vec3 F)) (entity : EntityState F) : EntityState F :=
  { entity with networkOwner := assignNetworkOwner entity players }

theorem handed_of_eq (h : assignNetworkOwner entity players = entity.networkOwner) :
    handed players entity = entity := by
  rw [handed, h]

omit [Scalar F] in
theorem setNetworkOwner_stored (id : EntityId) (owner : Option UInt32) :
    (m.setNetworkOwner id owner).2 = (m.get id).isSome := by
  unfold EntityManager.setNetworkOwner EntityManager.get
  cases m.entities.lookup id with
  | none => rfl
  | some state =>
      simp only
      split <;> rfl

theorem get_reassign (k : EntityId) : (reassign players entity m).1.get k
    = if k = entity.entityId ∧ assignNetworkOwner entity players ≠ entity.networkOwner then
        (m.get k).map fun e => { e with networkOwner := assignNetworkOwner entity players }
      else m.get k := by
  rw [reassign_eq]
  by_cases hsame : assignNetworkOwner entity players = entity.networkOwner
  · rw [if_pos hsame, if_neg fun h => h.2 hsame]
  · rw [if_neg hsame, EntityManager.get_setNetworkOwner]
    by_cases hk : k = entity.entityId
    · rw [if_pos hk, if_pos ⟨hk, hsame⟩]
    · rw [if_neg hk, if_neg fun h => hk h.1]

/-- Only the owner of an entity changes, and only if it is there. -/
theorem told_reassign {id : EntityId} {owner : Option UInt32}
    (h : (reassign players entity m).2 = some (id, owner)) :
    id = entity.entityId ∧ owner = assignNetworkOwner entity players
      ∧ owner ≠ entity.networkOwner ∧ (m.get id).isSome := by
  rw [reassign_eq] at h
  by_cases hsame : assignNetworkOwner entity players = entity.networkOwner
  · rw [if_pos hsame] at h
    cases h
  · rw [if_neg hsame] at h
    simp only at h
    rw [setNetworkOwner_stored] at h
    split at h
    · rename_i hlive
      obtain ⟨rfl, rfl⟩ := Prod.mk.inj (Option.some.inj h)
      exact ⟨rfl, rfl, hsame, hlive⟩
    · cases h

end Entity

/-! ### All entities, with nobody else about -/

/-- What a scan of `entities` makes of `m`. -/
structure Scanned [Scalar F] (players : List (UInt32 × Vec3 F)) (entities : List (EntityState F))
    (m m' : EntityManager F) (told : List (EntityId × Option UInt32)) : Prop where
  told : told = (entities.filter fun e => assignNetworkOwner e players ≠ e.networkOwner).map
    fun e => (e.entityId, assignNetworkOwner e players)
  scanned : ∀ e ∈ entities, m'.get e.entityId = some (handed players e)
  others : ∀ k, k ∉ entities.map (·.entityId) → m'.get k = m.get k
  marked : ∀ e ∈ entities, assignNetworkOwner e players ≠ e.networkOwner →
    m'.dirtyQueue.lookup e.entityId
      = (EntityManager.markDirty e.entityId .extra (handed players e) m.dirtyQueue).lookup
        e.entityId
  unmarked : ∀ k, (∀ e ∈ entities, e.entityId = k →
    assignNetworkOwner e players = e.networkOwner) → m'.dirtyQueue.lookup k = m.dirtyQueue.lookup k

section All

/-- What a mark does to an entry depends on the entry alone. -/
theorem markDirty_congr {queue queue' : Map EntityId (DirtyEntity F)} {id : EntityId}
    {flags : DirtyFlags} {state : EntityState F} (h : queue.lookup id = queue'.lookup id) :
    (EntityManager.markDirty id flags state queue).lookup id
      = (EntityManager.markDirty id flags state queue').lookup id := by
  unfold EntityManager.markDirty
  rw [h]
  cases hq : queue'.lookup id with
  | none => simp only [AList.lookup_insert]
  | some pending =>
      simp only
      split
      · rw [h, hq]
      · rw [AList.lookup_insert, AList.lookup_insert]

variable [Scalar F]

/-- The first entity of a scan: the queue gets a mark if it changes hands. -/
theorem queue_reassign (players : List (UInt32 × Vec3 F)) {entity : EntityState F}
    {m : EntityManager F} (hlive : m.get entity.entityId = some entity) :
    (reassign players entity m).1.dirtyQueue
      = if assignNetworkOwner entity players = entity.networkOwner then m.dirtyQueue
        else EntityManager.markDirty entity.entityId .extra (handed players entity)
          m.dirtyQueue := by
  rw [reassign_eq]
  by_cases hsame : assignNetworkOwner entity players = entity.networkOwner
  · rw [if_pos hsame, if_pos hsame]
  · rw [if_neg hsame, if_neg hsame]
    have hlookup : m.entities.lookup entity.entityId = some entity := hlive
    simp only [EntityManager.setNetworkOwner, hlookup]
    rw [if_neg fun h => hsame h.symm]
    rfl

theorem reassignAll_scanned (players : List (UInt32 × Vec3 F)) :
    ∀ (entities : List (EntityState F)) (m : EntityManager F),
    (entities.map (·.entityId)).Nodup → (∀ e ∈ entities, m.get e.entityId = some e) →
    Scanned players entities m (reassignAll players entities m).1
      (reassignAll players entities m).2 := by
  intro entities
  induction entities with
  | nil =>
      intro m _ _
      exact ⟨rfl, fun e he => absurd he List.not_mem_nil, fun _ _ => rfl,
        fun e he => absurd he List.not_mem_nil, fun _ _ => rfl⟩
  | cons entity entities ih =>
      intro m hnodup hlive
      obtain ⟨hnew, hnodup⟩ := List.nodup_cons.mp hnodup
      have hentity := hlive entity List.mem_cons_self
      have hids : ∀ e ∈ entities, e.entityId ≠ entity.entityId := by
        intro e he heq
        have hmem : e.entityId ∈ entities.map (·.entityId) := List.mem_map_of_mem he
        rw [heq] at hmem
        exact hnew hmem
      have hget : ∀ k, (reassign players entity m).1.get k
          = if k = entity.entityId then some (handed players entity) else m.get k := by
        intro k
        rw [get_reassign]
        by_cases hk : k = entity.entityId
        · subst hk
          rw [if_pos rfl, hentity]
          by_cases hsame : assignNetworkOwner entity players = entity.networkOwner
          · rw [if_neg fun h => h.2 hsame, handed_of_eq hsame]
          · rw [if_pos ⟨rfl, hsame⟩]
            rfl
        · rw [if_neg hk, if_neg fun h => hk h.1]
      have hrest := ih (reassign players entity m).1 hnodup fun e he => by
        rw [hget, if_neg (hids e he)]
        exact hlive e (List.mem_cons_of_mem _ he)
      have hqueue := queue_reassign players hentity
      have hkept : ∀ k, k ≠ entity.entityId →
          (reassign players entity m).1.dirtyQueue.lookup k = m.dirtyQueue.lookup k := by
        intro k hk
        rw [hqueue]
        split
        · rfl
        · exact EntityManager.markDirty_lookup_ne hk
      have hhead : (reassignAll players entities (reassign players entity m).1).1.dirtyQueue.lookup
          entity.entityId = (reassign players entity m).1.dirtyQueue.lookup entity.entityId :=
        hrest.unmarked _ fun e he heq => absurd heq (hids e he)
      refine ⟨?_, ?_, ?_, ?_, ?_⟩
      · show (reassign players entity m).2.toList
            ++ (reassignAll players entities (reassign players entity m).1).2 = _
        rw [hrest.told, reassign_eq, setNetworkOwner_stored, hentity]
        by_cases hsame : assignNetworkOwner entity players = entity.networkOwner
        · rw [if_pos hsame, List.filter_cons_of_neg (by simpa using hsame)]
          rfl
        · rw [if_neg hsame, List.filter_cons_of_pos (by simpa using hsame)]
          rfl
      · intro e he
        rcases List.mem_cons.mp he with rfl | he
        · show (reassignAll players entities (reassign players e m).1).1.get e.entityId = _
          rw [hrest.others _ hnew, hget, if_pos rfl]
        · exact hrest.scanned e he
      · intro k hk
        rw [List.map_cons, List.mem_cons, not_or] at hk
        show (reassignAll players entities (reassign players entity m).1).1.get k = _
        rw [hrest.others k hk.2, hget, if_neg hk.1]
      · intro e he hchanges
        rcases List.mem_cons.mp he with rfl | he
        · refine hhead.trans ?_
          rw [hqueue, if_neg hchanges]
        · refine (hrest.marked e he hchanges).trans (markDirty_congr ?_)
          exact hkept _ (hids e he)
      · intro k hk
        have hlater := hrest.unmarked k fun e he => hk e (List.mem_cons_of_mem _ he)
        refine hlater.trans ?_
        by_cases hmine : k = entity.entityId
        · rw [hqueue, if_pos (hk entity List.mem_cons_self hmine.symm)]
        · exact hkept k hmine

/-- A scan of entities that are where they belong does nothing. -/
theorem reassignAll_idle (players : List (UInt32 × Vec3 F)) (m : EntityManager F) :
    ∀ (entities : List (EntityState F)),
    (∀ e ∈ entities, assignNetworkOwner e players = e.networkOwner) →
    reassignAll players entities m = (m, []) := by
  intro entities
  induction entities with
  | nil =>
      intro _
      rfl
  | cons entity entities ih =>
      intro h
      rw [reassignAll, reassign_eq, if_pos (h entity List.mem_cons_self)]
      simp only
      rw [ih fun e he => h e (List.mem_cons_of_mem _ he)]
      rfl

end All

/-! ### What a scan looks at -/

section Reads

variable {m : EntityManager F} {ord : IterOrder EntityId}

theorem mem_reassignable (hkeyed : m.Keyed) {e : EntityState F} : e ∈ m.reassignable ord ↔
    m.get e.entityId = some e ∧ e.entityType ≠ .player := by
  unfold EntityManager.reassignable EntityManager.snapshotFiltered
  rw [List.mem_filter, List.mem_map, decide_eq_true_iff]
  refine and_congr_left fun _ => ⟨?_, ?_⟩
  · rintro ⟨⟨k, e'⟩, hvisit, rfl⟩
    have hk := Map.mem_visit.mp hvisit
    rw [hkeyed k _ hk]
    exact hk
  · intro h
    exact ⟨(e.entityId, e), Map.mem_visit.mpr h, rfl⟩

theorem nodup_reassignable (ord : IterOrder EntityId) (hkeyed : m.Keyed) :
    ((m.reassignable ord).map (·.entityId)).Nodup := by
  have hids : ((m.entities.visit ord).map Prod.snd).map (·.entityId)
      = (m.entities.visit ord).map Prod.fst := by
    rw [List.map_map]
    refine List.map_congr_left ?_
    intro kv hkv
    exact hkeyed kv.1 kv.2 (Map.mem_visit.mp hkv)
  refine List.Nodup.sublist (List.Sublist.map _ List.filter_sublist) ?_
  rw [hids]
  exact Map.nodup_visit ord m.entities

end Reads

/-! ### A whole scan -/

/-- What a scan that nobody disturbs leaves of `s`. -/
structure Settled [Scalar F] (ord : IterOrder UInt32) (s s' : StateIngest F)
    (told : List (EntityId × Option UInt32)) : Prop where
  /-- Everything but the peds belongs to whom it is nearest to, and nothing else has changed. -/
  entities : ∀ id, s'.entityManager.get id = (s.entityManager.get id).map fun e =>
    if e.entityType = .player then e else handed (s.playerPositions ord) e
  /-- Whoever hears of ownership is told what changed hands, once each. -/
  toldOnce : (told.map Prod.fst).Nodup
  handedOver : ∀ id owner, (id, owner) ∈ told ↔ ∃ e, s.entityManager.get id = some e
    ∧ e.entityType ≠ .player ∧ assignNetworkOwner e (s.playerPositions ord) = owner
    ∧ owner ≠ e.networkOwner
  /-- It is published with the next batch, and nothing else is. -/
  marked : ∀ id owner, (id, owner) ∈ told → ∀ e, s'.entityManager.get id = some e →
    s'.entityManager.dirtyQueue.lookup id
      = (EntityManager.markDirty id .extra e s.entityManager.dirtyQueue).lookup id
  unmarked : ∀ id, (∀ owner, (id, owner) ∉ told) →
    s'.entityManager.dirtyQueue.lookup id = s.entityManager.dirtyQueue.lookup id
  rest : { s' with entityManager := s.entityManager } = s

section Scan

variable [Scalar F] {ord : IterOrder UInt32} {s : StateIngest F}

theorem settled_scan (hkeyed : s.entityManager.Keyed) (ord : IterOrder UInt32)
    (ord' : IterOrder EntityId) : Settled ord s (s.scan ord ord').1 (s.scan ord ord').2 := by
  have hall := reassignAll_scanned (s.playerPositions ord)
    (s.entityManager.reassignable ord') s.entityManager (nodup_reassignable ord' hkeyed)
    fun e he => ((mem_reassignable hkeyed).mp he).1
  have hids : ∀ id owner, (id, owner) ∈ (s.scan ord ord').2 ↔ ∃ e, s.entityManager.get id = some e
      ∧ e.entityType ≠ .player ∧ assignNetworkOwner e (s.playerPositions ord) = owner
      ∧ owner ≠ e.networkOwner := by
    intro id owner
    have htold : (s.scan ord ord').2 = _ := hall.told
    rw [htold, List.mem_map]
    constructor
    · rintro ⟨e, he, heq⟩
      obtain ⟨rfl, rfl⟩ := Prod.mk.inj heq
      obtain ⟨hmem, hchanges⟩ := List.mem_filter.mp he
      obtain ⟨hlive, htype⟩ := (mem_reassignable hkeyed).mp hmem
      exact ⟨e, hlive, htype, rfl, of_decide_eq_true hchanges⟩
    · rintro ⟨e, hlive, htype, rfl, hchanges⟩
      have hid := hkeyed id e hlive
      subst hid
      refine ⟨e, List.mem_filter.mpr ⟨(mem_reassignable hkeyed).mpr ⟨hlive, htype⟩, ?_⟩, rfl⟩
      exact decide_eq_true hchanges
  have hget : ∀ id, (s.scan ord ord').1.entityManager.get id
      = (s.entityManager.get id).map fun e =>
        if e.entityType = .player then e else handed (s.playerPositions ord) e := by
    intro id
    cases hlive : s.entityManager.get id with
    | none =>
        refine (hall.others id ?_).trans hlive
        intro hmem
        obtain ⟨e, he, rfl⟩ := List.mem_map.mp hmem
        rw [((mem_reassignable hkeyed).mp he).1] at hlive
        cases hlive
    | some e =>
        have hid := hkeyed id e hlive
        subst hid
        by_cases hped : e.entityType = .player
        · rw [Option.map_some, if_pos hped]
          refine (hall.others _ ?_).trans hlive
          intro hmem
          obtain ⟨e', he', heq⟩ := List.mem_map.mp hmem
          obtain ⟨hlive', htype⟩ := (mem_reassignable hkeyed).mp he'
          rw [heq, hlive] at hlive'
          obtain rfl := Option.some.inj hlive'
          exact htype hped
        · rw [Option.map_some, if_neg hped]
          exact hall.scanned e ((mem_reassignable hkeyed).mpr ⟨hlive, hped⟩)
  refine ⟨hget, ?_, hids, ?_, ?_, rfl⟩
  · have htold : (s.scan ord ord').2 = _ := hall.told
    rw [htold, List.map_map]
    exact (nodup_reassignable ord' hkeyed).sublist (List.filter_sublist.map _)
  · intro id owner htold e he
    obtain ⟨e', hlive, htype, rfl, hchanges⟩ := (hids id owner).mp htold
    have hid := hkeyed id e' hlive
    subst hid
    rw [hget, hlive, Option.map_some, if_neg htype] at he
    obtain rfl := Option.some.inj he
    exact hall.marked e' ((mem_reassignable hkeyed).mpr ⟨hlive, htype⟩) hchanges
  · intro id hnot
    refine hall.unmarked id ?_
    rintro e he rfl
    by_contra hchanges
    obtain ⟨hlive, htype⟩ := (mem_reassignable hkeyed).mp he
    exact hnot _ ((hids _ _).mpr ⟨e, hlive, htype, rfl, hchanges⟩)

/-- A scan does not move anybody. -/
theorem playerPositions_scan {s' : StateIngest F} {told : List (EntityId × Option UInt32)}
    (h : Settled ord s s' told) : s'.playerPositions ord = s.playerPositions ord := by
  have hpeds : s'.playerEntities = s.playerEntities := by
    rw [← h.rest]
  unfold StateIngest.playerPositions
  rw [hpeds]
  refine List.filterMap_congr ?_
  rintro ⟨source, id⟩ _
  simp only
  rw [h.entities, Option.map_map]
  refine congrArg (fun f => (s.entityManager.get id).map f) (funext fun e => ?_)
  simp only [Function.comp_apply]
  split <;> rfl

/-- A scan of what a scan has left has nothing to do. -/
theorem scan_idle (hkeyed : s.entityManager.Keyed) {s' : StateIngest F}
    {told : List (EntityId × Option UInt32)} (h : Settled ord s s' told)
    (ord' : IterOrder EntityId) : s'.scan ord ord' = (s', []) := by
  have hkeyed' : s'.entityManager.Keyed := by
    intro id e he
    rw [h.entities] at he
    obtain ⟨e', he', rfl⟩ := Option.map_eq_some_iff.mp he
    have hid := hkeyed id e' he'
    split
    · exact hid
    · exact hid
  have hidle := reassignAll_idle (s'.playerPositions ord) s'.entityManager
    (s'.entityManager.reassignable ord') (by
      intro e he
      obtain ⟨hlive, htype⟩ := (mem_reassignable hkeyed').mp he
      rw [h.entities] at hlive
      obtain ⟨e', he', rfl⟩ := Option.map_eq_some_iff.mp hlive
      rw [playerPositions_scan h]
      split
      · rename_i hped
        rw [if_pos hped] at htype
        exact absurd hped htype
      · rfl)
  rw [StateIngest.scan, hidle]

end Scan

/-! ### A scan and everybody else -/

abbrev OwnershipEntry (F : Type) :=
  Entry (OwnershipMonitor F) (OwnershipOp F) (Option (EntityId × Option UInt32))

/-- A scan looks at the world. -/
def OwnershipOp.reads : OwnershipOp F → Bool
  | .playerPositions _ => true
  | .snapshot _ => true
  | _ => false

section Runs

variable [Scalar F] [BEq F] {maxSpeed : F} {past : List (OwnershipEntry F)}
  {s : OwnershipMonitor F}

theorem reassign_keyed {players : List (UInt32 × Vec3 F)} {entity : EntityState F}
    {m : EntityManager F} (h : m.Keyed) : (reassign players entity m).1.Keyed := by
  rw [reassign_eq]
  split
  · exact h
  · exact EntityManager.perform_keyed h (.setNetworkOwner _ _)

/-- Nothing a zone does files an entity under the id of another. -/
theorem OwnershipMonitor.step_keyed {op : OwnershipOp F} {s' : OwnershipMonitor F}
    {told : Option (EntityId × Option UInt32)} (h : s.ingest.entityManager.Keyed)
    (hstep : OwnershipMonitor.step op s = some (s', told)) : s'.ingest.entityManager.Keyed := by
  cases op with
  | playerPositions ord =>
      simp only [OwnershipMonitor.step] at hstep
      split at hstep
      · obtain ⟨rfl, -⟩ := Prod.mk.inj (Option.some.inj hstep)
        exact h
      · cases hstep
  | snapshot ord =>
      simp only [OwnershipMonitor.step] at hstep
      split at hstep
      · obtain ⟨rfl, -⟩ := Prod.mk.inj (Option.some.inj hstep)
        exact h
      · cases hstep
  | reassign =>
      simp only [OwnershipMonitor.step] at hstep
      split at hstep
      · obtain ⟨rfl, -⟩ := Prod.mk.inj (Option.some.inj hstep)
        exact h
      · obtain ⟨rfl, -⟩ := Prod.mk.inj (Option.some.inj hstep)
        exact reassign_keyed h
      · cases hstep
  | client call =>
      obtain ⟨⟨ingest, answer⟩, hcall, heq⟩ := Option.map_eq_some_iff.mp hstep
      obtain ⟨rfl, -⟩ := Prod.mk.inj heq
      exact StateIngest.step_keyed h hcall
  | manage call =>
      obtain ⟨rfl, -⟩ := Prod.mk.inj (Option.some.inj hstep)
      exact EntityManager.perform_keyed h call

theorem keyed_of_ownership (run : Run OwnershipMonitor.step ⟨.new {} maxSpeed, .idle⟩ past s) :
    s.ingest.entityManager.Keyed := by
  refine run.safe (I := fun s => s.ingest.entityManager.Keyed) ?_ OwnershipMonitor.step_keyed
  intro k state h
  cases h

/-- The scan under way read where the players were at `y`, and copied the entities at `z`. -/
structure Looked (past since : List (OwnershipEntry F)) (y z : OwnershipEntry F)
    (ord : IterOrder UInt32) (ord' : IterOrder EntityId) : Prop where
  positions : y.op = .playerPositions ord
  copied : z.op = .snapshot ord'
  cut : ∃ between before, past = since ++ z :: (between ++ y :: before)
    ∧ ∀ w ∈ between, w.op.reads = false
  quiet : ∀ w ∈ since, w.op.reads = false

/-- The scan has come as far as `left`: what it has said was of entities before that. -/
structure Midway (past : List (OwnershipEntry F)) (players : List (UInt32 × Vec3 F))
    (left : List (EntityState F)) (y z : OwnershipEntry F) (since : List (OwnershipEntry F))
    (ord : IterOrder UInt32) (ord' : IterOrder EntityId) (done : List (EntityState F)) : Prop where
  looked : Looked past since y z ord ord'
  players_eq : players = y.pre.ingest.playerPositions ord
  keyed : z.pre.ingest.entityManager.Keyed
  copies : z.pre.ingest.entityManager.reassignable ord' = done ++ left
  told : ∀ w ∈ since, ∀ id owner, w.answer = some (id, owner) → id ∈ done.map (·.entityId)

/-- How far the scan is, by the history. -/
def Underway (past : List (OwnershipEntry F)) (s : OwnershipMonitor F) : Prop :=
  match s.phase with
  | .idle => True
  | .positionsRead players => ∃ y between before ord, past = between ++ y :: before
      ∧ y.op = .playerPositions ord ∧ players = y.pre.ingest.playerPositions ord
      ∧ ∀ w ∈ between, w.op.reads = false
  | .handingOver players left => ∃ y z since ord ord' done,
      Midway past players left y z since ord ord' done

omit [Scalar F] [BEq F] in
/-- Everybody else leaves the scan where it is. -/
theorem Underway.aside (h : Underway past s) {e : OwnershipEntry F} (hreads : e.op.reads = false)
    (htold : e.answer = none) (hphase : e.post.phase = s.phase) : Underway (e :: past) e.post := by
  unfold Underway at h ⊢
  rw [hphase]
  cases hat : s.phase with
  | idle => trivial
  | positionsRead players =>
      rw [hat] at h
      obtain ⟨y, between, before, ord, rfl, hop, hplayers, hquiet⟩ := h
      refine ⟨y, e :: between, before, ord, rfl, hop, hplayers, ?_⟩
      intro w hw
      rcases List.mem_cons.mp hw with rfl | hw
      · exact hreads
      · exact hquiet w hw
  | handingOver players left =>
      rw [hat] at h
      obtain ⟨y, z, since, ord, ord', done, ⟨⟨hop, hop', ⟨between, before, rfl, hbetween⟩, hquiet⟩,
        hplayers, hkeyed, hcopies, hsaid⟩⟩ := h
      refine ⟨y, z, e :: since, ord, ord', done, ⟨⟨hop, hop', ⟨between, before, rfl, hbetween⟩, ?_⟩,
        hplayers, hkeyed, hcopies, ?_⟩⟩
      · intro w hw
        rcases List.mem_cons.mp hw with rfl | hw
        · exact hreads
        · exact hquiet w hw
      · intro w hw id owner hanswer
        rcases List.mem_cons.mp hw with rfl | hw
        · rw [htold] at hanswer
          cases hanswer
        · exact hsaid w hw id owner hanswer

theorem underway_of_run (run : Run OwnershipMonitor.step ⟨.new {} maxSpeed, .idle⟩ past s) :
    Underway past s := by
  induction run with
  | nil => trivial
  | @snoc past s s' op told run hstep ih =>
      cases op with
      | playerPositions ord =>
          simp only [OwnershipMonitor.step] at hstep
          split at hstep
          · obtain ⟨rfl, rfl⟩ := Prod.mk.inj (Option.some.inj hstep)
            exact ⟨_, [], past, ord, rfl, rfl, rfl, fun w hw => absurd hw List.not_mem_nil⟩
          · cases hstep
      | snapshot ord =>
          simp only [OwnershipMonitor.step] at hstep
          split at hstep
          · rename_i players hphase
            obtain ⟨rfl, rfl⟩ := Prod.mk.inj (Option.some.inj hstep)
            unfold Underway at ih
            rw [hphase] at ih
            obtain ⟨y, between, before, ord', rfl, hop, hplayers, hquiet⟩ := ih
            exact ⟨y, _, [], ord', ord, [], ⟨⟨hop, rfl, ⟨between, before, rfl, hquiet⟩,
              fun w hw => absurd hw List.not_mem_nil⟩, hplayers, keyed_of_ownership run, rfl,
              fun w hw => absurd hw List.not_mem_nil⟩⟩
          · cases hstep
      | reassign =>
          simp only [OwnershipMonitor.step] at hstep
          split at hstep
          · obtain ⟨rfl, rfl⟩ := Prod.mk.inj (Option.some.inj hstep)
            trivial
          · rename_i players entity left hphase
            obtain ⟨rfl, rfl⟩ := Prod.mk.inj (Option.some.inj hstep)
            unfold Underway at ih
            rw [hphase] at ih
            obtain ⟨y, z, since, ord, ord', done, ⟨⟨hop, hop', ⟨between, before, rfl, hbetween⟩,
              hquiet⟩, hplayers, hkeyed, hcopies, hsaid⟩⟩ := ih
            refine ⟨y, z, _ :: since, ord, ord', done ++ [entity],
              ⟨⟨hop, hop', ⟨between, before, rfl, hbetween⟩, ?_⟩, hplayers, hkeyed, ?_, ?_⟩⟩
            · intro w hw
              rcases List.mem_cons.mp hw with rfl | hw
              · rfl
              · exact hquiet w hw
            · rw [hcopies, List.append_assoc]
              rfl
            · intro w hw id owner hanswer
              rw [List.map_append, List.mem_append]
              rcases List.mem_cons.mp hw with rfl | hw
              · exact .inr (List.mem_singleton.mpr (told_reassign hanswer).1)
              · exact .inl (hsaid w hw id owner hanswer)
          · cases hstep
      | client call =>
          obtain ⟨⟨ingest, answer⟩, -, heq⟩ := Option.map_eq_some_iff.mp hstep
          obtain ⟨rfl, rfl⟩ := Prod.mk.inj heq
          exact ih.aside rfl rfl rfl
      | manage call =>
          obtain ⟨rfl, rfl⟩ := Prod.mk.inj (Option.some.inj hstep)
          exact ih.aside rfl rfl rfl

/-- `x` hands an entity over, in a scan that looked at `y` and at `z`. -/
structure HandsOver (past : List (OwnershipEntry F)) (x : OwnershipEntry F) (id : EntityId)
    (owner : Option UInt32) (y z : OwnershipEntry F) (since : List (OwnershipEntry F))
    (ord : IterOrder UInt32) (ord' : IterOrder EntityId) : Prop where
  looked : Looked past since y z ord ord'
  /-- It was no ped, and it goes to whom it was nearest to. -/
  nearest : ∃ e, z.pre.ingest.entityManager.get id = some e ∧ e.entityType ≠ .player
    ∧ owner = assignNetworkOwner e (y.pre.ingest.playerPositions ord) ∧ owner ≠ e.networkOwner
  /-- It is there, and nothing but its owner changes. -/
  only : ∃ e, x.pre.ingest.entityManager.get id = some e ∧ ∀ k,
    x.post.ingest.entityManager.get k = if k = id then some { e with networkOwner := owner }
      else x.pre.ingest.entityManager.get k
  /-- In that scan it has not been handed over before. -/
  once : ∀ w ∈ since, ∀ owner', w.answer ≠ some (id, owner')

/-- **What a scan says is right of what it had read**, whatever others do in between. -/
theorem told_of_seen {x : OwnershipEntry F} {id : EntityId} {owner : Option UInt32}
    (run : Run OwnershipMonitor.step ⟨.new {} maxSpeed, .idle⟩ (x :: past) s)
    (htold : x.answer = some (id, owner)) :
    ∃ y z since ord ord', HandsOver past x id owner y z since ord ord' := by
  cases run with
  | @snoc _ s s' op told run hstep =>
      replace htold : told = some (id, owner) := htold
      subst htold
      have hunder := underway_of_run run
      cases op with
      | playerPositions ord =>
          simp only [OwnershipMonitor.step] at hstep
          split at hstep <;> cases hstep
      | snapshot ord =>
          simp only [OwnershipMonitor.step] at hstep
          split at hstep <;> cases hstep
      | reassign =>
          simp only [OwnershipMonitor.step] at hstep
          split at hstep
          · cases hstep
          · rename_i players entity left hphase
            obtain ⟨rfl, htold⟩ := Prod.mk.inj (Option.some.inj hstep)
            obtain ⟨rfl, rfl, hchanges, hlive⟩ := told_reassign htold
            unfold Underway at hunder
            rw [hphase] at hunder
            obtain ⟨y, z, since, ord, ord', done, hmid⟩ := hunder
            have hmem : entity ∈ z.pre.ingest.entityManager.reassignable ord' := by
              rw [hmid.copies]
              exact List.mem_append_right _ List.mem_cons_self
            obtain ⟨hcopy, htype⟩ := (mem_reassignable hmid.keyed).mp hmem
            have hnodup := nodup_reassignable ord' hmid.keyed
            rw [hmid.copies, List.map_append, List.map_cons] at hnodup
            have hplayers := hmid.players_eq
            subst hplayers
            obtain ⟨e, he⟩ := Option.isSome_iff_exists.mp hlive
            refine ⟨y, z, since, ord, ord', hmid.looked, ⟨entity, hcopy, htype, rfl, hchanges⟩,
              ⟨e, he, ?_⟩, ?_⟩
            · intro k
              refine (get_reassign k).trans ?_
              by_cases hk : k = entity.entityId
              · subst hk
                rw [if_pos ⟨rfl, hchanges⟩, if_pos rfl, he]
                rfl
              · rw [if_neg fun h => hk h.1, if_neg hk]
            · intro w hw owner' hanswer
              have hdone := hmid.told w hw _ _ hanswer
              exact (List.disjoint_of_nodup_append hnodup) hdone List.mem_cons_self
          · cases hstep
      | client call =>
          obtain ⟨⟨ingest, answer⟩, -, heq⟩ := Option.map_eq_some_iff.mp hstep
          cases heq
      | manage call => cases hstep

/-- The steps of a scan while nobody else does anything. -/
def undisturbed (ord : IterOrder UInt32) (ord' : IterOrder EntityId) (s : StateIngest F) :
    List (OwnershipOp F) :=
  .playerPositions ord :: .snapshot ord'
    :: List.replicate ((s.entityManager.reassignable ord').length + 1) .reassign

theorem exec_reassign (players : List (UInt32 × Vec3 F)) : ∀ (left : List (EntityState F))
    (ingest : StateIngest F), exec OwnershipMonitor.step
      (List.replicate (left.length + 1) .reassign) ⟨ingest, .handingOver players left⟩
    = some ⟨{ ingest with entityManager := (reassignAll players left ingest.entityManager).1 },
      .idle⟩ := by
  intro left
  induction left with
  | nil => exact fun _ => rfl
  | cons entity left ih =>
      intro ingest
      rw [List.length_cons, List.replicate_succ]
      exact ih { ingest with entityManager := (reassign players entity ingest.entityManager).1 }

/-- Step by step a scan that nobody disturbs is `scan`. -/
theorem exec_undisturbed (ord : IterOrder UInt32) (ord' : IterOrder EntityId)
    (s : StateIngest F) : exec OwnershipMonitor.step (undisturbed ord ord' s) ⟨s, .idle⟩
      = some ⟨(s.scan ord ord').1, .idle⟩ :=
  exec_reassign (s.playerPositions ord) (s.entityManager.reassignable ord') s

end Runs

/-- Everything but the peds belongs to one of the players nearest to it, and to nobody only if
there are none. -/
structure WithNearest (ord : IterOrder UInt32) (s : StateIngest ℝ) : Prop where
  nearest : ∀ id e owner, s.entityManager.get id = some e → e.entityType ≠ .player →
    e.networkOwner = some owner → ∃ at_, (owner, at_) ∈ s.playerPositions ord ∧
      ∀ p ∈ s.playerPositions ord, distance3d at_ e.coords ≤ distance3d p.2 e.coords
  nobody : ∀ id e, s.entityManager.get id = some e → e.entityType ≠ .player →
    (e.networkOwner = none ↔ s.playerPositions ord = [])

theorem withNearest_of_settled {ord : IterOrder UInt32} {s s' : StateIngest ℝ}
    {told : List (EntityId × Option UInt32)} (h : Settled ord s s' told) : WithNearest ord s' := by
  have howned : ∀ id e, s'.entityManager.get id = some e → e.entityType ≠ .player →
      e.networkOwner = assignNetworkOwner e (s'.playerPositions ord) := by
    intro id e he htype
    rw [h.entities] at he
    obtain ⟨e', -, rfl⟩ := Option.map_eq_some_iff.mp he
    rw [playerPositions_scan h]
    split
    · rename_i hped
      rw [if_pos hped] at htype
      exact absurd hped htype
    · rfl
  constructor
  · intro id e owner he htype howner
    rw [howned id e he htype, assignNetworkOwner] at howner
    obtain ⟨⟨owner', at_⟩, hbest, rfl⟩ := Option.map_eq_some_iff.mp howner
    obtain ⟨hmem, hle⟩ :=
      nearest_of_minBy (fun p : UInt32 × Vec3 ℝ => distance3d p.2 e.coords) hbest
    exact ⟨at_, hmem, hle⟩
  · intro id e he htype
    rw [howned id e he htype]
    exact assignNetworkOwner_eq_none

/-- **A scan that nobody disturbs settles who owns what**, and the next one has nothing to do. -/
theorem scan_settles {maxSpeed : ℝ} {past : List (OwnershipEntry ℝ)} {s : StateIngest ℝ}
    (run : Run OwnershipMonitor.step ⟨.new {} maxSpeed, .idle⟩ past ⟨s, .idle⟩)
    (ord : IterOrder UInt32) (ord' : IterOrder EntityId) : ∃ s' told,
      s.scan ord ord' = (s', told)
      ∧ exec OwnershipMonitor.step (undisturbed ord ord' s) ⟨s, .idle⟩ = some ⟨s', .idle⟩
      ∧ Settled ord s s' told ∧ WithNearest ord s' ∧ ∀ ord'', s'.scan ord ord'' = (s', []) := by
  have hkeyed := keyed_of_ownership run
  have hsettled := settled_scan hkeyed ord ord'
  exact ⟨_, _, rfl, exec_undisturbed ord ord' s, hsettled, withNearest_of_settled hsettled,
    scan_idle hkeyed hsettled⟩

/-- Two players, ten metres apart, and the car of a third who has left. -/
def parking [Scalar F] : List (OwnershipOp F) :=
  [.client (.apply 0 1 1 (report 0.0)), .client (.apply 0 2 2 (report 10.0)),
    .manage (.spawnEntity
      { entityId := 7, entityType := .vehicle, networkOwner := some 3, modelHash := 5
        coords := ⟨9.0, 0.0, 0.0⟩, heading := 0.0, velocity := .zero, health := 1000.0
        armour := 0.0, extra := .vehicle 0.0 1000.0 0 })]
where
  report (x : F) : ClientStateUpdate F :=
    { entityId := none, entityType := .player, modelHash := 1, coords := ⟨x, 0.0, 0.0⟩
      heading := 0.0, velocity := .zero, health := 100.0, armour := 0.0, extra := none }

theorem parking_settles : ∃ past s, Run OwnershipMonitor.step ⟨.new {} (200 : ℝ), .idle⟩ past
    ⟨s, .idle⟩ ∧ s.playerEntity 2 = some 2 ∧ ∃ s' told,
      s.scan (.stored _) (.stored _) = (s', told)
      ∧ exec OwnershipMonitor.step (undisturbed (.stored _) (.stored _) s) ⟨s, .idle⟩
        = some ⟨s', .idle⟩
      ∧ Settled (.stored _) s s' told ∧ WithNearest (.stored _) s'
      ∧ ∀ ord'', s'.scan (.stored _) ord'' = (s', []) := by
  have run := run_of_ops OwnershipMonitor.step ⟨.new {} (200 : ℝ), .idle⟩ parking rfl
  exact ⟨_, _, run, rfl, scan_settles run (.stored _) (.stored _)⟩

/-- The car goes to the player one metre away, who is there when the first has left. -/
theorem parked_handed_over : ∃ x past s,
    Run OwnershipMonitor.step ⟨.new {} (200.0 : Float32), .idle⟩ (x :: past) s
      ∧ ∃ y z since ord ord', HandsOver past x 7 (some 2) y z since ord ord' := by
  have run := run_of_ops OwnershipMonitor.step ⟨.new {} (200.0 : Float32), .idle⟩
    (parking ++ [.playerPositions (.stored _), .snapshot (.stored _), .client (.onPlayerDropped 1),
      .reassign]) rfl
  exact ⟨_, _, _, run, told_of_seen run (by decide +kernel)⟩

end Baston.Zone
