/-
What one push sends a client about one entity.

The candidates have distinct ids and the tracker is visited once, so the operations about an
entity depend on that entity alone: a full state when the client does not know it, a delta
when it is due and something differs, a removal when it is not visible any more, and nothing
otherwise.
-/
import Baston.Gateway.StateAggregator

namespace Baston.Gateway

open Assoc Baston.Rage Baston.Zone

variable {F : Type}

/-! ### Operations about an entity -/

/-- The entity an operation is about. -/
def EntityOp.id : EntityOp F → EntityId
  | .upsert entity => entity.entityId
  | .delta d => d.entityId
  | .delete k => k

/-- The operations about one entity. -/
def opsAbout (k : EntityId) (ops : List (EntityOp F)) : List (EntityOp F) :=
  ops.filter fun op => op.id = k

@[simp] theorem opsAbout_append (k : EntityId) (a b : List (EntityOp F)) :
    opsAbout k (a ++ b) = opsAbout k a ++ opsAbout k b := by
  simp [opsAbout]

@[simp] theorem opsAbout_nil (k : EntityId) : opsAbout k ([] : List (EntityOp F)) = [] := rfl

theorem opsAbout_singleton (k : EntityId) (op : EntityOp F) :
    opsAbout k [op] = if op.id = k then [op] else [] := by
  simp [opsAbout, List.filter_cons]

/-- A client overwrites the fields a delta carries. -/
def EntityDelta.apply (d : EntityDelta F) (s : EntityState F) : EntityState F :=
  { s with
    coords := d.coords.getD s.coords
    heading := d.heading.getD s.heading
    velocity := d.velocity.getD s.velocity
    health := d.health.getD s.health
    armour := d.armour.getD s.armour
    extra := d.extra.getD s.extra
    networkOwner := d.networkOwner.getD s.networkOwner }

/-- A client takes an operation. -/
def applyOp (client : WorldState F) : EntityOp F → WorldState F
  | .upsert entity => client.insert entity.entityId entity.state
  | .delta delta => client.modify delta.entityId delta.apply
  | .delete id => client.erase id

/-- What an operation about an entity makes of the client's copy. -/
def EntityOp.act (v : Option (EntityState F)) : EntityOp F → Option (EntityState F)
  | .upsert entity => some entity.state
  | .delta d => v.map d.apply
  | .delete _ => none

theorem lookup_applyOps (k : EntityId) : ∀ (ops : List (EntityOp F)) (client : WorldState F),
    (ops.foldl applyOp client).lookup k = (opsAbout k ops).foldl EntityOp.act (client.lookup k) := by
  intro ops
  induction ops with
  | nil =>
      intro client
      rfl
  | cons op rest ih =>
      intro client
      have hop : (applyOp client op).lookup k
          = if op.id = k then op.act (client.lookup k) else client.lookup k := by
        cases op with
        | upsert entity =>
            simp only [applyOp, Map.lookup_insert_of, EntityOp.id, EntityOp.act, eq_comm]
        | delta delta =>
            simp only [applyOp, Map.lookup_modify, EntityOp.id, EntityOp.act, eq_comm]
        | delete id =>
            simp only [applyOp, Map.lookup_erase_of, EntityOp.id, EntityOp.act, eq_comm]
      rw [List.foldl_cons, ih, hop]
      unfold opsAbout
      by_cases hid : op.id = k
      · rw [if_pos hid, List.filter_cons_of_pos (by simpa using hid), List.foldl_cons]
      · rw [if_neg hid, List.filter_cons_of_neg (by simpa using hid)]

theorem buildDelta_entityId [BEq F] {baseline state : EntityState F} {d : EntityDelta F}
    (h : buildDelta baseline state = some d) : d.entityId = state.entityId := by
  unfold buildDelta at h
  simp only [] at h
  split at h
  · cases h
  · rw [← Option.some.inj h]

/-! ### One turn of the loop -/

/-- What the client was last sent, after that operation. -/
def remember (now : Nat) (known : Option (Nat × EntityState F)) (state : EntityState F) :
    Option (EntityOp F) → Option (Nat × EntityState F)
  | none => known
  | some _ => some (now, state)

/-- What a turn does as seen from entity `k`. -/
structure TurnAt (now : Nat) (k : EntityId) (acc acc' : ClientOps F)
    (op : Option (EntityOp F)) (state : EntityState F) : Prop where
  lastSent : acc'.lastSent.lookup k = remember now (acc.lastSent.lookup k) state op
  ops : opsAbout k acc'.ops = opsAbout k acc.ops ++ op.toList
  visible : k ∈ acc'.visible

/-- A turn leaves another entity alone, and so does an entity that is not seen. -/
structure Untouched (k : EntityId) (acc acc' : ClientOps F) : Prop where
  lastSent : acc'.lastSent.lookup k = acc.lastSent.lookup k
  ops : opsAbout k acc'.ops = opsAbout k acc.ops
  visible : k ∈ acc'.visible ↔ k ∈ acc.visible

theorem Untouched.trans {k : EntityId} {a b c : ClientOps F} (h : Untouched k a b)
    (h' : Untouched k b c) : Untouched k a c :=
  ⟨h'.lastSent.trans h.lastSent, h'.ops.trans h.ops, h'.visible.trans h.visible⟩

section Loop

variable [Scalar F] [BEq F] {now : Nat} {viewerSource : UInt32} {center : Vec3 F} {radius : F}

/-- The entity is within the radius and not the viewer's own. -/
def sees (viewerSource : UInt32) (center : Vec3 F) (radius : F) (state : EntityState F) : Bool :=
  state.networkOwner != some viewerSource && !Scalar.lt radius (distance3d center state.coords)

/-- The client may be told about the entity again. -/
def due (now : Nat) (center : Vec3 F) (lastAt : Nat) (state : EntityState F) : Bool :=
  updateRateForDistance (distance3d center state.coords) ≤ now - lastAt

/-- The operation about a visible entity, given what the client was last sent. -/
def react (now : Nat) (center : Vec3 F) (known : Option (Nat × EntityState F))
    (state : EntityState F) : Option (EntityOp F) :=
  match known with
  | none => some (.upsert ⟨state.entityId, DirtyFlags.all.difference .deleted, state⟩)
  | some (lastAt, baseline) =>
    if due now center lastAt state then (buildDelta baseline state).map .delta else none

theorem react_id {known : Option (Nat × EntityState F)} {state : EntityState F}
    {op : EntityOp F} (h : react now center known state = some op) : op.id = state.entityId := by
  unfold react at h
  cases known with
  | none =>
      rw [← Option.some.inj h]
      rfl
  | some last =>
      simp only [] at h
      split at h
      · obtain ⟨d, hd, rfl⟩ := Option.map_eq_some_iff.mp h
        exact buildDelta_entityId hd
      · cases h

/-- One turn, in terms of the operation it comes to. -/
theorem considerEntity_eq (acc : ClientOps F) (state : EntityState F) :
    considerEntity now viewerSource center radius acc state
      = if sees viewerSource center radius state then
          { visible := state.entityId :: acc.visible
            ops := acc.ops
              ++ (react now center (acc.lastSent.lookup state.entityId) state).toList
            lastSent := match react now center (acc.lastSent.lookup state.entityId) state with
              | none => acc.lastSent
              | some _ => acc.lastSent.insert state.entityId (now, state) }
        else acc := by
  unfold considerEntity sees react due
  by_cases hown : state.networkOwner = some viewerSource
  · simp [hown]
  · have hother : (state.networkOwner != some viewerSource) = true := by simpa using hown
    rw [if_neg hown, hother, Bool.true_and]
    by_cases hfar : Scalar.lt radius (distance3d center state.coords) = true
    · simp [hfar]
    · simp only [hfar]
      rw [if_neg Bool.false_ne_true, if_pos (by simp)]
      cases hknown : acc.lastSent.lookup state.entityId with
      | none => simp
      | some last =>
          obtain ⟨lastAt, baseline⟩ := last
          simp only []
          by_cases hearly : now - lastAt < updateRateForDistance (distance3d center state.coords)
          · have hnot : ¬ updateRateForDistance (distance3d center state.coords) ≤ now - lastAt :=
              Nat.not_le.mpr hearly
            simp [hearly, hnot]
          · have hdue : updateRateForDistance (distance3d center state.coords) ≤ now - lastAt :=
              Nat.not_lt.mp hearly
            rw [if_neg hearly]
            cases buildDelta baseline state with
            | none => simp
            | some d => simp [hdue]

theorem considerEntity_untouched {k : EntityId} {acc : ClientOps F} {state : EntityState F}
    (h : state.entityId = k → sees viewerSource center radius state = false) :
    Untouched k acc (considerEntity now viewerSource center radius acc state) := by
  rw [considerEntity_eq]
  by_cases hsees : sees viewerSource center radius state = true
  · have hne : state.entityId ≠ k := by
      intro hid
      rw [h hid] at hsees
      cases hsees
    rw [if_pos hsees]
    cases hop : react now center (acc.lastSent.lookup state.entityId) state with
    | none => exact ⟨rfl, by simp, by simp [hne.symm]⟩
    | some op =>
        refine ⟨AList.lookup_insert_ne hne.symm, ?_, by simp [hne.symm]⟩
        rw [opsAbout_append, Option.toList_some, opsAbout_singleton, react_id hop, if_neg hne,
          List.append_nil]
  · rw [if_neg hsees]
    exact ⟨rfl, rfl, Iff.rfl⟩

theorem considerEntity_turnAt {acc : ClientOps F} {state : EntityState F}
    (hsees : sees viewerSource center radius state = true) :
    TurnAt now state.entityId acc (considerEntity now viewerSource center radius acc state)
      (react now center (acc.lastSent.lookup state.entityId) state) state := by
  rw [considerEntity_eq, if_pos hsees]
  cases hop : react now center (acc.lastSent.lookup state.entityId) state with
  | none => exact ⟨rfl, by simp, by simp⟩
  | some op =>
      refine ⟨AList.lookup_insert _, ?_, by simp⟩
      rw [opsAbout_append, Option.toList_some, opsAbout_singleton, react_id hop, if_pos rfl]

theorem consider_untouched {k : EntityId} : ∀ {candidates : List (EntityState F)}
    {acc : ClientOps F},
    (∀ s ∈ candidates, s.entityId = k → sees viewerSource center radius s = false) →
      Untouched k acc (candidates.foldl (considerEntity now viewerSource center radius) acc) := by
  intro candidates
  induction candidates with
  | nil =>
      intro acc _
      exact ⟨rfl, rfl, Iff.rfl⟩
  | cons s rest ih =>
      intro acc h
      exact (considerEntity_untouched (h s List.mem_cons_self)).trans
        (ih fun s' hs' => h s' (List.mem_cons_of_mem _ hs'))

/-- The loop over candidates with distinct ids, as seen from one that is visible. -/
theorem consider_turnAt : ∀ {candidates : List (EntityState F)} {acc : ClientOps F}
    {state : EntityState F}, (candidates.map (·.entityId)).Nodup → state ∈ candidates →
      sees viewerSource center radius state = true →
        TurnAt now state.entityId acc
          (candidates.foldl (considerEntity now viewerSource center radius) acc)
          (react now center (acc.lastSent.lookup state.entityId) state) state := by
  intro candidates
  induction candidates with
  | nil =>
      intro acc state _ hmem
      cases hmem
  | cons s rest ih =>
      intro acc state hnodup hmem hsees
      rw [List.map_cons, List.nodup_cons] at hnodup
      rw [List.foldl_cons]
      rcases List.mem_cons.mp hmem with rfl | hrest
      · have hturn : TurnAt now state.entityId acc _ _ state := considerEntity_turnAt hsees
        have hothers : Untouched state.entityId
            (considerEntity now viewerSource center radius acc state)
            (rest.foldl (considerEntity now viewerSource center radius) _) :=
          consider_untouched
            (fun s hs hid => absurd (List.mem_map.mpr ⟨s, hs, hid⟩) hnodup.1)
        exact ⟨hothers.lastSent.trans hturn.lastSent, hothers.ops.trans hturn.ops,
          hothers.visible.mpr hturn.visible⟩
      · have hfirst : Untouched state.entityId acc
            (considerEntity now viewerSource center radius acc s) := by
          refine considerEntity_untouched ?_
          intro hid
          exact absurd (List.mem_map.mpr ⟨state, hrest, hid.symm⟩) hnodup.1
        have hturn : TurnAt now state.entityId
            (considerEntity now viewerSource center radius acc s) _ _ state :=
          ih hnodup.2 hrest hsees
        refine ⟨?_, ?_, hturn.visible⟩
        · rw [hturn.lastSent, hfirst.lastSent]
        · rw [hturn.ops, hfirst.ops, hfirst.lastSent]

end Loop

/-! ### The visit that follows -/

theorem retainEntity_untouched {k id : EntityId} {visible : List EntityId} {acc : ClientOps F}
    (h : id = k → id ∈ visible) : Untouched k acc (retainEntity visible acc id) := by
  unfold retainEntity
  by_cases hid : id ∈ visible
  · rw [if_pos hid]
    exact ⟨rfl, rfl, Iff.rfl⟩
  · have hne : id ≠ k := fun e => hid (h e)
    rw [if_neg hid]
    refine ⟨AList.lookup_erase_ne hne.symm, ?_, Iff.rfl⟩
    rw [opsAbout_append, opsAbout_singleton]
    show _ ++ (if id = k then _ else _) = _
    rw [if_neg hne, List.append_nil]

theorem retain_absent {k : EntityId} {visible : List EntityId} :
    ∀ {ids : List EntityId} {acc : ClientOps F}, k ∉ ids →
      Untouched k acc (ids.foldl (retainEntity visible) acc) := by
  intro ids
  induction ids with
  | nil =>
      intro acc _
      exact ⟨rfl, rfl, Iff.rfl⟩
  | cons id rest ih =>
      intro acc h
      rw [List.mem_cons, not_or] at h
      exact (retainEntity_untouched fun hid => absurd hid.symm h.1).trans (ih h.2)

/-- What is still visible stays. -/
theorem retain_visible {k : EntityId} {visible : List EntityId} (hvisible : k ∈ visible) :
    ∀ {ids : List EntityId} {acc : ClientOps F},
      Untouched k acc (ids.foldl (retainEntity visible) acc) := by
  intro ids
  induction ids with
  | nil =>
      intro acc
      exact ⟨rfl, rfl, Iff.rfl⟩
  | cons id rest ih =>
      intro acc
      exact (retainEntity_untouched fun hid => hid ▸ hvisible).trans ih

/-- What is not visible any more is deleted once. -/
theorem retain_deleted {k : EntityId} {visible : List EntityId} (hgone : k ∉ visible) :
    ∀ {ids : List EntityId} {acc : ClientOps F}, ids.Nodup → k ∈ ids →
      (ids.foldl (retainEntity visible) acc).lastSent.lookup k = none
        ∧ opsAbout k (ids.foldl (retainEntity visible) acc).ops
          = opsAbout k acc.ops ++ [.delete k] := by
  intro ids
  induction ids with
  | nil =>
      intro acc _ hmem
      cases hmem
  | cons id rest ih =>
      intro acc hnodup hmem
      rw [List.nodup_cons] at hnodup
      rw [List.foldl_cons]
      by_cases hid : id = k
      · subst hid
        have hrest : Untouched id (retainEntity visible acc id)
            (rest.foldl (retainEntity visible) _) :=
          retain_absent hnodup.1
        rw [hrest.lastSent, hrest.ops]
        unfold retainEntity
        rw [if_neg hgone]
        refine ⟨AList.lookup_erase _ _, ?_⟩
        rw [opsAbout_append, opsAbout_singleton]
        show _ ++ (if id = id then _ else _) = _
        rw [if_pos rfl]
      · have hfirst : Untouched k acc (retainEntity visible acc id) :=
          retainEntity_untouched fun h => absurd h hid
        have hk : k ∈ rest := by
          rcases List.mem_cons.mp hmem with rfl | hk
          · exact absurd rfl hid
          · exact hk
        have hrest : _ ∧ opsAbout k (rest.foldl (retainEntity visible) _).ops
            = opsAbout k (retainEntity visible acc id).ops ++ [.delete k] := ih hnodup.2 hk
        exact ⟨hrest.1, by rw [hrest.2, hfirst.ops]⟩

/-! ### A whole push -/

/-- The candidate of this id, if the client is to see it. -/
def seenAmong [Scalar F] (viewerSource : UInt32) (center : Vec3 F) (radius : F)
    (candidates : List (EntityState F)) (k : EntityId) : Option (EntityState F) :=
  candidates.find? fun s => s.entityId = k && sees viewerSource center radius s

theorem seenAmong_eq_some [Scalar F] {viewerSource : UInt32} {center : Vec3 F} {radius : F}
    {candidates : List (EntityState F)} (h : (candidates.map (·.entityId)).Nodup) {k : EntityId}
    {s : EntityState F} :
    seenAmong viewerSource center radius candidates k = some s
      ↔ s ∈ candidates ∧ s.entityId = k ∧ sees viewerSource center radius s = true := by
  unfold seenAmong
  constructor
  · intro hfind
    have hp := List.find?_some hfind
    simp only [Bool.and_eq_true, decide_eq_true_eq] at hp
    exact ⟨List.mem_of_find?_eq_some hfind, hp⟩
  · rintro ⟨hmem, hid, hsees⟩
    obtain ⟨s', hs'⟩ := Option.isSome_iff_exists.mp
      (List.find?_isSome.mpr ⟨s, hmem, by simp [hid, hsees]⟩ :
        (candidates.find? fun s => s.entityId = k && sees viewerSource center radius s).isSome)
    have hp := List.find?_some hs'
    simp only [Bool.and_eq_true, decide_eq_true_eq] at hp
    rw [hs', List.inj_on_of_nodup_map h (List.mem_of_find?_eq_some hs') hmem
      (hp.1.trans hid.symm)]

theorem sees_of_not_seenAmong [Scalar F] {viewerSource : UInt32} {center : Vec3 F} {radius : F}
    {candidates : List (EntityState F)} {k : EntityId}
    (h : seenAmong viewerSource center radius candidates k = none) {s : EntityState F}
    (hs : s ∈ candidates) (hid : s.entityId = k) : sees viewerSource center radius s = false := by
  have hnot := List.find?_eq_none.mp h s hs
  simpa [hid] using hnot

/-- **What one push does about one entity.** -/
theorem opsFrom_at [Scalar F] [BEq F] {candidates : List (EntityState F)}
    (h : (candidates.map (·.entityId)).Nodup) (ord : IterOrder EntityId) (now : Nat)
    (viewerSource : UInt32) (center : Vec3 F) (radius : F) (tracker : ClientEntityTracker F)
    (k : EntityId) :
    let r := computeClientOpsFrom ord now candidates tracker viewerSource center radius
    let known := tracker.lastSent.lookup k
    match seenAmong viewerSource center radius candidates k with
    | some s =>
      r.1.lastSent.lookup k = remember now known s (react now center known s)
        ∧ opsAbout k r.2 = (react now center known s).toList
    | none =>
      r.1.lastSent.lookup k = none
        ∧ opsAbout k r.2 = if known.isSome then [.delete k] else [] := by
  intro r known
  let start : ClientOps F := { lastSent := tracker.lastSent }
  let looked := candidates.foldl (considerEntity now viewerSource center radius) start
  let ids := (looked.lastSent.visit ord).map Prod.fst
  have hsent : r.1.lastSent = (ids.foldl (retainEntity looked.visible) looked).lastSent := rfl
  have hops : r.2 = (ids.foldl (retainEntity looked.visible) looked).ops := rfl
  rw [hsent, hops]
  cases hseen : seenAmong viewerSource center radius candidates k with
  | some s =>
      obtain ⟨hmem, rfl, hsees⟩ := (seenAmong_eq_some h).mp hseen
      have hturn : TurnAt now s.entityId start looked _ s := consider_turnAt h hmem hsees
      have hkept : Untouched s.entityId looked (ids.foldl (retainEntity looked.visible) looked) :=
        retain_visible hturn.visible
      exact ⟨hkept.lastSent.trans hturn.lastSent, hkept.ops.trans hturn.ops⟩
  | none =>
      have hstart : Untouched k start looked :=
        consider_untouched fun s hs hid => sees_of_not_seenAmong hseen hs hid
      have hgone : k ∉ looked.visible := fun hk => List.not_mem_nil (hstart.visible.mp hk)
      have hops0 : opsAbout k looked.ops = [] := hstart.ops
      by_cases hknown : known.isSome = true
      · have hmem : k ∈ ids := by
          obtain ⟨last, hlast⟩ := Option.isSome_iff_exists.mp hknown
          exact List.mem_map.mpr
            ⟨(k, last), Map.mem_visit.mpr (hstart.lastSent.trans hlast), rfl⟩
        obtain ⟨hnone, hdelete⟩ := retain_deleted hgone
          (Map.nodup_visit ord looked.lastSent) hmem
        refine ⟨hnone, ?_⟩
        rw [if_pos hknown]
        exact hdelete.trans (by rw [hops0, List.nil_append])
      · have hnone : looked.lastSent.lookup k = none := by
          rw [hstart.lastSent]
          simpa using hknown
        have habsent : k ∉ ids := by
          intro hmem
          obtain ⟨⟨k', last⟩, hvisit, rfl⟩ := List.mem_map.mp hmem
          rw [Map.mem_visit.mp hvisit] at hnone
          cases hnone
        have hkept : Untouched k looked (ids.foldl (retainEntity looked.visible) looked) :=
          retain_absent habsent
        refine ⟨hkept.lastSent.trans hnone, ?_⟩
        rw [if_neg hknown]
        exact hkept.ops.trans hops0

/-! ### A push of what is near -/

/-- The arguments of a call that change from tick to tick: where the client is, how far it
sees, when it is, in which orders the maps are visited, and which entities of the world are
candidates.  Everything within the radius is one. -/
structure Look (F : Type) [Scalar F] where
  now : Nat
  center : Vec3 F
  radius : F
  ord : IterOrder EntityId
  near : EntityState F → Bool
  covers : ∀ s, Scalar.lt radius (distance3d center s.coords) = false → near s = true

namespace Look

variable [Scalar F]

/-- The candidates the world has for this call. -/
def candidates (p : Look F) (world : WorldState F) : List (EntityState F) :=
  ((world.visit p.ord).map Prod.snd).filter p.near

/-- The call for one viewer. -/
def ops [BEq F] (p : Look F) (viewerSource : UInt32) (world : WorldState F)
    (tracker : ClientEntityTracker F) : ClientEntityTracker F × List (EntityOp F) :=
  computeClientOpsFrom p.ord p.now (p.candidates world) tracker viewerSource p.center p.radius

/-- The entity as the client is to see it, if it is to see it. -/
def seen (p : Look F) (viewerSource : UInt32) (world : WorldState F) (k : EntityId) :
    Option (EntityState F) :=
  (world.lookup k).filter (sees viewerSource p.center p.radius)

end Look

/-- Every entity of the world is filed under its own id. -/
def Labelled (world : WorldState F) : Prop := ∀ k s, world.lookup k = some s → s.entityId = k

theorem candidates_nodup [Scalar F] {world : WorldState F} (h : Labelled world) (p : Look F) :
    ((p.candidates world).map (·.entityId)).Nodup := by
  have hids : ((world.visit p.ord).map Prod.snd).map (·.entityId)
      = (world.visit p.ord).map Prod.fst := by
    rw [List.map_map]
    refine List.map_congr_left ?_
    rintro ⟨k, s⟩ hmem
    exact h k s (Map.mem_visit.mp hmem)
  have hsub := (List.filter_sublist (p := p.near) (l := (world.visit p.ord).map Prod.snd)).map
    (·.entityId)
  refine hsub.nodup ?_
  rw [hids]
  exact Map.nodup_visit p.ord world

theorem mem_candidates [Scalar F] {world : WorldState F} (h : Labelled world) {p : Look F}
    {s : EntityState F} :
    s ∈ p.candidates world ↔ world.lookup s.entityId = some s ∧ p.near s = true := by
  unfold Look.candidates
  rw [List.mem_filter, List.mem_map]
  constructor
  · rintro ⟨⟨⟨k, s⟩, hmem, rfl⟩, hnear⟩
    have hk := Map.mem_visit.mp hmem
    rw [h k s hk]
    exact ⟨hk, hnear⟩
  · rintro ⟨hworld, hnear⟩
    exact ⟨⟨(s.entityId, s), Map.mem_visit.mpr hworld, rfl⟩, hnear⟩

/-- What a push does about one entity, when everything within the radius is a candidate. -/
theorem ops_at [Scalar F] [BEq F] {world : WorldState F} (h : Labelled world) (p : Look F)
    (viewerSource : UInt32) (tracker : ClientEntityTracker F) (k : EntityId) :
    match p.seen viewerSource world k with
    | some s =>
      (p.ops viewerSource world tracker).1.lastSent.lookup k
          = remember p.now (tracker.lastSent.lookup k) s
            (react p.now p.center (tracker.lastSent.lookup k) s)
        ∧ opsAbout k (p.ops viewerSource world tracker).2
          = (react p.now p.center (tracker.lastSent.lookup k) s).toList
    | none =>
      (p.ops viewerSource world tracker).1.lastSent.lookup k = none
        ∧ opsAbout k (p.ops viewerSource world tracker).2
          = if (tracker.lastSent.lookup k).isSome then [.delete k] else [] := by
  have hseen : seenAmong viewerSource p.center p.radius (p.candidates world) k
      = p.seen viewerSource world k := by
    refine Option.ext fun s => ?_
    rw [seenAmong_eq_some (candidates_nodup h p), mem_candidates h]
    unfold Look.seen
    rw [Option.filter_eq_some_iff]
    constructor
    · rintro ⟨⟨hworld, -⟩, rfl, hsees⟩
      exact ⟨hworld, hsees⟩
    · rintro ⟨hworld, hsees⟩
      obtain rfl := h k s hworld
      refine ⟨⟨hworld, p.covers s ?_⟩, rfl, hsees⟩
      unfold sees at hsees
      simpa using (Bool.and_eq_true_iff.mp hsees).2
  rw [← hseen]
  exact opsFrom_at (candidates_nodup h p) p.ord p.now viewerSource p.center p.radius tracker k

end Baston.Gateway
