/-
What one operation of the system does, in few cases.

The twenty operations fall into nine kinds.  `StepEffect` is the list, with what each
kind may change; an invariant over runs is proved by cases on it.
-/
import Baston.Proofs.Operations

namespace Baston.Zone

open Assoc Baston.Rage Trace ServerGameState

variable {F : Type} [Scalar F]

/-- An operation that rewrites entities where they are: what it may change of one, and when. -/
structure Rewrites (op : Op F) (f : UInt16 → ServerEntity F → ServerEntity F) : Prop where
  keeps : ∀ id e, f id e = { e with
    owner := (f id e).owner, position := (f id e).position,
    positionKnown := (f id e).positionKnown, velocity := (f id e).velocity,
    routingBucket := (f id e).routingBucket }
  /-- Only a reassignment changes an owner, and only of an ownerless server entity. -/
  owner : ∀ id e, (f id e).owner ≠ e.owner →
    e.serverOwned = true ∧ e.owner = 0 ∧ ∃ ord, op = .reassign ord
  /-- Only the override changes a velocity. -/
  velocity : ∀ id e, (f id e).velocity ≠ e.velocity → op = .setVelocity id (f id e).velocity

/-- Operations that neither make nor end entities, clients or leases. -/
def Op.Quiet : Op F → Prop
  | .reassign _ | .setPlayerBucket _ _ | .setEntityBucket _ _ | .setLockdown _ _
  | .setPopulationEnabled _ _ | .setPosition _ _ | .setVelocity _ _ | .seedPositions _
  | .tickClient _ _ _ | .tickClients _ _ _ | .nack _ _ | .ack _ _ => True
  | _ => False

/-- The kinds of steps. -/
inductive StepEffect (lz4 : Lz4) (s : ServerGameState F) :
    Op F → Answer → ServerGameState F → Prop
  | ingested {source : UInt32} {payload : List UInt8} {o : IngestOutcome}
      {s' : ServerGameState F} (h : s.ingestClonePayload lz4 source payload = some (s', o)) :
      StepEffect lz4 s (.ingest source payload) (.ingested o) s'
  | joined {source : UInt32} : StepEffect lz4 s (.addClient source) .unit (s.addClient source)
  | left {ord : IterOrder UInt16} {source : UInt32} {ids : List UInt16}
      {s' : ServerGameState F} (h : s.removeClient ord source = some (s', ids)) :
      StepEffect lz4 s (.removeClient ord source) (.orphaned ids) s'
  | leased {source : UInt32} {n : Nat} {ids : List UInt16} {packet : List UInt8}
      {s' : ServerGameState F} (h : s.leaseObjectIds source n = some (s', ids, packet)) :
      StepEffect lz4 s (.lease source n) (.leased ids packet) s'
  /-- Either spawn, on an id it was given or allocated. -/
  | spawned {op : Op F} {a : Answer} {id : UInt16} {req : SpawnRequest F} {ok : Bool}
      {s' : ServerGameState F}
      (hop : (op = .spawnWithId id req ∧ a = .flag ok) ∨
        (op = .spawn req ∧ s.allocateServerObjectId = some (some id) ∧
          a = .spawned (if ok then some id else none)))
      (h : s.spawnServerEntityWithId id req = some (s', ok)) : StepEffect lz4 s op a s'
  /-- A spawn without a free id. -/
  | exhausted {req : SpawnRequest F} : StepEffect lz4 s (.spawn req) (.spawned none) s
  | despawned {id : UInt16} {ok : Bool} {s' : ServerGameState F}
      (h : s.despawnEntity id = some (s', ok)) : StepEffect lz4 s (.despawn id) (.flag ok) s'
  | rewritten {op : Op F} {f : UInt16 → ServerEntity F → ServerEntity F}
      {buckets : RoutingBucketRegistry} (quiet : op.Quiet) (hf : Rewrites op f) :
      StepEffect lz4 s op .unit
        { s with entities := s.entities.mapVals f, routingBuckets := buckets }
  /-- Routing policy and players' buckets. -/
  | routed {op : Op F} {buckets : RoutingBucketRegistry} (quiet : op.Quiet) :
      StepEffect lz4 s op .unit { s with routingBuckets := buckets }
  | clock : StepEffect lz4 s .tick .unit s.tick
  /-- Ticks and reliability packets: only views change. -/
  | viewed {op : Op F} {a : Answer} {clients : Map UInt32 (ClientState F)}
      (quiet : op.Quiet)
      (hlease : ∀ c, (clients.lookup c).map (·.leased) = (s.clients.lookup c).map (·.leased)) :
      StepEffect lz4 s op a { s with clients := clients }

theorem rewrites_adopt (ord : IterOrder UInt16) (players : List (UInt32 × Vec3 F)) :
    Rewrites (.reassign ord) fun _ e => adopt players e := by
  have hcases : ∀ e : ServerEntity F, adopt players e = e ∨
      (e.serverOwned = true ∧ e.owner = 0 ∧ ∃ owner, adopt players e = { e with owner := owner }) := by
    intro e
    unfold adopt
    split
    · rename_i hc
      split
      · exact .inr ⟨hc.1, hc.2, _, rfl⟩
      · exact .inl rfl
    · exact .inl rfl
  refine ⟨?_, ?_, ?_⟩
  · intro _ e
    rcases hcases e with h | ⟨-, -, o, h⟩
    · simp only [h]
    · simp only [h]
  · intro _ e hne
    rcases hcases e with h | ⟨hs, ho, -⟩
    · exact absurd (by rw [h]) hne
    · exact ⟨hs, ho, ord, rfl⟩
  · intro _ e hne
    rcases hcases e with h | ⟨-, -, o, h⟩
    · exact absurd (by rw [h]) hne
    · exact absurd (by rw [h]) hne

omit [Scalar F] in
theorem rewrites_seed (focus : Map UInt32 (Vec3 F)) :
    Rewrites (.seedPositions focus) fun _ e => seedPosition focus e := by
  have hcases : ∀ e : ServerEntity F, seedPosition focus e = e ∨
      ∃ p, seedPosition focus e = { e with position := p, positionKnown := true } := by
    intro e
    unfold seedPosition
    split
    · split
      · exact .inr ⟨_, rfl⟩
      · exact .inl rfl
    · exact .inl rfl
  refine ⟨?_, ?_, ?_⟩
  · intro _ e
    rcases hcases e with h | ⟨p, h⟩
    · simp only [h]
    · simp only [h]
  · intro _ e hne
    rcases hcases e with h | ⟨p, h⟩
    · exact absurd (by rw [h]) hne
    · exact absurd (by rw [h]) hne
  · intro _ e hne
    rcases hcases e with h | ⟨p, h⟩
    · exact absurd (by rw [h]) hne
    · exact absurd (by rw [h]) hne

omit [Scalar F] in
/-- An override at one id. -/
theorem rewrites_at {op : Op F} {id : UInt16} {g : ServerEntity F → ServerEntity F}
    (keeps : ∀ e, g e = { e with
      position := (g e).position, positionKnown := (g e).positionKnown,
      velocity := (g e).velocity, routingBucket := (g e).routingBucket })
    (velocity : ∀ e, (g e).velocity ≠ e.velocity → op = .setVelocity id (g e).velocity) :
    Rewrites op fun id' e => if id' = id then g e else e := by
  have hcases : ∀ id' e, (id' = id ∧ (if id' = id then g e else e) = g e) ∨
      (if id' = id then g e else e) = e := by
    intro id' e
    by_cases h : id' = id
    · exact .inl ⟨h, if_pos h⟩
    · exact .inr (if_neg h)
  have howner : ∀ e, (g e).owner = e.owner := fun e => by rw [keeps e]
  refine ⟨?_, ?_, ?_⟩
  · intro id' e
    rcases hcases id' e with ⟨-, h⟩ | h
    · simp only [h]
      rw [howner e]
      exact keeps e
    · simp only [h]
  · intro id' e hne
    rcases hcases id' e with ⟨-, h⟩ | h
    · exact absurd (by rw [h, howner e]) hne
    · exact absurd (by rw [h]) hne
  · intro id' e hne
    rcases hcases id' e with ⟨rfl, h⟩ | h
    · rw [h] at hne ⊢
      exact velocity e hne
    · exact absurd (by rw [h]) hne

/-- **Nothing else happens.**  Every operation is of one of the kinds. -/
theorem step_effect {lz4 : Lz4} {op : Op F} {s s' : ServerGameState F} {a : Answer}
    (h : step lz4 op s = some (s', a)) : StepEffect lz4 s op a s' := by
  cases op with
  | ingest source payload =>
      obtain ⟨⟨t, o⟩, ht, heq⟩ := Option.map_eq_some_iff.mp h
      obtain ⟨rfl, rfl⟩ := Prod.mk.inj heq
      exact .ingested ht
  | addClient source =>
      obtain ⟨rfl, rfl⟩ := Prod.mk.inj (Option.some.inj h)
      exact .joined
  | removeClient ord source =>
      obtain ⟨⟨t, o⟩, ht, heq⟩ := Option.map_eq_some_iff.mp h
      obtain ⟨rfl, rfl⟩ := Prod.mk.inj heq
      exact .left ht
  | lease source n =>
      obtain ⟨⟨t, l, p⟩, ht, heq⟩ := Option.map_eq_some_iff.mp h
      obtain ⟨rfl, rfl⟩ := Prod.mk.inj heq
      exact .leased ht
  | spawn req =>
      obtain ⟨⟨t, r⟩, ht, heq⟩ := Option.map_eq_some_iff.mp h
      obtain ⟨rfl, rfl⟩ := Prod.mk.inj heq
      rcases spawn_cases ht with ⟨rfl, rfl⟩ | ⟨id, ok, halloc, hspawn, rfl⟩
      · exact .exhausted
      · exact .spawned (.inr ⟨rfl, halloc, rfl⟩) hspawn
  | spawnWithId id req =>
      obtain ⟨⟨t, ok⟩, ht, heq⟩ := Option.map_eq_some_iff.mp h
      obtain ⟨rfl, rfl⟩ := Prod.mk.inj heq
      exact .spawned (.inl ⟨rfl, rfl⟩) ht
  | despawn id =>
      obtain ⟨⟨t, r⟩, ht, heq⟩ := Option.map_eq_some_iff.mp h
      obtain ⟨rfl, rfl⟩ := Prod.mk.inj heq
      exact .despawned ht
  | reassign ord =>
      obtain ⟨rfl, rfl⟩ := Prod.mk.inj (Option.some.inj h)
      exact .rewritten trivial (rewrites_adopt ord (s.placedPlayers ord))
  | setPlayerBucket source bucket =>
      obtain ⟨rfl, rfl⟩ := Prod.mk.inj (Option.some.inj h)
      exact .routed trivial
  | setEntityBucket id bucket =>
      obtain ⟨rfl, rfl⟩ := Prod.mk.inj (Option.some.inj h)
      exact .rewritten trivial (rewrites_at (fun _ => rfl) fun _ hne => absurd rfl hne)
  | setLockdown bucket mode =>
      obtain ⟨rfl, rfl⟩ := Prod.mk.inj (Option.some.inj h)
      exact .routed trivial
  | setPopulationEnabled bucket enabled =>
      obtain ⟨rfl, rfl⟩ := Prod.mk.inj (Option.some.inj h)
      exact .routed trivial
  | setPosition id position =>
      obtain ⟨rfl, rfl⟩ := Prod.mk.inj (Option.some.inj h)
      exact .rewritten trivial (rewrites_at (fun _ => rfl) fun _ hne => absurd rfl hne)
  | setVelocity id velocity =>
      obtain ⟨rfl, rfl⟩ := Prod.mk.inj (Option.some.inj h)
      exact .rewritten trivial (rewrites_at (fun _ => rfl) fun _ _ => rfl)
  | seedPositions focus =>
      obtain ⟨rfl, rfl⟩ := Prod.mk.inj (Option.some.inj h)
      exact .rewritten trivial (rewrites_seed focus)
  | tick =>
      obtain ⟨rfl, rfl⟩ := Prod.mk.inj (Option.some.inj h)
      exact .clock
  | tickClient source focus cfg =>
      obtain ⟨rfl, rfl⟩ := Prod.mk.inj (Option.some.inj h)
      cases hl : s.clients.lookup source with
      | none => exact .viewed trivial fun c => rfl
      | some state =>
          refine .viewed trivial fun c => ?_
          rw [Map.lookup_insert_of]
          by_cases hc : c = source
          · rw [if_pos hc, hc, hl]
            rfl
          · rw [if_neg hc]
  | tickClients ord fallback cfg =>
      obtain ⟨rfl, rfl⟩ := Prod.mk.inj (Option.some.inj h)
      refine .viewed trivial fun c => ?_
      rw [Map.lookup_mapVals, Option.map_map]
      rfl
  | nack source n =>
      obtain ⟨rfl, rfl⟩ := Prod.mk.inj (Option.some.inj h)
      refine .viewed trivial fun c => ?_
      rw [Map.lookup_modify]
      split
      · rw [Option.map_map]
        rfl
      · rfl
  | ack source n =>
      obtain ⟨rfl, rfl⟩ := Prod.mk.inj (Option.some.inj h)
      refine .viewed trivial fun c => ?_
      rw [Map.lookup_modify]
      split
      · rw [Option.map_map]
        rfl
      · rfl

end Baston.Zone
