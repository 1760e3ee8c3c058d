/-
Nobody writes an entity but its owner.

A payload may create, sync, remove and hand over in any mix and order.  Whatever it
does to the registry it does to entities its sender owns at that moment, so what
another source owns comes out of the call exactly as it went in.
-/
import Baston.Proofs.IdTable

namespace Baston.Zone

open Assoc Baston.Rage Trace ServerGameState

variable {F : Type}

/-- Everything the server keeps under an object id. -/
structure Holding (s : ServerGameState F) (id : UInt16) (e : ServerEntity F)
    (st : Option IdState) (bucket : Option UInt32) : Prop where
  entity : s.entities.lookup id = some e
  state : s.idState id = st
  bucket : s.routingBuckets.entities.lookup id = bucket

namespace Holding

variable {s s' : ServerGameState F} {id : UInt16} {e : ServerEntity F} {st : Option IdState}
  {bucket : Option UInt32}

theorem update (h : Holding s id e st bucket) {id' : UInt16} (hne : id ≠ id')
    (e' : ServerEntity F) : Holding (s.afterUpdate id' e') id e st bucket where
  entity := by
    show (s.entities.insert id' e').lookup id = _
    rw [AList.lookup_insert_ne hne]
    exact h.entity
  state := h.state
  bucket := h.bucket

theorem remove (h : Holding s id e st bucket) {id' : UInt16} (hne : id ≠ id')
    (bound : id'.toNat < s.ids.length) : Holding (s.afterRemove id') id e st bucket where
  entity := by
    show (s.entities.erase id').lookup id = _
    rw [AList.lookup_erase_ne hne]
    exact h.entity
  state := by
    show (s.ids.set id'.toNat .free)[id.toNat]? = _
    rw [getElem?_setId bound, if_neg hne]
    exact h.state
  bucket := by
    show (s.routingBuckets.entities.erase id').lookup id = _
    rw [AList.lookup_erase_ne hne]
    exact h.bucket

/-- **A record leaves alone what its sender does not own.** -/
theorem record [Scalar F] (h : Holding s id e st bucket) {source : UInt32}
    (howner : e.owner ≠ source) {r : InboundRecord} {ok : Bool}
    (heff : RecordEffect source s r s' ok) : Holding s' id e st bucket := by
  -- an entity the record may touch is the sender's, so it is not this one
  have foreign : ∀ {id' : UInt16} {e' : ServerEntity F},
      s.entities.lookup id' = some e' → e'.owner = source → id ≠ id' := by
    rintro id' e' hl ho rfl
    rw [h.entity] at hl
    rw [← Option.some.inj hl] at ho
    exact howner ho
  cases heff with
  | kept => exact h
  | @created id' u ty token data _ own _ bound =>
      have hne : id ≠ id' := by
        rintro rfl
        exact howner (own e h.entity).1
      refine ⟨?_, ?_, ?_⟩
      · show (s.entities.insert id' _).lookup id = _
        rw [AList.lookup_insert_ne hne]
        exact h.entity
      · show (s.ids.set id'.toNat .used)[id.toNat]? = _
        rw [getElem?_setId bound, if_neg hne]
        exact h.state
      · exact (RoutingBucketRegistry.entities_setEntityBucket_ne _ _ hne).trans h.bucket
  | synced live owner => exact h.update (foreign live owner) _
  | removed live owner _ _ bound => exact h.remove (foreign live owner) bound
  | takenOver _ live owner => exact h.update (foreign live owner) _
  | noted => exact ⟨h.entity, h.state, h.bucket⟩

end Holding

/-- An owner changes only when the owner hands the entity over. -/
theorem record_owner [Scalar F] {s s' : ServerGameState F} {source : UInt32}
    {r : InboundRecord} {ok : Bool} (heff : RecordEffect source s r s' ok) {id : UInt16}
    {e e' : ServerEntity F} (he : s.entities.lookup id = some e)
    (he' : s'.entities.lookup id = some e') (hne : e'.owner ≠ e.owner) :
    e.owner = source ∧ ∃ target, r = .takeover target id ∧
      e' = { e with owner := (takeoverTarget source target).toUInt32 } := by
  have hturn := heff.entity id
  rw [he, he'] at hturn
  generalize hafter : some e' = after at hturn
  cases hturn with
  | kept => exact absurd (congrArg ServerEntity.owner (Option.some.inj hafter)) hne
  | created own =>
      -- a refresh keeps the owner it requires
      rw [Option.some.inj hafter] at hne
      exact absurd (own e rfl).1.symm hne
  | synced =>
      rw [Option.some.inj hafter] at hne
      unfold syncedEntity at hne
      split at hne
      · exact absurd rfl hne
      · exact absurd rfl hne
  | removed => exact absurd hafter (by simp)
  | @takenOver target _ owner => exact ⟨owner, target, rfl, Option.some.inj hafter⟩

/-- Every turn of the record loop is a record applied. -/
theorem trail_turn [Scalar F] {lz4 : Lz4} {s : ServerGameState F} {source : UInt32}
    {payload : List UInt8} {x : Entry (ServerGameState F) InboundRecord Bool}
    (hx : x ∈ s.trail lz4 source payload) : RecordEffect source x.pre x.op x.post x.answer := by
  have rule : ∀ {init t : ServerGameState F} {turns}, Run (recordStep source) init turns t →
      ∀ x ∈ turns, RecordEffect source x.pre x.op x.post x.answer := by
    intro init t turns run
    induction run with
    | nil =>
        intro x hx
        exact absurd hx List.not_mem_nil
    | snoc _ hr ih =>
        intro x hx
        rcases List.mem_cons.mp hx with rfl | hx
        · exact applyRecord_effect hr
        · exact ih x hx
  unfold trail at hx
  split at hx
  · rename_i turns t hturns
    exact rule (run_of_history _ .nil hturns) x hx
  · exact absurd hx List.not_mem_nil

/-- **Write authority.**  In every reachable state, whatever bytes a source sends, an entity
of another owner keeps every field, its id state and its routing entry; and no record
changes an owner but a takeover issued by that owner. -/
theorem ingest_respects_owners [Scalar F] (lz4 : Lz4) (bigMode lengthHack : Bool)
    (build : GameBuild) (ops : List (Op F)) (source : UInt32) (payload : List UInt8) :
    ∃ s s' : ServerGameState F, ∃ out,
      exec (step lz4) ops (ServerGameState.withBuild bigMode lengthHack build) = some s ∧
      s.ingestClonePayload lz4 source payload = some (s', out) ∧
      (∀ id e, s.entities.lookup id = some e → e.owner ≠ source →
        s'.entities.lookup id = some e ∧ s'.idState id = s.idState id ∧
          s'.routingBuckets.entities.lookup id = s.routingBuckets.entities.lookup id) ∧
      ∀ x ∈ s.trail lz4 source payload, ∀ id e e',
        x.pre.entities.lookup id = some e → x.post.entities.lookup id = some e' →
        e'.owner ≠ e.owner → e.owner = source ∧ ∃ target, x.op = .takeover target id ∧
          e' = { e with owner := (takeoverTarget source target).toUInt32 } := by
  obtain ⟨s, hs, ok⟩ := exec_tableOK lz4 bigMode lengthHack build ops
  obtain ⟨⟨s', out⟩, hin⟩ := ok.ingest_total lz4 source payload
  refine ⟨s, s', out, hs, hin, ?_, ?_⟩
  · intro id e he howner
    have held : Holding s id e (s.idState id) (s.routingBuckets.entities.lookup id) :=
      ⟨he, rfl, rfl⟩
    have kept : Holding s' id e (s.idState id) (s.routingBuckets.entities.lookup id) :=
      ingest_keeps (I := fun t => Holding t id e _ _) (P := fun _ _ => True) held
        ⟨held.entity, held.state, held.bucket⟩ (fun ht _ heff => ht.record howner heff)
        (fun _ _ => trivial) hin
    exact ⟨kept.entity, kept.state, kept.bucket⟩
  · intro x hx id e e' he he' hne
    exact record_owner (trail_turn hx) he he' hne

end Baston.Zone
