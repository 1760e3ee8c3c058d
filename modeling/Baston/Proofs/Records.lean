/-
What one clone record can do, and what a payload does by doing it again and again.

`RecordEffect` lists every way `applyRecord` can leave the state, each with the checks
that let it happen.  An invariant of the registry is proved by cases on it, and
`ingest_keeps` carries it through the record loop.
-/
import Baston.Lib.Trace
import Baston.Zone.Ingest

namespace Baston.Zone

open Assoc Baston.Rage Trace

variable {F : Type} [Scalar F]

namespace ServerGameState

/-- The state after an accepted create. -/
def afterCreate (s : ServerGameState F) (source : UInt32) (id u : UInt16)
    (ty : NetObjEntityType) (token : UInt32) (data : List UInt8) : ServerGameState F :=
  { s with
    entities := s.entities.insert id (s.createdEntity source id u ty token data)
    routingBuckets := s.routingBuckets.setEntityBucket id (s.routingBuckets.playerBucket source)
    ids := s.ids.set id.toNat .used }

/-- The state after an entity and everything filed under its id is gone. -/
def afterRemove (s : ServerGameState F) (id : UInt16) : ServerGameState F :=
  { s with
    entities := s.entities.erase id
    ids := s.ids.set id.toNat .free
    routingBuckets := s.routingBuckets.removeEntity id }

/-- The state after one entity was replaced. -/
def afterUpdate (s : ServerGameState F) (id : UInt16) (e : ServerEntity F) :
    ServerGameState F :=
  { s with entities := s.entities.insert id e }

/-- The state after a source's bookkeeping changed. -/
def afterNote (s : ServerGameState F) (source : UInt32) (f : ClientState F → ClientState F) :
    ServerGameState F :=
  { s.addClient source with clients := (s.addClient source).clients.modify source f }

/-- Every way a record of `source` can leave the state. -/
inductive RecordEffect (source : UInt32) (s : ServerGameState F) :
    InboundRecord → ServerGameState F → Bool → Prop
  /-- Rejected, or no object at all. -/
  | kept {r : InboundRecord} {accepted : Bool} : RecordEffect source s r s accepted
  | created {id u : UInt16} {ty : NetObjEntityType} {token : UInt32} {data : List UInt8}
      (allowed : s.routingBuckets.allowsClientCreate source = true)
      (own : ∀ e, s.entities.lookup id = some e → e.owner = source ∧ e.uniqifier = u)
      (object : id ≠ notAnObjectId) (bound : id.toNat < s.ids.length) :
      RecordEffect source s (.clone true id u (some ty) token data)
        (s.afterCreate source id u ty token data) true
  | synced {id u : UInt16} {ty : Option NetObjEntityType} {token : UInt32}
      {data : List UInt8} {e : ServerEntity F}
      (live : s.entities.lookup id = some e) (owner : e.owner = source)
      (uniq : e.uniqifier = u) (bucket : s.routingBuckets.playerBucket source = e.routingBucket) :
      RecordEffect source s (.clone false id u ty token data)
        (s.afterUpdate id (s.syncedEntity e data)) true
  | removed {id u : UInt16} {e : ServerEntity F}
      (live : s.entities.lookup id = some e) (owner : e.owner = source)
      (uniq : e.uniqifier = u) (bucket : s.routingBuckets.playerBucket source = e.routingBucket)
      (bound : id.toNat < s.ids.length) :
      RecordEffect source s (.remove id u) (s.afterRemove id) true
  | takenOver {target id : UInt16} {e : ServerEntity F}
      (allowed : s.routingBuckets.allowsTakeover source
        (takeoverTarget source target).toUInt32 id = true)
      (live : s.entities.lookup id = some e) (owner : e.owner = source) :
      RecordEffect source s (.takeover target id)
        (s.afterUpdate id { e with owner := (takeoverTarget source target).toUInt32 }) true
  /-- A timestamp or a frame index. -/
  | noted {r : InboundRecord} {f : ClientState F → ClientState F}
      (leased : ∀ c, (f c).leased = c.leased) (view : ∀ c, (f c).view = c.view) :
      RecordEffect source s r (s.afterNote source f) true

omit [Scalar F] in
theorem setIdState_eq_some {s s' : ServerGameState F} {id : UInt16} {st : IdState}
    (h : s.setIdState id st = some s') :
    id.toNat < s.ids.length ∧ s' = { s with ids := s.ids.set id.toNat st } := by
  unfold setIdState at h
  by_cases hb : id.toNat < s.ids.length
  · rw [if_pos hb] at h
    exact ⟨hb, (Option.some.inj h).symm⟩
  · rw [if_neg hb] at h
    exact absurd h (by simp)

/-- A create is rejected, or it passed the lockdown and met no entity but the sender's own. -/
theorem applyCreate_cases (s : ServerGameState F) (source : UInt32) (id u : UInt16)
    (ty : Option NetObjEntityType) (token : UInt32) (data : List UInt8) :
    s.applyCreate source id u ty token data = (s, false) ∨
      ∃ ty', ty = some ty' ∧ s.routingBuckets.allowsClientCreate source = true ∧
        (∀ e, s.entities.lookup id = some e → e.owner = source ∧ e.uniqifier = u) ∧
        s.applyCreate source id u ty token data =
          ({ s with
              entities := s.entities.insert id (s.createdEntity source id u ty' token data)
              routingBuckets := s.routingBuckets.setEntityBucket id
                (s.routingBuckets.playerBucket source) }, true) := by
  cases ty with
  | none =>
      left
      unfold applyCreate
      simp only [ite_self]
  | some ty =>
      cases ha : s.routingBuckets.allowsClientCreate source with
      | false =>
          left
          simp [applyCreate, ha]
      | true =>
          by_cases own : ∀ e, s.entities.lookup id = some e → e.owner = source ∧ e.uniqifier = u
          · right
            refine ⟨ty, rfl, rfl, own, ?_⟩
            cases hl : s.entities.lookup id with
            | none => simp [applyCreate, ha, hl]
            | some e => simp [applyCreate, ha, hl, own e hl]
          · left
            push Not at own
            obtain ⟨e, hl, hne⟩ := own
            by_cases ho : e.owner = source
            · simp [applyCreate, ha, hl, ho, hne ho]
            · simp [applyCreate, ha, hl, ho]

theorem applyCreate_effect {s s' : ServerGameState F} {source : UInt32} {id u : UInt16}
    {ty : Option NetObjEntityType} {token : UInt32} {data : List UInt8} {ok : Bool}
    (object : id ≠ notAnObjectId)
    (h : applyRecord source s (.clone true id u ty token data) = some (s', ok)) :
    RecordEffect source s (.clone true id u ty token data) s' ok := by
  simp only [applyRecord, if_neg object, if_true] at h
  rcases applyCreate_cases s source id u ty token data with hc | ⟨ty', rfl, allowed, own, hc⟩
  · rw [hc] at h
    obtain ⟨rfl, rfl⟩ := Prod.mk.inj (Option.some.inj h)
    exact .kept
  · rw [hc] at h
    simp only [if_true] at h
    obtain ⟨t, ht, h⟩ := Option.bind_eq_some_iff.mp h
    obtain ⟨rfl, rfl⟩ := Prod.mk.inj (Option.some.inj h)
    obtain ⟨bound, rfl⟩ := setIdState_eq_some ht
    exact .created allowed own object bound

theorem applySync_effect {s s' : ServerGameState F} {source : UInt32} {id u : UInt16}
    {ty : Option NetObjEntityType} {token : UInt32} {data : List UInt8} {ok : Bool}
    (object : id ≠ notAnObjectId)
    (h : applyRecord source s (.clone false id u ty token data) = some (s', ok)) :
    RecordEffect source s (.clone false id u ty token data) s' ok := by
  simp only [applyRecord, if_neg object, Bool.false_eq_true, if_false, applySync] at h
  cases hl : s.entities.lookup id with
  | none =>
      rw [hl] at h
      obtain ⟨rfl, rfl⟩ := Prod.mk.inj (Option.some.inj h)
      exact .kept
  | some e =>
      rw [hl] at h
      simp only at h
      split at h
      · obtain ⟨rfl, rfl⟩ := Prod.mk.inj (Option.some.inj h)
        exact .kept
      · rename_i hc
        simp only [not_or, not_not] at hc
        obtain ⟨rfl, rfl⟩ := Prod.mk.inj (Option.some.inj h)
        exact .synced hl hc.2.1 hc.1 hc.2.2

theorem applyRemove_effect {s s' : ServerGameState F} {source : UInt32} {id u : UInt16}
    {ok : Bool} (h : applyRecord source s (.remove id u) = some (s', ok)) :
    RecordEffect source s (.remove id u) s' ok := by
  simp only [applyRecord, applyRemove] at h
  cases hl : s.entities.lookup id with
  | none =>
      rw [hl] at h
      obtain ⟨rfl, rfl⟩ := Prod.mk.inj (Option.some.inj h)
      exact .kept
  | some e =>
      rw [hl] at h
      simp only at h
      split at h
      · rename_i hc
        obtain ⟨t, ht, h⟩ := Option.bind_eq_some_iff.mp h
        obtain ⟨rfl, rfl⟩ := Prod.mk.inj (Option.some.inj h)
        obtain ⟨bound, rfl⟩ := setIdState_eq_some ht
        exact .removed hl hc.1 hc.2.1 hc.2.2 bound
      · obtain ⟨rfl, rfl⟩ := Prod.mk.inj (Option.some.inj h)
        exact .kept

theorem applyTakeover_effect {s s' : ServerGameState F} {source : UInt32} {target id : UInt16}
    {ok : Bool} (h : applyRecord source s (.takeover target id) = some (s', ok)) :
    RecordEffect source s (.takeover target id) s' ok := by
  simp only [applyRecord, applyTakeover] at h
  split at h
  · obtain ⟨rfl, rfl⟩ := Prod.mk.inj (Option.some.inj h)
    exact .kept
  · rename_i hallow
    cases hl : s.entities.lookup id with
    | none =>
        rw [hl] at h
        obtain ⟨rfl, rfl⟩ := Prod.mk.inj (Option.some.inj h)
        exact .kept
    | some e =>
        rw [hl] at h
        simp only at h
        split at h
        · rename_i howner
          obtain ⟨rfl, rfl⟩ := Prod.mk.inj (Option.some.inj h)
          exact .takenOver (by simpa using hallow) hl howner
        · obtain ⟨rfl, rfl⟩ := Prod.mk.inj (Option.some.inj h)
          exact .kept

/-- **Nothing else happens.**  Whatever a record does is one of the listed effects. -/
theorem applyRecord_effect {s s' : ServerGameState F} {source : UInt32} {r : InboundRecord}
    {ok : Bool} (h : applyRecord source s r = some (s', ok)) : RecordEffect source s r s' ok := by
  cases r with
  | clone isCreate id u ty token data =>
      by_cases object : id = notAnObjectId
      · simp only [applyRecord, if_pos object] at h
        obtain ⟨rfl, rfl⟩ := Prod.mk.inj (Option.some.inj h)
        exact .kept
      · cases isCreate with
        | true => exact applyCreate_effect object h
        | false => exact applySync_effect object h
  | remove id u => exact applyRemove_effect h
  | takeover target id => exact applyTakeover_effect h
  | timestamp ts =>
      obtain ⟨rfl, rfl⟩ := Prod.mk.inj (Option.some.inj h)
      refine .noted (fun c => ?_) (fun c => ?_)
      · split <;> rfl
      · split <;> rfl
  | index idx =>
      obtain ⟨rfl, rfl⟩ := Prod.mk.inj (Option.some.inj h)
      exact .noted (fun c => rfl) (fun c => rfl)

/-- What a record of `source` can do to the entity under `id`, and whether it is accepted. -/
inductive EntityEffect (source : UInt32) (s : ServerGameState F) (id : UInt16) :
    InboundRecord → Bool → Option (ServerEntity F) → Option (ServerEntity F) → Prop
  | kept {r : InboundRecord} {accepted : Bool} {o : Option (ServerEntity F)} :
      EntityEffect source s id r accepted o o
  | created {u : UInt16} {ty : NetObjEntityType} {token : UInt32} {data : List UInt8}
      {o : Option (ServerEntity F)}
      (own : ∀ e, o = some e → e.owner = source ∧ e.uniqifier = u) :
      EntityEffect source s id (.clone true id u (some ty) token data) true o
        (some (s.createdEntity source id u ty token data))
  | synced {u : UInt16} {ty : Option NetObjEntityType} {token : UInt32} {data : List UInt8}
      {e : ServerEntity F} (owner : e.owner = source) (uniq : e.uniqifier = u) :
      EntityEffect source s id (.clone false id u ty token data) true (some e)
        (some (s.syncedEntity e data))
  | removed {u : UInt16} {e : ServerEntity F} (owner : e.owner = source) (uniq : e.uniqifier = u) :
      EntityEffect source s id (.remove id u) true (some e) none
  | takenOver {target : UInt16} {e : ServerEntity F} (owner : e.owner = source) :
      EntityEffect source s id (.takeover target id) true (some e)
        (some { e with owner := (takeoverTarget source target).toUInt32 })

/-- A record is about one entity. -/
theorem RecordEffect.entity {source : UInt32} {s s' : ServerGameState F} {r : InboundRecord}
    {ok : Bool} (heff : RecordEffect source s r s' ok) (id : UInt16) :
    EntityEffect source s id r ok (s.entities.lookup id) (s'.entities.lookup id) := by
  cases heff with
  | kept => exact .kept
  | @created id' u ty token data _ own _ _ =>
      show EntityEffect source s id _ _ _ ((s.entities.insert id' _).lookup id)
      rw [Map.lookup_insert_of]
      by_cases h : id = id'
      · subst h
        rw [if_pos rfl]
        exact .created own
      · rw [if_neg h]
        exact .kept
  | @synced id' u ty token data e live owner uniq _ =>
      show EntityEffect source s id _ _ _ ((s.entities.insert id' _).lookup id)
      rw [Map.lookup_insert_of]
      by_cases h : id = id'
      · subst h
        rw [if_pos rfl, live]
        exact .synced owner uniq
      · rw [if_neg h]
        exact .kept
  | @removed id' u e live owner uniq _ _ =>
      show EntityEffect source s id _ _ _ ((s.entities.erase id').lookup id)
      rw [Map.lookup_erase_of]
      by_cases h : id = id'
      · subst h
        rw [if_pos rfl, live]
        exact .removed owner uniq
      · rw [if_neg h]
        exact .kept
  | @takenOver target id' e _ live owner =>
      show EntityEffect source s id _ _ _ ((s.entities.insert id' _).lookup id)
      rw [Map.lookup_insert_of]
      by_cases h : id = id'
      · subst h
        rw [if_pos rfl, live]
        exact .takenOver owner
      · rw [if_neg h]
        exact .kept
  | noted => exact .kept

/-! ### The record loop -/

/-- The records of a payload; none when it does not decode. -/
def payloadRecords (lz4 : Lz4) (s : ServerGameState F) (payload : List UInt8) :
    List InboundRecord :=
  match decodeIncoming lz4 payload s.lengthHack with
  | some incoming => incoming.records
  | none => []

/-- One turn of the record loop as a step of a system. -/
def recordStep (source : UInt32) (r : InboundRecord) (s : ServerGameState F) :
    Option (ServerGameState F × Bool) := applyRecord source s r

/-- The turns the record loop takes on a payload, newest first. -/
def trail (lz4 : Lz4) (s : ServerGameState F) (source : UInt32) (payload : List UInt8) :
    List (Entry (ServerGameState F) InboundRecord Bool) :=
  match history (recordStep source) [] (s.payloadRecords lz4 payload) (s.addClient source) with
  | some (turns, _) => turns
  | none => []

theorem ingestRecords_history {source : UInt32} :
    ∀ {records : List InboundRecord} {s s' : ServerGameState F} {ack ack' : MessageBuffer}
      {o o' : IngestOutcome} (past : List (Entry (ServerGameState F) InboundRecord Bool)),
      ingestRecords source records s ack o = some (s', ack', o') →
        (∃ turns, history (recordStep source) past records s = some (turns, s')) ∧
          ack' = records.foldl (fun ack r => ackRecord r ack) ack := by
  intro records
  induction records with
  | nil =>
      intro s s' ack ack' o o' past h
      simp only [ingestRecords, Option.some.injEq, Prod.mk.injEq] at h
      obtain ⟨rfl, rfl, -⟩ := h
      exact ⟨⟨past, rfl⟩, rfl⟩
  | cons r rest ih =>
      intro s s' ack ack' o o' past h
      simp only [ingestRecords] at h
      obtain ⟨⟨t, ok⟩, ht, h⟩ := Option.bind_eq_some_iff.mp h
      obtain ⟨⟨turns, hturns⟩, hack⟩ := ih (⟨s, r, ok, t⟩ :: past) h
      refine ⟨⟨turns, ?_⟩, hack⟩
      simp only [history, recordStep, ht, Option.bind_some]
      exact hturns

/-- A payload either changes nothing or registers its sender and then runs its records. -/
theorem ingest_run {lz4 : Lz4} {s s' : ServerGameState F} {source : UInt32}
    {payload : List UInt8} {out : IngestOutcome}
    (h : s.ingestClonePayload lz4 source payload = some (s', out)) :
    (s' = s ∧ s.trail lz4 source payload = []) ∨
      Run (recordStep source) (s.addClient source) (s.trail lz4 source payload) s' := by
  unfold ingestClonePayload at h
  cases hd : decodeIncoming lz4 payload s.lengthHack with
  | none =>
      rw [hd] at h
      refine .inl ⟨(Prod.mk.inj (Option.some.inj h)).1.symm, ?_⟩
      unfold trail payloadRecords
      rw [hd]
      rfl
  | some incoming =>
      rw [hd] at h
      obtain ⟨⟨t, ack, o⟩, ht, h⟩ := Option.bind_eq_some_iff.mp h
      have hs : t = s' := by
        simp only at h
        split at h
        · exact (Prod.mk.inj (Option.some.inj h)).1
        · exact (Prod.mk.inj (Option.some.inj h)).1
      subst hs
      obtain ⟨⟨turns, hturns⟩, -⟩ := ingestRecords_history [] ht
      right
      have htrail : s.trail lz4 source payload = turns := by
        unfold trail payloadRecords
        rw [hd]
        simp only [hturns]
      rw [htrail]
      exact run_of_history _ .nil hturns

/-- **The rule for the record loop**, with the turns taken so far at hand.  What holds before
and after registering the sender, and is kept by every effect of a record that meets its
condition, holds after a payload. -/
theorem ingest_along {lz4 : Lz4} {s s' : ServerGameState F} {source : UInt32}
    {payload : List UInt8} {out : IngestOutcome}
    {I : List (Entry (ServerGameState F) InboundRecord Bool) → ServerGameState F → Prop}
    {P : ServerGameState F → InboundRecord → Prop} (h0 : ∀ turns, I turns s)
    (hjoin : I [] (s.addClient source))
    (hrecord : ∀ {past t t' r ok}, I past t → P t r → recordStep source r t = some (t', ok) →
      I (⟨t, r, ok, t'⟩ :: past) t')
    (hP : ∀ x ∈ s.trail lz4 source payload, P x.pre x.op)
    (h : s.ingestClonePayload lz4 source payload = some (s', out)) :
    I (s.trail lz4 source payload) s' := by
  rcases ingest_run h with ⟨rfl, -⟩ | run
  · exact h0 _
  · exact run.invariant (P := fun _ x => P x.pre x.op) hjoin
      (fun _ hI hr hP => hrecord hI hP hr) (along_of_forall hP)

/-- The rule for a property of the state alone. -/
theorem ingest_keeps {lz4 : Lz4} {s s' : ServerGameState F} {source : UInt32}
    {payload : List UInt8} {out : IngestOutcome} {I : ServerGameState F → Prop}
    {P : ServerGameState F → InboundRecord → Prop} (h0 : I s) (hjoin : I (s.addClient source))
    (hrecord : ∀ {t t' r ok}, I t → P t r → RecordEffect source t r t' ok → I t')
    (hP : ∀ x ∈ s.trail lz4 source payload, P x.pre x.op)
    (h : s.ingestClonePayload lz4 source payload = some (s', out)) : I s' :=
  ingest_along (I := fun _ t => I t) (fun _ => h0) hjoin
    (fun hI hP hr => hrecord hI hP (applyRecord_effect hr)) hP h

end ServerGameState

end Baston.Zone
