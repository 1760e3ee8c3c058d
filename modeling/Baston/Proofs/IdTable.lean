/-
The object-id table and the entity registry agree.

`TableOK` is the invariant: the table covers every id a payload can name, an id is
`used` exactly when the registry holds an entity under it, and the lease lists stay
inside the table.  Every operation keeps it, and none panics while it holds.
-/
import Baston.Proofs.Buffer
import Baston.Proofs.Steps

namespace Baston.Zone

open Assoc Baston.Rage Trace

variable {F : Type}

/-! ### Ids a payload can name -/

/-- A create, sync or remove whose object id, if it is one, lies in the table of its mode. -/
def InMode (lengthHack : Bool) : InboundRecord → Prop
  | .clone _ id _ _ _ _ | .remove id _ => lengthHack = false → id.toNat < 8192
  | _ => True

theorem keepsMode_readClone (isCreate : Bool) : BitM.KeepsMode (readClone isCreate) := by
  refine (BitM.keepsMode_bits _).bind fun _ => (BitM.keepsMode_bits _).bind fun _ => ?_
  refine BitM.KeepsMode.bind ?_ fun _ => (BitM.keepsMode_bits _).bind fun _ =>
    (BitM.keepsMode_bytes _ _).bind fun _ => BitM.keepsMode_pure _
  unfold readCreateHead
  split
  · exact (BitM.keepsMode_bits _).bind fun _ => (BitM.keepsMode_bits _).bind fun _ =>
      BitM.keepsMode_pure _
  · exact BitM.keepsMode_pure _

theorem keepsMode_readInbound (ty : UInt32) : BitM.KeepsMode (readInbound ty) := by
  have two : ∀ (a b : Nat) (k : UInt32 → UInt32 → InboundRecord),
      BitM.KeepsMode (do
        let x ← BitM.bits a
        let y ← BitM.bits b
        pure (k x y)) := fun a b k =>
    (BitM.keepsMode_bits a).bind fun _ =>
      (BitM.keepsMode_bits b).bind fun _ => BitM.keepsMode_pure _
  have one : ∀ (a : Nat) (k : UInt32 → InboundRecord),
      BitM.KeepsMode (do
        let x ← BitM.bits a
        pure (k x)) := fun a k =>
    (BitM.keepsMode_bits a).bind fun _ => BitM.keepsMode_pure _
  unfold readInbound
  split
  · exact keepsMode_readClone _
  · split
    · exact two 13 16 _
    · split
      · exact two 16 13 _
      · split
        · exact one 32 _
        · split
          · exact one 32 _
          · exact BitM.keepsMode_failure

/-- An id field is as wide as the mode says. -/
theorem idField_lt {buf buf' : MessageBuffer} {v : UInt32} (hmode : buf.lengthHack = false)
    (h : (BitM.bits 13).run buf = (some v, buf')) : v.toUInt16.toNat < 8192 := by
  have hlt := BitM.bits_lt (by decide) h
  unfold MessageBuffer.effectiveLen at hlt
  rw [if_neg (by simp [hmode])] at hlt
  rw [UInt32.toNat_toUInt16]
  omega

theorem readInbound_inMode {ty : UInt32} {buf buf' : MessageBuffer} {r : InboundRecord}
    (h : (readInbound ty).run buf = (some r, buf')) : InMode buf.lengthHack r := by
  unfold readInbound at h
  split at h
  · obtain ⟨v1, b1, h1, h⟩ := BitM.bind_eq_some h
    obtain ⟨v2, b2, h2, h⟩ := BitM.bind_eq_some h
    obtain ⟨v3, b3, -, h⟩ := BitM.bind_eq_some h
    obtain ⟨v4, b4, -, h⟩ := BitM.bind_eq_some h
    obtain ⟨v5, b5, -, h⟩ := BitM.bind_eq_some h
    rw [← Option.some.inj (congrArg Prod.fst h)]
    intro hmode
    have hb1 : b1.lengthHack = false := by
      have := BitM.keepsMode_bits 16 buf
      rw [h1] at this
      exact this.trans hmode
    exact idField_lt hb1 h2
  · split at h
    · obtain ⟨v1, b1, h1, h⟩ := BitM.bind_eq_some h
      obtain ⟨v2, b2, -, h⟩ := BitM.bind_eq_some h
      rw [← Option.some.inj (congrArg Prod.fst h)]
      exact fun hmode => idField_lt hmode h1
    · -- the other records name no id that is checked
      split at h
      · obtain ⟨_, _, -, h⟩ := BitM.bind_eq_some h
        obtain ⟨_, _, -, h⟩ := BitM.bind_eq_some h
        rw [← Option.some.inj (congrArg Prod.fst h)]
        trivial
      · split at h
        · obtain ⟨_, _, -, h⟩ := BitM.bind_eq_some h
          rw [← Option.some.inj (congrArg Prod.fst h)]
          trivial
        · split at h
          · obtain ⟨_, _, -, h⟩ := BitM.bind_eq_some h
            rw [← Option.some.inj (congrArg Prod.fst h)]
            trivial
          · exact absurd (congrArg Prod.fst h) nofun

theorem readRecords_inMode : ∀ (fuel : Nat) (buf : MessageBuffer),
    ∀ r ∈ readRecords fuel buf, InMode buf.lengthHack r := by
  intro fuel
  induction fuel with
  | zero =>
      intro buf r hr
      exact absurd hr List.not_mem_nil
  | succ fuel ih =>
      intro buf r hr
      unfold readRecords at hr
      split at hr
      · exact absurd hr List.not_mem_nil
      · split at hr
        · exact absurd hr List.not_mem_nil
        · rename_i ty b1 h1
          have hb1 : b1.lengthHack = buf.lengthHack := by
            have := BitM.keepsMode_bits 3 buf
            rwa [show (BitM.bits 3).run buf = (some ty, b1) from h1] at this
          split at hr
          · exact absurd hr List.not_mem_nil
          · rename_i r' b2 h2
            rcases List.mem_cons.mp hr with rfl | hr
            · rw [← hb1]
              exact readInbound_inMode h2
            · have hb2 : b2.lengthHack = b1.lengthHack := by
                have := keepsMode_readInbound ty b1
                rwa [h2] at this
              rw [← hb1, ← hb2]
              exact ih b2 r hr

/-- Whatever bytes arrive, a decoded clone names an id of its mode. -/
theorem decodeIncoming_inMode {lz4 : Lz4} {payload : List UInt8} {lengthHack : Bool}
    {incoming : IncomingPacket} (h : decodeIncoming lz4 payload lengthHack = some incoming) :
    ∀ r ∈ incoming.records, InMode lengthHack r := by
  unfold decodeIncoming at h
  split at h
  · exact absurd h (by simp)
  · simp only at h
    split at h
    · exact absurd h (by simp)
    · split at h
      · exact absurd h (by simp)
      · rw [← Option.some.inj h]
        exact readRecords_inMode _ _

/-! ### The invariant -/

/-- The id table and the registry agree. -/
structure TableOK (s : ServerGameState F) : Prop where
  /-- The mode fixes the largest id. -/
  mode : s.maxObjectId = if s.lengthHack then maxObjectIdBeyond else maxObjectIdNative
  /-- The table has a slot for every id up to it. -/
  size : s.ids.length = s.maxObjectId.toNat + 1
  /-- An id is used exactly when an entity lives under it. -/
  used : ∀ id, s.idState id = some .used ↔ id ∈ s.entities
  /-- Lease lists stay inside the table. -/
  leases : ∀ c, ∀ id ∈ s.leasedBy c, id.toNat < s.ids.length

namespace TableOK

open ServerGameState

variable {s s' : ServerGameState F}

theorem key_lt (ok : TableOK s) {id : UInt16} (h : id ∈ s.entities) :
    id.toNat < s.ids.length := idState_isSome ((ok.used id).mpr h)

/-- No entity lives past the largest id. -/
theorem key_le (ok : TableOK s) {id : UInt16} (h : id ∈ s.entities) : id ≤ s.maxObjectId := by
  have hlt := ok.key_lt h
  rw [ok.size] at hlt
  exact UInt16.le_iff_toNat_le.mpr (by omega)

/-- Whatever touches neither the table, nor which ids live, nor the lease lists. -/
theorem of_same (ok : TableOK s) (hmax : s'.maxObjectId = s.maxObjectId)
    (hhack : s'.lengthHack = s.lengthHack) (hids : s'.ids = s.ids)
    (hkeys : ∀ id, id ∈ s'.entities ↔ id ∈ s.entities)
    (hlease : ∀ c, s'.leasedBy c = s.leasedBy c) : TableOK s' where
  mode := by rw [hmax, hhack, ok.mode]
  size := by rw [hids, hmax, ok.size]
  used id := by
    unfold idState
    rw [hids, hkeys]
    exact ok.used id
  leases c id hid := by
    rw [hids]
    exact ok.leases c id (hlease c ▸ hid)

/-- An entity is put under an id and the id is marked. -/
theorem insert (ok : TableOK s) {id : UInt16} (hid : id.toNat < s.ids.length)
    (hmax : s'.maxObjectId = s.maxObjectId) (hhack : s'.lengthHack = s.lengthHack)
    (hids : s'.ids = s.ids.set id.toNat .used)
    (hkeys : ∀ id', id' ∈ s'.entities ↔ id' = id ∨ id' ∈ s.entities)
    (hlease : ∀ c, s'.leasedBy c = s.leasedBy c) : TableOK s' where
  mode := by rw [hmax, hhack, ok.mode]
  size := by rw [hids, List.length_set, hmax, ok.size]
  used id' := by
    have h := ok.used id'
    unfold idState at h ⊢
    rw [hids, getElem?_setId hid, hkeys]
    by_cases heq : id' = id
    · simp [heq]
    · simp [heq, h]
  leases c id' hid' := by
    rw [hids, List.length_set]
    exact ok.leases c id' (hlease c ▸ hid')

/-- An entity is taken out and its id is freed. -/
theorem remove (ok : TableOK s) {id : UInt16} (hid : id.toNat < s.ids.length) :
    TableOK (s.afterRemove id) where
  mode := ok.mode
  size := by
    show (s.ids.set _ _).length = _
    rw [List.length_set]
    exact ok.size
  used id' := by
    have h := ok.used id'
    unfold idState at h ⊢
    show (s.ids.set _ _)[_]? = _ ↔ id' ∈ s.entities.erase id
    rw [getElem?_setId hid, AList.mem_erase]
    by_cases heq : id' = id
    · simp [heq]
    · simp [heq, h]
  leases c id' hid' := by
    show _ < (s.ids.set _ _).length
    rw [List.length_set]
    exact ok.leases c id' hid'

theorem update (ok : TableOK s) {id : UInt16} (h : id ∈ s.entities) (e : ServerEntity F) :
    TableOK (s.afterUpdate id e) := by
  refine ok.of_same rfl rfl rfl ?_ fun _ => rfl
  intro id'
  show id' ∈ s.entities.insert id e ↔ _
  rw [AList.mem_insert]
  constructor
  · rintro (rfl | h')
    · exact h
    · exact h'
  · exact .inr

theorem addClient (ok : TableOK s) (source : UInt32) : TableOK (s.addClient source) :=
  ok.of_same rfl rfl rfl (fun _ => Iff.rfl) fun c => leasedBy_addClient s source c

theorem mem_of_lookup {s : ServerGameState F} {id : UInt16} {e : ServerEntity F}
    (h : s.entities.lookup id = some e) : id ∈ s.entities :=
  AList.lookup_isSome.mp (by rw [h]; rfl)

/-- A spawn keeps the agreement. -/
theorem spawnWithId [Scalar F] (ok : TableOK s) {id : UInt16} {req : SpawnRequest F} {b : Bool}
    (h : s.spawnServerEntityWithId id req = some (s', b)) : TableOK s' := by
  rcases spawnWithId_cases h with ⟨-, token, rfl⟩ | ⟨-, hfree, -, -, createData, -, rfl⟩
  · exact ok.of_same rfl rfl rfl (fun _ => Iff.rfl) fun _ => rfl
  · exact ok.insert (idState_isSome hfree) rfl rfl rfl (fun id' => AList.mem_insert _)
      fun _ => rfl

/-- Every effect of a record keeps the agreement. -/
theorem record [Scalar F] (ok : TableOK s) {source : UInt32} {r : InboundRecord} {b : Bool}
    (h : RecordEffect source s r s' b) : TableOK s' := by
  cases h with
  | kept => exact ok
  | created _ _ _ bound =>
      exact ok.insert bound rfl rfl rfl (fun id' => AList.mem_insert _) fun _ => rfl
  | synced live => exact ok.update (mem_of_lookup live) _
  | removed live _ _ _ bound => exact ok.remove bound
  | takenOver _ live => exact ok.update (mem_of_lookup live) _
  | noted leased =>
      refine (ok.addClient source).of_same rfl rfl rfl (fun _ => Iff.rfl) fun c => ?_
      exact leasedBy_modify leased c

theorem removeClient (ok : TableOK s) {ord : IterOrder UInt16} {source : UInt32}
    {orphaned : List UInt16} (h : s.removeClient ord source = some (s', orphaned)) :
    TableOK s' := by
  obtain ⟨ids, t, hids, rfl, ht, rfl⟩ := removeClient_cases h
  -- releasing leases neither uses nor frees a live id
  have hreleased : TableOK { s with clients := s.clients.erase source, ids := ids } := by
    refine ⟨ok.mode, (releaseLeases_length hids).trans ok.size, ?_, ?_⟩
    · intro id
      have h := ok.used id
      unfold idState at h ⊢
      show ids[_]? = _ ↔ _
      rw [releaseLeases_getElem? hids]
      split
      · rename_i hl
        rw [← h, hl.2]
        simp
      · exact h
    · intro c id hid
      show _ < ids.length
      rw [releaseLeases_length hids]
      apply ok.leases c
      unfold leasedBy at hid ⊢
      have herase : ((s.clients.erase source).lookup c)
          = if c = source then none else s.clients.lookup c := Map.lookup_erase_of _ _ _
      rw [herase] at hid
      split at hid
      · exact absurd hid (by simp)
      · exact hid
  have hkept : TableOK t := by
    refine foldlM_keeps (I := TableOK) ?_ hreleased ht
    intro a _ u u' hu hstep
    rcases dropOrphan_cases hstep with ⟨e, he, -, rfl⟩ | ⟨-, bound, rfl⟩
    · exact hu.update (mem_of_lookup he) _
    · exact hu.remove bound
  exact hkept.of_same rfl rfl rfl (fun _ => Iff.rfl) fun _ => rfl

theorem lease (ok : TableOK s) {source : UInt32} {n : Nat} {leased : List UInt16}
    {packet : List UInt8} (h : s.leaseObjectIds source n = some (s', leased, packet)) :
    TableOK s' := by
  obtain ⟨hfree, hids, hlen, hent, hmax, hhack, -, hlist, -⟩ := leaseObjectIds_cases h
  refine ⟨by rw [hmax, hhack, ok.mode], by rw [hlen, hmax, ok.size], ?_, ?_⟩
  · intro id
    rw [hids, hent, ← ok.used]
    split
    · rename_i hmem
      rw [(hfree id hmem).1]
      simp
    · exact Iff.rfl
  · intro c id hid
    rw [hlen]
    rw [hlist] at hid
    split at hid
    · rcases List.mem_append.mp hid with hid | hid
      · exact ok.leases c id hid
      · exact idState_isSome (hfree id hid).1
    · exact ok.leases c id hid

/-- **Every operation keeps the agreement.** -/
theorem step [Scalar F] {lz4 : Lz4} {op : Op F} {a : Answer} (ok : TableOK s)
    (h : step lz4 op s = some (s', a)) : TableOK s' := by
  cases step_effect h with
  | ingested h =>
      exact ingest_keeps (P := fun _ _ => True) ok (ok.addClient _)
        (fun hok _ heff => hok.record heff) (fun _ _ => trivial) h
  | joined => exact ok.addClient _
  | left h => exact ok.removeClient h
  | leased h => exact ok.lease h
  | spawned _ h => exact ok.spawnWithId h
  | exhausted => exact ok
  | despawned h =>
      rcases despawnEntity_cases h with ⟨-, rfl, -⟩ | ⟨-, bound, rfl, -⟩
      · exact ok
      · exact ok.remove bound
  | rewritten _ _ =>
      exact ok.of_same rfl rfl rfl (fun id => Map.mem_mapVals _ _ id) fun _ => rfl
  | routed => exact ok.of_same rfl rfl rfl (fun _ => Iff.rfl) fun _ => rfl
  | clock => exact ok.of_same rfl rfl rfl (fun _ => Iff.rfl) fun _ => rfl
  | viewed _ hlease =>
      refine ok.of_same rfl rfl rfl (fun _ => Iff.rfl) fun c => ?_
      unfold leasedBy
      rw [hlease c]

/-! ### Nothing panics -/

theorem id_lt_of_inMode (ok : TableOK s) {id : UInt16} (object : id ≠ notAnObjectId)
    (h : s.lengthHack = false → id.toNat < 8192) : id.toNat < s.ids.length := by
  rw [ok.size, ok.mode]
  cases hhack : s.lengthHack with
  | false =>
      have := h hhack
      show id.toNat < maxObjectIdNative.toNat + 1
      have : maxObjectIdNative.toNat = 8191 := rfl
      omega
  | true =>
      show id.toNat < maxObjectIdBeyond.toNat + 1
      have hmax : maxObjectIdBeyond.toNat = 65534 := rfl
      have hlt := id.toNat_lt
      have hne : id.toNat ≠ 65535 := fun heq => object (UInt16.toNat.inj heq)
      omega

theorem applyRecord_total [Scalar F] (ok : TableOK s) {r : InboundRecord} (source : UInt32)
    (hr : InMode s.lengthHack r) : ∃ p, applyRecord source s r = some p := by
  cases r with
  | clone isCreate id u ty token data =>
      unfold applyRecord
      by_cases object : id = notAnObjectId
      · simp only [if_pos object]
        exact ⟨_, rfl⟩
      · simp only [if_neg object]
        cases isCreate with
        | false => exact ⟨_, rfl⟩
        | true =>
            have hlt := ok.id_lt_of_inMode object hr
            rcases applyCreate_cases s source id u ty token data with hc | ⟨ty', -, -, -, hc⟩
            · simp only [hc]
              exact ⟨_, rfl⟩
            · simp only [hc, if_true, setIdState, if_pos hlt]
              exact ⟨_, rfl⟩
  | remove id u =>
      show ∃ p, s.applyRemove source id u = some p
      unfold applyRemove
      cases hl : s.entities.lookup id with
      | none => exact ⟨_, rfl⟩
      | some e =>
          simp only
          split
          · simp only [setIdState, if_pos (ok.key_lt (mem_of_lookup hl))]
            exact ⟨_, rfl⟩
          · exact ⟨_, rfl⟩
  | takeover target id => exact ⟨_, rfl⟩
  | timestamp ts => exact ⟨_, rfl⟩
  | index idx => exact ⟨_, rfl⟩

theorem record_lengthHack [Scalar F] {source : UInt32} {r : InboundRecord} {b : Bool}
    (h : RecordEffect source s r s' b) : s'.lengthHack = s.lengthHack := by
  cases h <;> rfl

theorem ingestRecords_total [Scalar F] (source : UInt32) :
    ∀ {records : List InboundRecord} {s : ServerGameState F} (ack : MessageBuffer)
      (o : IngestOutcome), TableOK s → (∀ r ∈ records, InMode s.lengthHack r) →
      ∃ p, ingestRecords source records s ack o = some p := by
  intro records
  induction records with
  | nil =>
      intro s ack o _ _
      exact ⟨_, rfl⟩
  | cons r rest ih =>
      intro s ack o ok hr
      obtain ⟨⟨t, b⟩, ht⟩ := ok.applyRecord_total source (hr r List.mem_cons_self)
      have heff := applyRecord_effect ht
      obtain ⟨p, hp⟩ := ih (ackRecord r ack) (countRecord source r b o) (ok.record heff) (by
        rw [record_lengthHack heff]
        exact fun r' hr' => hr r' (List.mem_cons_of_mem _ hr'))
      exact ⟨p, by simp only [ingestRecords, ht, Option.bind_eq_bind, Option.bind_some, hp]⟩

theorem ingest_total [Scalar F] (ok : TableOK s) (lz4 : Lz4) (source : UInt32)
    (payload : List UInt8) : ∃ p, s.ingestClonePayload lz4 source payload = some p := by
  unfold ingestClonePayload
  cases hd : decodeIncoming lz4 payload s.lengthHack with
  | none => exact ⟨_, rfl⟩
  | some incoming =>
      obtain ⟨⟨t, ack, o⟩, hp⟩ := ingestRecords_total source
        ((MessageBuffer.new ackBufBytes).withLengthHack s.lengthHack) {} (ok.addClient source)
        (decodeIncoming_inMode hd)
      simp only
      rw [show (s.addClient source).lengthHack = s.lengthHack from rfl, hp]
      simp only [Option.bind_eq_bind, Option.bind_some]
      split
      · exact ⟨_, rfl⟩
      · exact ⟨_, rfl⟩

/-- **No operation panics** while the table and the registry agree. -/
theorem step_total [Scalar F] (ok : TableOK s) (lz4 : Lz4) (op : Op F) :
    ∃ r, Baston.Zone.step lz4 op s = some r := by
  have hsize : s.maxObjectId.toNat < s.ids.length := by
    rw [ok.size]
    omega
  cases op with
  | ingest source payload =>
      obtain ⟨p, hp⟩ := ok.ingest_total lz4 source payload
      exact ⟨_, Option.map_eq_some_iff.mpr ⟨p, hp, rfl⟩⟩
  | removeClient ord source =>
      obtain ⟨p, hp⟩ := removeClient_total ord (ok.leases source) fun id hid => ok.key_lt hid
      exact ⟨_, Option.map_eq_some_iff.mpr ⟨p, hp, rfl⟩⟩
  | lease source n =>
      obtain ⟨p, hp⟩ := leaseObjectIds_total source n hsize
      exact ⟨_, Option.map_eq_some_iff.mpr ⟨p, hp, rfl⟩⟩
  | spawn req =>
      obtain ⟨p, hp⟩ := spawn_total req hsize
      exact ⟨_, Option.map_eq_some_iff.mpr ⟨p, hp, rfl⟩⟩
  | spawnWithId id req =>
      obtain ⟨p, hp⟩ := spawnWithId_total id req hsize
      exact ⟨_, Option.map_eq_some_iff.mpr ⟨p, hp, rfl⟩⟩
  | despawn id =>
      obtain ⟨p, hp⟩ := despawnEntity_total id ok.key_lt
      exact ⟨_, Option.map_eq_some_iff.mpr ⟨p, hp, rfl⟩⟩
  | addClient source => exact ⟨_, rfl⟩
  | reassign ord => exact ⟨_, rfl⟩
  | setPlayerBucket source bucket => exact ⟨_, rfl⟩
  | setEntityBucket id bucket => exact ⟨_, rfl⟩
  | setLockdown bucket mode => exact ⟨_, rfl⟩
  | setPopulationEnabled bucket enabled => exact ⟨_, rfl⟩
  | setPosition id position => exact ⟨_, rfl⟩
  | setVelocity id velocity => exact ⟨_, rfl⟩
  | seedPositions focus => exact ⟨_, rfl⟩
  | tick => exact ⟨_, rfl⟩
  | tickClient source focus cfg => exact ⟨_, rfl⟩
  | tickClients ord fallback cfg => exact ⟨_, rfl⟩
  | nack source n => exact ⟨_, rfl⟩
  | ack source n => exact ⟨_, rfl⟩

/-! ### Usage -/

theorem withBuild (bigMode lengthHack : Bool) (build : GameBuild) :
    TableOK (ServerGameState.withBuild bigMode lengthHack build : ServerGameState F) where
  mode := rfl
  size := List.length_replicate
  used id := by
    unfold idState ServerGameState.withBuild
    simp only [List.getElem?_replicate]
    constructor
    · intro h
      split at h
      · exact absurd h (by simp)
      · exact absurd h (by simp)
    · intro h
      exact absurd h (AList.notMem_empty id)
  leases c id hid := by
    have hnil : (ServerGameState.withBuild bigMode lengthHack build :
        ServerGameState F).leasedBy c = [] := by
      unfold leasedBy ServerGameState.withBuild
      simp
    rw [hnil] at hid
    exact absurd hid List.not_mem_nil

/-- Two states of the table never count the same id twice. -/
theorem count_add_count_le (l : List IdState) : l.count .used + l.count .leased ≤ l.length := by
  induction l with
  | nil => exact le_rfl
  | cons a rest ih => cases a <;> simp <;> omega

/-- The usage report adds up to the size of the id space. -/
theorem usage (ok : TableOK s) : ∃ u, s.objectIdUsage = some u ∧
    u.used + u.leased + u.free = u.max ∧ u.max = s.maxObjectId.toNat := by
  unfold objectIdUsage
  have hlen : ((s.ids.drop 1).take s.maxObjectId.toNat).length = s.maxObjectId.toNat := by
    rw [List.length_take, List.length_drop, ok.size]
    omega
  have hcount := count_add_count_le ((s.ids.drop 1).take s.maxObjectId.toNat)
  rw [hlen] at hcount
  simp only
  rw [if_neg (by rw [ok.size]; omega), if_neg (by omega)]
  exact ⟨_, rfl, by simp only; omega, rfl⟩

end TableOK

/-! ### Runs -/

/-- Every run goes through, and ends with the agreement. -/
theorem exec_tableOK [Scalar F] (lz4 : Lz4) (bigMode lengthHack : Bool) (build : GameBuild)
    (ops : List (Op F)) : ∃ s : ServerGameState F,
      exec (step lz4) ops (ServerGameState.withBuild bigMode lengthHack build) = some s ∧
        TableOK s := by
  have hstep : ∀ {s : ServerGameState F} op, TableOK s →
      ∃ r, step lz4 op s = some r ∧ TableOK r.1 := by
    intro s op ok
    obtain ⟨r, hr⟩ := ok.step_total lz4 op
    exact ⟨r, hr, ok.step hr⟩
  exact exec_total hstep ops (TableOK.withBuild bigMode lengthHack build)

/-- **The id table and the registry agree in every reachable state.**  Whatever is asked of
the server, in any order and with any bytes, no operation panics; an id is used exactly
when the registry holds an entity under it; every key lies in the id space; and the usage
report never underflows and adds up. -/
theorem ids_agree_with_registry [Scalar F] (lz4 : Lz4) (bigMode lengthHack : Bool)
    (build : GameBuild) (ops : List (Op F)) :
    ∃ s : ServerGameState F,
      exec (step lz4) ops (ServerGameState.withBuild bigMode lengthHack build) = some s ∧
      (∀ id, s.idState id = some .used ↔ id ∈ s.entities) ∧
      (∀ id ∈ s.entities, id ≤ s.maxObjectId) ∧
      s.ids.length = s.maxObjectId.toNat + 1 ∧
      ∃ u, s.objectIdUsage = some u ∧ u.used + u.leased + u.free = u.max ∧
        u.max = s.maxObjectId.toNat := by
  obtain ⟨s, hs, ok⟩ := exec_tableOK lz4 bigMode lengthHack build ops
  exact ⟨s, hs, ok.used, fun id hid => ok.key_le hid, ok.size, ok.usage⟩

end Baston.Zone
