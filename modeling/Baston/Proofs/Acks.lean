/-
The acks of a payload, as the client reads them.

A payload of records is answered by a stream of acks that ends with `END`.  The acks go
to a buffer of 4096 bytes whose writers fail silently, while the payload may hold four
times as much, so the stream is complete exactly when it fits.  One direction is the
round trip through the bits; the other is that a reader cannot have read more bits than
there are.
-/
import Baston.Proofs.IdTable
import Baston.Rage.LiteralRun

namespace Baston.Zone

open Assoc Baston.Rage MessageBuffer Trace

/-! ### What the client reads -/

/-- One item of an ack stream. -/
inductive AckItem
  | record (r : AckRecord)
  | timestamp (ts : UInt32)
  deriving DecidableEq

/-- The ack a record is due: none for a takeover, an index, or what is no object. -/
def ackItem : InboundRecord → Option AckItem
  | .clone isCreate id u _ _ _ =>
    if id = notAnObjectId then none else some (.record ⟨if isCreate then 1 else 2, id, u⟩)
  | .remove id u => some (.record ⟨3, id, u⟩)
  | .timestamp ts => some (.timestamp ts)
  | .takeover _ _ | .index _ => none

/-- The acks a payload is due, in the order of its records. -/
def ackItems (records : List InboundRecord) : List AckItem := records.filterMap ackItem

/-- The bits of an item: an id takes 13 of them, or 16 with the length hack. -/
def AckItem.size (lengthHack : Bool) : AckItem → Nat
  | .record _ => 3 + (if lengthHack then 16 else 13) + 16
  | .timestamp _ => 3 + 32

/-- Read items up to `END`, which must lie in the last byte; `none` when the stream is
broken off or is no ack stream. -/
def readAcks : Nat → MessageBuffer → Option (List AckItem)
  | 0, _ => none
  | fuel + 1, buf =>
    match (BitM.bits 3).run buf with
    | (none, _) => none
    | (some ty, buf) =>
      if ty = Rec.«end» then if buf.maxBit < buf.curBit + 8 then some [] else none
      else if ty = Rec.timestamp then
        match (BitM.bits 32).run buf with
        | (none, _) => none
        | (some ts, buf) => (readAcks fuel buf).map (.timestamp ts :: ·)
      else
        match (readAckRecord ty).run buf with
        | (none, _) => none
        | (some r, buf) => (readAcks fuel buf).map (.record r :: ·)

/-- The ack stream of a packet: past the header, unpacked, and read. -/
def unpackAcks (lz4 : Lz4) (lengthHack : Bool) (packet : List UInt8) : Option (List AckItem) :=
  (lz4.decompressPlain (packet.drop 12) ServerGameState.ackBufBytes).bind fun body =>
    let buf := (MessageBuffer.fromBytes body).withLengthHack lengthHack
    readAcks buf.maxBit buf

/-! ### A reader reads no more than there is -/

theorem readAckRecord_bound {ty : UInt32} {buf buf' : MessageBuffer} {r : AckRecord}
    (h : (readAckRecord ty).run buf = (some r, buf')) :
    buf.curBit + ((if buf.lengthHack then 16 else 13) + 16) = buf'.curBit ∧
      buf'.maxBit = buf.maxBit ∧ buf'.lengthHack = buf.lengthHack := by
  unfold readAckRecord at h
  split at h
  · obtain ⟨v1, b1, h1, h⟩ := BitM.bind_eq_some h
    obtain ⟨v2, b2, h2, h⟩ := BitM.bind_eq_some h
    obtain ⟨-, rfl⟩ := BitM.bits_bound h1
    obtain ⟨-, rfl⟩ := BitM.bits_bound h2
    obtain ⟨-, rfl⟩ := Prod.mk.inj h
    rw [effectiveLen_id, effectiveLen_plain _ (by decide)]
    exact ⟨by simp only; omega, rfl, rfl⟩
  · exact absurd (congrArg Prod.fst h) nofun

/-- **What was read was there.**  A stream that reads as `items` is at least as long. -/
theorem readAcks_bound : ∀ (fuel : Nat) {buf : MessageBuffer} {items : List AckItem},
    readAcks fuel buf = some items →
      buf.curBit + ((items.map (·.size buf.lengthHack)).sum + 3) ≤ buf.maxBit := by
  intro fuel
  induction fuel with
  | zero =>
      intro buf items h
      exact absurd h (by simp [readAcks])
  | succ fuel ih =>
      intro buf items h
      unfold readAcks at h
      split at h
      · exact absurd h (by simp)
      · rename_i ty b1 h1
        obtain ⟨hfit, rfl⟩ := BitM.bits_bound h1
        rw [effectiveLen_plain _ (by decide)] at hfit h
        split at h
        · split at h
          · rw [← Option.some.inj h]
            simpa using hfit
          · exact absurd h (by simp)
        · split at h
          · split at h
            · exact absurd h (by simp)
            · rename_i ts b2 h2
              obtain ⟨-, rfl⟩ := BitM.bits_bound h2
              obtain ⟨rest, hrest, rfl⟩ := Option.map_eq_some_iff.mp h
              have := ih hrest
              rw [effectiveLen_plain _ (by decide)] at this
              simp only [List.map_cons, List.sum_cons, AckItem.size] at this ⊢
              omega
          · split at h
            · exact absurd h (by simp)
            · rename_i r b2 h2
              obtain ⟨hcur, hmax, hmode⟩ := readAckRecord_bound h2
              obtain ⟨rest, hrest, rfl⟩ := Option.map_eq_some_iff.mp h
              have := ih hrest
              rw [hmax, hmode] at this
              simp only [List.map_cons, List.sum_cons, AckItem.size] at hcur this ⊢
              omega

/-! ### The bits of a stream -/

/-- The bits of an item, field by field. -/
def AckItem.bits (lengthHack : Bool) : AckItem → List Bool
  | .record r => Bits.msb 3 r.ty.toNat ++ (Bits.msb (if lengthHack then 16 else 13) r.objectId.toNat
      ++ (Bits.msb 16 r.uniqifier.toNat ++ []))
  | .timestamp ts => Bits.msb 3 Rec.timestamp.toNat ++ (Bits.msb 32 ts.toNat ++ [])

/-- The bits of a whole stream. -/
def streamBits (lengthHack : Bool) (items : List AckItem) : List Bool :=
  items.flatMap (·.bits lengthHack) ++ Bits.msb 3 Rec.«end».toNat

theorem AckItem.length_bits (lengthHack : Bool) (item : AckItem) :
    (item.bits lengthHack).length = item.size lengthHack := by
  cases item with
  | record r =>
      simp only [AckItem.bits, AckItem.size, List.length_append, Bits.length_msb, List.length_nil]
      omega
  | timestamp ts =>
      simp only [AckItem.bits, AckItem.size, List.length_append, Bits.length_msb, List.length_nil]

theorem length_streamBits (lengthHack : Bool) (items : List AckItem) :
    (streamBits lengthHack items).length = (items.map (·.size lengthHack)).sum + 3 := by
  unfold streamBits
  rw [List.length_append, Bits.length_msb, List.length_flatMap]
  simp only [AckItem.length_bits]

/-! ### Writing -/

namespace ServerGameState

variable {lengthHack : Bool}

theorem writeAckRecord_appends (ty : UInt32) (id u : UInt16) :
    BitW.Appends lengthHack (writeAckRecord ty id u)
      (AckItem.bits lengthHack (.record ⟨ty, id, u⟩)) := by
  have hid : BitW.Appends lengthHack (MessageBuffer.writeBitsSingle id.toUInt32 13)
      (Bits.msb (if lengthHack then 16 else 13) id.toUInt32.toNat) :=
    .field (by decide) (by cases lengthHack <;> rfl) _
  have hu : BitW.Appends lengthHack (MessageBuffer.writeBitsSingle u.toUInt32 16)
      (Bits.msb 16 u.toUInt32.toNat) := .field (by decide) (by simp) _
  rw [UInt16.toNat_toUInt32] at hid hu
  exact (BitW.Appends.field (by decide) (by simp) ty).and (hid.and (hu.and .nil))

/-- The bits the ack of a record takes. -/
def recordBits (lengthHack : Bool) (r : InboundRecord) : List Bool :=
  ((ackItem r).map (·.bits lengthHack)).getD []

/-- The ack of a record is appended if there is room for it. -/
theorem ackRecord_appends (r : InboundRecord) {buf : MessageBuffer}
    (hmode : buf.lengthHack = lengthHack) (hsize : buf.maxBit ≤ buf.data.length * 8)
    (hfit : buf.curBit + (recordBits lengthHack r).length ≤ buf.maxBit) :
    buf.Appended (ackRecord r buf) (recordBits lengthHack r) := by
  cases r with
  | clone isCreate id u ty token data =>
      by_cases hid : id = notAnObjectId
      · simp only [recordBits, ackItem, ackRecord, if_pos hid]
        exact .refl buf
      · simp only [recordBits, ackItem, if_neg hid, Option.map_some, Option.getD_some] at hfit
        simp only [recordBits, ackItem, ackRecord, if_neg hid, Option.map_some, Option.getD_some]
        exact (writeAckRecord_appends _ id u buf hmode hsize hfit).2
  | remove id u => exact (writeAckRecord_appends 3 id u buf hmode hsize hfit).2
  | takeover target id => exact .refl buf
  | timestamp ts =>
      have happ : BitW.Appends lengthHack (BitW.each [MessageBuffer.writeBitsSingle 5 3,
          MessageBuffer.writeBitsSingle ts 32]) (AckItem.bits lengthHack (.timestamp ts)) := by
        refine BitW.Appends.seq ?_ (BitW.Appends.seq ?_ ?_)
        · exact .field (by decide) (by simp) 5
        · exact .field (by decide) (by simp) ts
        · exact .nil
      exact (happ buf hmode hsize hfit).2
  | index idx => exact .refl buf

theorem flatMap_recordBits (records : List InboundRecord) :
    records.flatMap (recordBits lengthHack)
      = (ackItems records).flatMap (·.bits lengthHack) := by
  induction records with
  | nil => rfl
  | cons r rest ih =>
      rw [List.flatMap_cons, ih]
      unfold ackItems recordBits
      rw [List.filterMap_cons]
      cases ackItem r with
      | none => rfl
      | some item => rfl

/-- **The acks of a payload** are written one after the other while there is room. -/
theorem ackRecords_append : ∀ (records : List InboundRecord) {buf : MessageBuffer},
    buf.lengthHack = lengthHack → buf.maxBit ≤ buf.data.length * 8 →
    buf.curBit + (records.flatMap (recordBits lengthHack)).length ≤ buf.maxBit →
    buf.Appended (records.foldl (fun ack r => ackRecord r ack) buf)
      (records.flatMap (recordBits lengthHack)) := by
  intro records
  induction records with
  | nil =>
      intro buf _ _ _
      exact .refl buf
  | cons r rest ih =>
      intro buf hmode hsize hfit
      rw [List.flatMap_cons, List.length_append] at hfit
      have hhead := ackRecord_appends r hmode hsize (by omega)
      rw [List.foldl_cons, List.flatMap_cons]
      refine hhead.trans (ih (hhead.mode.trans hmode) ?_ ?_)
      · rw [hhead.bound, hhead.size]
        exact hsize
      · rw [hhead.bound, hhead.cursor]
        omega

end ServerGameState

/-! ### Reading back -/

/-- An item that the wire can carry: a known type, and an id of the mode. -/
def AckItem.Valid (lengthHack : Bool) : AckItem → Prop
  | .record r => (r.ty = Rec.create ∨ r.ty = Rec.sync ∨ r.ty = Rec.remove) ∧
      (lengthHack = false → r.objectId.toNat < 8192)
  | .timestamp _ => True

theorem ackItem_valid {lengthHack : Bool} {r : InboundRecord} {item : AckItem}
    (h : InMode lengthHack r) (hitem : ackItem r = some item) : item.Valid lengthHack := by
  cases r with
  | clone isCreate id u ty token data =>
      simp only [ackItem] at hitem
      split at hitem
      · exact absurd hitem (by simp)
      · rw [← Option.some.inj hitem]
        refine ⟨?_, h⟩
        cases isCreate with
        | true => exact .inl rfl
        | false => exact .inr (.inl rfl)
  | remove id u =>
      rw [← Option.some.inj hitem]
      exact ⟨.inr (.inr rfl), h⟩
  | takeover target id => exact absurd hitem (by simp [ackItem])
  | timestamp ts =>
      rw [← Option.some.inj hitem]
      trivial
  | index idx => exact absurd hitem (by simp [ackItem])

theorem id_lt_pow {lengthHack : Bool} {id : UInt16} (h : lengthHack = false → id.toNat < 8192) :
    id.toNat < 2 ^ (if lengthHack then 16 else 13) := by
  cases lengthHack with
  | true => exact id.toNat_lt
  | false => exact h rfl

/-- The body of an ack record reads back. -/
theorem readAckRecord_ahead {lengthHack : Bool} {buf : MessageBuffer} {r : AckRecord}
    {rest : List Bool} (hvalid : (AckItem.record r).Valid lengthHack)
    (h : buf.Ahead (Bits.msb (if lengthHack then 16 else 13) r.objectId.toNat
      ++ (Bits.msb 16 r.uniqifier.toNat ++ rest))) (hmode : buf.lengthHack = lengthHack) :
    ∃ buf', (readAckRecord r.ty).run buf = (some r, buf') ∧ buf'.Ahead rest ∧
      buf'.maxBit = buf.maxBit ∧ buf'.lengthHack = lengthHack ∧
      buf'.curBit = buf.curBit + ((if lengthHack then 16 else 13) + 16) := by
  subst hmode
  obtain ⟨hty, hid⟩ := hvalid
  obtain ⟨h1, hrest⟩ := h.field (by decide) (effectiveLen_id buf) (id_lt_pow hid)
  obtain ⟨h2, hrest'⟩ := hrest.field (by decide) (effectiveLen_plain _ (by decide))
    r.uniqifier.toNat_lt
  refine ⟨_, ?_, hrest', rfl, rfl, by simp only; omega⟩
  unfold readAckRecord
  rw [if_pos hty, BitM.run_bind, show (BitM.bits 13).run buf = _ from h1]
  simp only
  rw [BitM.run_bind, show (BitM.bits 16).run _ = _ from h2]
  simp only [BitM.run_pure, toUInt16_ofNat]

theorem streamBits_cons (lengthHack : Bool) (item : AckItem) (rest : List AckItem) :
    streamBits lengthHack (item :: rest)
      = item.bits lengthHack ++ streamBits lengthHack rest := by
  unfold streamBits
  rw [List.flatMap_cons, List.append_assoc]

/-- **The stream reads back** as the items it was written from. -/
theorem readAcks_streamBits : ∀ (items : List AckItem) {fuel : Nat} {buf : MessageBuffer},
    items.length < fuel → buf.Ahead (streamBits buf.lengthHack items) →
    (∀ item ∈ items, item.Valid buf.lengthHack) →
    buf.maxBit < buf.curBit + (streamBits buf.lengthHack items).length + 8 →
      readAcks fuel buf = some items := by
  intro items
  induction items with
  | nil =>
      intro fuel buf hfuel hahead _ hlast
      obtain ⟨fuel, rfl⟩ := Nat.exists_eq_succ_of_ne_zero (by omega : fuel ≠ 0)
      have hbits : streamBits buf.lengthHack [] = Bits.msb 3 Rec.«end».toNat ++ [] := by
        simp [streamBits]
      rw [hbits] at hahead
      obtain ⟨hread, -⟩ := readType_ahead (by decide) hahead
      rw [length_streamBits] at hlast
      unfold readAcks
      rw [hread]
      simp only [if_true]
      rw [if_pos (by simpa using hlast)]
  | cons item rest ih =>
      intro fuel buf hfuel hahead hvalid hlast
      obtain ⟨fuel, rfl⟩ := Nat.exists_eq_succ_of_ne_zero (by omega : fuel ≠ 0)
      rw [List.length_cons] at hfuel
      rw [streamBits_cons] at hahead hlast
      rw [List.length_append, AckItem.length_bits] at hlast
      have hitem := hvalid item List.mem_cons_self
      have hrest : ∀ i ∈ rest, i.Valid buf.lengthHack := fun i hi =>
        hvalid i (List.mem_cons_of_mem _ hi)
      cases item with
      | timestamp ts =>
          simp only [AckItem.bits, List.append_assoc, List.nil_append] at hahead
          obtain ⟨hty, hahead⟩ := readType_ahead (by decide) hahead
          obtain ⟨hts, hahead⟩ := hahead.field (by decide) (effectiveLen_plain _ (by decide))
            ts.toNat_lt
          rw [UInt32.ofNat_toNat] at hts
          unfold readAcks
          rw [hty]
          simp only [show Rec.timestamp ≠ Rec.«end» by decide, if_false, if_true]
          rw [show (BitM.bits 32).run _ = _ from hts]
          simp only
          rw [ih (by omega) hahead hrest (by simp only [AckItem.size] at hlast ⊢; omega)]
          rfl
      | record r =>
          simp only [AckItem.bits, List.append_assoc, List.nil_append] at hahead
          have hsmall : r.ty.toNat < 8 := by
            rcases hitem.1 with h | h | h
            · rw [h]
              decide
            · rw [h]
              decide
            · rw [h]
              decide
          have hne : r.ty ≠ Rec.«end» ∧ r.ty ≠ Rec.timestamp := by
            rcases hitem.1 with h | h | h
            · rw [h]
              decide
            · rw [h]
              decide
            · rw [h]
              decide
          obtain ⟨hty, hahead⟩ := readType_ahead hsmall hahead
          obtain ⟨buf', hr, hahead, hmax, hmode, hcur⟩ := readAckRecord_ahead hitem hahead rfl
          unfold readAcks
          rw [hty]
          simp only [hne.1, hne.2, if_false]
          rw [hr]
          simp only at hmax hmode hcur ⊢
          rw [← hmode] at hrest hlast hahead
          rw [ih (by omega) hahead hrest]
          · rfl
          · rw [hmode] at hlast ⊢
            simp only [AckItem.size] at hlast
            omega

/-! ### The ack packet -/

namespace ServerGameState

theorem ackRecord_shape (r : InboundRecord) (buf : MessageBuffer) :
    (ackRecord r buf).maxBit = buf.maxBit ∧ (ackRecord r buf).data.length = buf.data.length ∧
      (ackRecord r buf).lengthHack = buf.lengthHack := by
  have hwrite : ∀ (ty : UInt32) (id u : UInt16), BitW.KeepsShape (writeAckRecord ty id u) :=
    fun ty id u => (BitW.keepsShape_field _ _).and ((BitW.keepsShape_field _ _).and
      ((BitW.keepsShape_field _ _).and BitW.keepsShape_nil))
  cases r with
  | clone isCreate id u ty token data =>
      unfold ackRecord
      simp only
      split
      · exact ⟨rfl, rfl, rfl⟩
      · exact hwrite _ id u buf
  | remove id u => exact hwrite 3 id u buf
  | takeover target id => exact ⟨rfl, rfl, rfl⟩
  | timestamp ts =>
      exact ((BitW.keepsShape_field 5 3).seq ((BitW.keepsShape_field ts 32).seq
        fun _ => ⟨rfl, rfl, rfl⟩)) buf
  | index idx => exact ⟨rfl, rfl, rfl⟩

/-- The acks of a list of records, written to a buffer. -/
def ackAll (records : List InboundRecord) (buf : MessageBuffer) : MessageBuffer :=
  records.foldl (fun ack r => ackRecord r ack) buf

theorem ackAll_shape : ∀ (records : List InboundRecord) (buf : MessageBuffer),
    (ackAll records buf).maxBit = buf.maxBit ∧
      (ackAll records buf).data.length = buf.data.length ∧
      (ackAll records buf).lengthHack = buf.lengthHack := by
  intro records
  induction records with
  | nil =>
      intro buf
      exact ⟨rfl, rfl, rfl⟩
  | cons r rest ih =>
      intro buf
      obtain ⟨a1, a2, a3⟩ := ackRecord_shape r buf
      obtain ⟨b1, b2, b3⟩ := ih (ackRecord r buf)
      exact ⟨b1.trans a1, b2.trans a2, b3.trans a3⟩

/-- The buffer acks start in. -/
def ackBuffer (lengthHack : Bool) : MessageBuffer :=
  (MessageBuffer.new ackBufBytes).withLengthHack lengthHack

/-- The ack buffer at the end of a payload, `END` included if it fits. -/
def ackEnd (lengthHack : Bool) (records : List InboundRecord) : MessageBuffer :=
  (writeEnd (ackAll records (ackBuffer lengthHack))).2

/-- The body of the ack packet. -/
def ackBody (lengthHack : Bool) (records : List InboundRecord) : List UInt8 :=
  (ackEnd lengthHack records).data.take (ackEnd lengthHack records).dataLength

variable {F : Type} [Scalar F]

theorem countRecord_ackPackets (source : UInt32) (r : InboundRecord) (accepted : Bool)
    (o : IngestOutcome) : (countRecord source r accepted o).ackPackets = o.ackPackets := by
  have hrejected : (if accepted then o
      else { o with rejectedMutations := o.rejectedMutations + 1 }).ackPackets = o.ackPackets := by
    cases accepted <;> rfl
  cases r with
  | clone isCreate id u ty token data =>
      unfold countRecord
      simp only
      split
      · exact hrejected
      · split
        · exact hrejected
        · exact hrejected
  | remove id u => exact hrejected
  | takeover target id => exact hrejected
  | timestamp ts => exact hrejected
  | index idx => exact hrejected

theorem ingestRecords_ackPackets {source : UInt32} : ∀ {records : List InboundRecord}
    {s s' : ServerGameState F} {ack ack' : MessageBuffer} {o o' : IngestOutcome},
    ingestRecords source records s ack o = some (s', ack', o') →
      o'.ackPackets = o.ackPackets := by
  intro records
  induction records with
  | nil =>
      intro s s' ack ack' o o' h
      simp only [ingestRecords, Option.some.injEq, Prod.mk.injEq] at h
      rw [h.2.2]
  | cons r rest ih =>
      intro s s' ack ack' o o' h
      simp only [ingestRecords] at h
      obtain ⟨⟨t, ok⟩, -, h⟩ := Option.bind_eq_some_iff.mp h
      rw [ih h, countRecord_ackPackets]

/-- The ack buffer never stays empty: `END` fits, or something else filled it. -/
theorem ackEnd_pos (lengthHack : Bool) (records : List InboundRecord) :
    0 < (ackEnd lengthHack records).dataLength := by
  have hmax : (ackAll records (ackBuffer lengthHack)).maxBit = 4096 * 8 :=
    (ackAll_shape records _).1
  have hcur : 0 < (ackEnd lengthHack records).curBit := by
    unfold ackEnd writeEnd MessageBuffer.writeBitsSingle
    rw [effectiveLen_plain _ (by decide)]
    simp only
    split
    · simp only
      omega
    · simp only
      omega
  unfold MessageBuffer.dataLength
  split
  · omega
  · omega

theorem length_ackBody (lengthHack : Bool) (records : List InboundRecord) :
    (ackBody lengthHack records).length ≤ ackBufBytes := by
  have hlen : (ackEnd lengthHack records).data.length = ackBufBytes := by
    have h1 := (BitW.keepsShape_field Rec.«end» 3 (ackAll records (ackBuffer lengthHack))).2.1
    have h2 := (ackAll_shape records (ackBuffer lengthHack)).2.1
    exact h1.trans (h2.trans (by simp [ackBuffer, MessageBuffer.new, MessageBuffer.withLengthHack]))
  unfold ackBody
  rw [List.length_take, hlen]
  exact Nat.min_le_right _ _

/-- **A payload is answered by one ack packet**, made of the acks of its records. -/
theorem ingest_ackPacket {lz4 : Lz4} {s : ServerGameState F} (ok : TableOK s) {source : UInt32}
    {payload : List UInt8} {incoming : IncomingPacket}
    (hdec : decodeIncoming lz4 payload s.lengthHack = some incoming) :
    ∃ s' out frame, s.ingestClonePayload lz4 source payload = some (s', out) ∧
      out.ackPackets = [packFrame lz4 msgPackedAcks frame
        (ackBody s.lengthHack incoming.records)] := by
  obtain ⟨⟨t, ack, o⟩, hp⟩ := ok.addClient source |>.ingestRecords_total source
    (ackBuffer s.lengthHack) {} (decodeIncoming_inMode hdec)
  have hack : ack = ackAll incoming.records (ackBuffer s.lengthHack) :=
    (ingestRecords_history [] hp).2
  have hend : (writeEnd ack).2 = ackEnd s.lengthHack incoming.records := by
    rw [hack]
    rfl
  have hnone : o.ackPackets = [] := ingestRecords_ackPackets hp
  let frame : FrameIndex := ⟨true, 0, ((t.clients.lookup source).map (·.frameIndex)).getD 0⟩
  refine ⟨t, { o with ackPackets := o.ackPackets ++ [packFrame lz4 msgPackedAcks frame
    (ackBody s.lengthHack incoming.records)] }, frame, ?_, by simp only [hnone, List.nil_append]⟩
  unfold ingestClonePayload
  rw [hdec]
  simp only
  rw [show (MessageBuffer.new ackBufBytes).withLengthHack (s.addClient source).lengthHack
    = ackBuffer s.lengthHack from rfl, hp]
  simp only [Option.bind_eq_bind, Option.bind_some, hend]
  rw [if_pos (ackEnd_pos s.lengthHack incoming.records)]
  rfl

end ServerGameState

theorem drop_packFrame (lz4 : Lz4) (ty : UInt32) (frame : FrameIndex) (body : List UInt8) :
    (packFrame lz4 ty frame body).drop 12 = lz4.compressDefault body := by
  have hhead : (leBytes 4 ty.toNat ++ leBytes 8 frame.toU64.toNat).length = 12 := by
    simp [leBytes]
  unfold packFrame
  rw [← hhead, List.drop_left]

/-- A packet of a body reads as the body does. -/
theorem unpackAcks_packFrame {lz4 : Lz4} (lossless : ∀ body bound, body.length ≤ bound →
      lz4.decompressPlain (lz4.compressDefault body) bound = some body)
    (lengthHack : Bool) (ty : UInt32) (frame : FrameIndex) {body : List UInt8}
    (h : body.length ≤ ServerGameState.ackBufBytes) :
    unpackAcks lz4 lengthHack (packFrame lz4 ty frame body)
      = readAcks (body.length * 8) ((MessageBuffer.fromBytes body).withLengthHack lengthHack) := by
  unfold unpackAcks
  rw [drop_packFrame, lossless body _ h]
  rfl

/-- A body that reads as `items` is long enough for them. -/
theorem ackBody_overflow {lengthHack : Bool} {records : List InboundRecord}
    {items : List AckItem} {fuel : Nat}
    (h : readAcks fuel ((MessageBuffer.fromBytes
      (ServerGameState.ackBody lengthHack records)).withLengthHack lengthHack) = some items) :
    (items.map (·.size lengthHack)).sum + 3 ≤ 8 * ServerGameState.ackBufBytes := by
  have hbound := readAcks_bound fuel h
  have hlen := ServerGameState.length_ackBody lengthHack records
  simp only [MessageBuffer.withLengthHack, MessageBuffer.fromBytes] at hbound
  omega

/-- A stream that fits the ack buffer is written whole. -/
theorem ackEnd_bits {lengthHack : Bool} {records : List InboundRecord}
    (hfit : ((ackItems records).map (·.size lengthHack)).sum + 3
      ≤ 8 * ServerGameState.ackBufBytes) :
    (ServerGameState.ackBuffer lengthHack).Appended (ServerGameState.ackEnd lengthHack records)
      (streamBits lengthHack (ackItems records)) := by
  have hlen := length_streamBits lengthHack (ackItems records)
  unfold streamBits at hlen ⊢
  rw [List.length_append, Bits.length_msb, ← ServerGameState.flatMap_recordBits] at hlen
  rw [← ServerGameState.flatMap_recordBits]
  have hrecords : (ServerGameState.ackBuffer lengthHack).Appended
      (ServerGameState.ackAll records (ServerGameState.ackBuffer lengthHack))
      (records.flatMap (ServerGameState.recordBits lengthHack)) := by
    refine ServerGameState.ackRecords_append records rfl ?_ ?_
    · simp [ServerGameState.ackBuffer, MessageBuffer.new, MessageBuffer.withLengthHack]
    · simp only [ServerGameState.ackBuffer, MessageBuffer.new, MessageBuffer.withLengthHack]
      omega
  refine hrecords.trans ?_
  have hend : BitW.Appends lengthHack writeEnd (Bits.msb 3 Rec.«end».toNat) :=
    .field (by decide) (by simp) _
  refine (hend _ (hrecords.mode.trans rfl) ?_ ?_).2
  · rw [hrecords.bound, hrecords.size]
    simp [ServerGameState.ackBuffer, MessageBuffer.new, MessageBuffer.withLengthHack]
  · rw [hrecords.bound, hrecords.cursor, Bits.length_msb]
    simp only [ServerGameState.ackBuffer, MessageBuffer.new, MessageBuffer.withLengthHack]
    omega

theorem length_le_sizes (lengthHack : Bool) (items : List AckItem) :
    items.length ≤ (items.map (·.size lengthHack)).sum := by
  induction items with
  | nil => exact Nat.le_refl _
  | cons item rest ih =>
      have hpos : 1 ≤ item.size lengthHack := by
        cases item with
        | record r =>
            simp only [AckItem.size]
            omega
        | timestamp ts => exact Nat.le_add_left _ _
      rw [List.length_cons, List.map_cons, List.sum_cons]
      omega

/-- A stream that fits reads back from the body of the packet. -/
theorem readAcks_ackBody {lengthHack : Bool} {records : List InboundRecord}
    (hmode : ∀ r ∈ records, InMode lengthHack r)
    (hfit : ((ackItems records).map (·.size lengthHack)).sum + 3
      ≤ 8 * ServerGameState.ackBufBytes) :
    readAcks ((ServerGameState.ackBody lengthHack records).length * 8)
        ((MessageBuffer.fromBytes (ServerGameState.ackBody lengthHack records)).withLengthHack
          lengthHack) = some (ackItems records) := by
  have happ := ackEnd_bits hfit
  obtain ⟨hle, hlt⟩ := dataLength_bounds (ServerGameState.ackEnd lengthHack records)
  have hcur : (ServerGameState.ackEnd lengthHack records).curBit
      = (streamBits lengthHack (ackItems records)).length := by
    rw [happ.cursor]
    exact Nat.zero_add _
  have hbits : MessageBuffer.bitsFrom (ServerGameState.ackEnd lengthHack records).data 0
      (streamBits lengthHack (ackItems records)).length
        = streamBits lengthHack (ackItems records) := by
    have := happ.bits
    rw [hcur] at this
    exact this
  have hlen : (ServerGameState.ackBody lengthHack records).length
      = (ServerGameState.ackEnd lengthHack records).dataLength := by
    unfold ServerGameState.ackBody
    rw [List.length_take, happ.size]
    simp only [ServerGameState.ackBuffer, MessageBuffer.new, MessageBuffer.withLengthHack,
      List.length_replicate]
    rw [length_streamBits] at hcur
    omega
  have hcount := length_le_sizes lengthHack (ackItems records)
  rw [length_streamBits] at hcur
  refine readAcks_streamBits (ackItems records) (by omega) ⟨?_, ?_⟩ ?_ ?_
  · simp only [MessageBuffer.withLengthHack, MessageBuffer.fromBytes, length_streamBits]
    omega
  · simp only [MessageBuffer.withLengthHack, MessageBuffer.fromBytes, ServerGameState.ackBody]
    rw [MessageBuffer.bitsFrom_take _ (by rw [length_streamBits]; omega), hbits]
  · intro item hitem
    obtain ⟨r, hr, hri⟩ := List.mem_filterMap.mp hitem
    exact ackItem_valid (hmode r hr) hri
  · simp only [MessageBuffer.withLengthHack, MessageBuffer.fromBytes, length_streamBits]
    omega

/-- **The ack stream is complete exactly when it fits.**  In every reachable state, whatever
payload decodes, the ack packet reads as one ack for each create, sync, remove and
timestamp of the payload, in order, and `END`, if and only if these take no more than the
4096 bytes of the ack buffer. -/
theorem ack_stream_complete_iff {F : Type} [Scalar F] (lz4 : Lz4)
    (lossless : ∀ body bound, body.length ≤ bound →
      lz4.decompressPlain (lz4.compressDefault body) bound = some body)
    (bigMode lengthHack : Bool) (build : GameBuild) (ops : List (Op F)) {s : ServerGameState F}
    (hs : exec (step lz4) ops (ServerGameState.withBuild bigMode lengthHack build) = some s)
    (source : UInt32) (payload : List UInt8) {incoming : IncomingPacket}
    (hdec : decodeIncoming lz4 payload s.lengthHack = some incoming) :
    ∃ s' out packet, s.ingestClonePayload lz4 source payload = some (s', out) ∧
      out.ackPackets = [packet] ∧
      (unpackAcks lz4 s.lengthHack packet = some (ackItems incoming.records) ↔
        ((ackItems incoming.records).map (·.size s.lengthHack)).sum + 3
          ≤ 8 * ServerGameState.ackBufBytes) := by
  obtain ⟨s0, hs0, ok⟩ := exec_tableOK lz4 bigMode lengthHack build ops
  rw [hs] at hs0
  obtain rfl := Option.some.inj hs0
  obtain ⟨s', out, frame, hin, hout⟩ := ServerGameState.ingest_ackPacket ok hdec
  refine ⟨s', out, _, hin, hout, ?_⟩
  rw [unpackAcks_packFrame lossless _ _ _ (ServerGameState.length_ackBody _ _)]
  exact ⟨ackBody_overflow, readAcks_ackBody (decodeIncoming_inMode hdec)⟩

/-! ### A short payload and a long one -/

/-- A create of object 5, a timestamp 7 and a remove of the object. -/
def shortPayload : List UInt8 := LiteralRun.clonePayload
  [0x20, 0x00, 0x20, 0x05, 0x00, 0x00, 0x00, 0x00, 0x50, 0x00, 0xA0, 0x00, 0x00, 0x00, 0xEC, 0x00,
    0xA0, 0x00, 0x3C]

/-- The short payload is acked record by record. -/
theorem short_payload_acked :
    ∃ incoming s' out packet,
      decodeIncoming LiteralRun.lz4 shortPayload false = some incoming ∧
      ackItems incoming.records = [.record ⟨1, 5, 1⟩, .timestamp 7, .record ⟨3, 5, 1⟩] ∧
      (ServerGameState.withBuild false false default : ServerGameState Float32).ingestClonePayload
        LiteralRun.lz4 1 shortPayload = some (s', out) ∧
      out.ackPackets = [packet] ∧
      unpackAcks LiteralRun.lz4 false packet
        = some [.record ⟨1, 5, 1⟩, .timestamp 7, .record ⟨3, 5, 1⟩] := by
  have hdec : (decodeIncoming LiteralRun.lz4 shortPayload false).map (fun i => ackItems i.records)
      = some [.record ⟨1, 5, 1⟩, .timestamp 7, .record ⟨3, 5, 1⟩] := by decide +kernel
  obtain ⟨incoming, hdec, hitems⟩ := Option.map_eq_some_iff.mp hdec
  obtain ⟨s', out, packet, hin, hout, hiff⟩ := ack_stream_complete_iff LiteralRun.lz4
    LiteralRun.decode_encode false false default ([] : List (Op Float32)) rfl 1 shortPayload hdec
  refine ⟨incoming, s', out, packet, hdec, hitems, hin, hout, ?_⟩
  rw [← hitems]
  refine hiff.mpr ?_
  rw [hitems]
  decide

/-- A remove of object 5 with uniqifier 1. -/
def removeFive : List UInt8 := [0x60, 0x05, 0x00, 0x01]

/-- The bits of such a remove. -/
def removeBits : List Bool := Bits.msb 3 Rec.remove.toNat ++ (Bits.msb 13 5 ++ Bits.msb 16 1)

theorem bitsFrom_removes (m : Nat) :
    MessageBuffer.bitsFrom (List.replicate m removeFive).flatten 0 (m * 32)
      = (List.replicate m removeBits).flatten := by
  induction m with
  | zero => rfl
  | succ m ih =>
      rw [List.replicate_succ, List.replicate_succ, List.flatten_cons, List.flatten_cons,
        show (m + 1) * 32 = removeFive.length * 8 + m * 32 by
          simp only [removeFive, List.length_cons, List.length_nil]
          omega,
        MessageBuffer.bitsFrom_bytes_append, ih]
      congr 1

/-- As many removes as the stream holds are read. -/
theorem readRecords_removes : ∀ (m : Nat) {fuel : Nat} {buf : MessageBuffer}, m < fuel →
    buf.lengthHack = false → buf.Ahead (List.replicate m removeBits).flatten →
    buf.maxBit = buf.curBit + m * 32 →
      readRecords fuel buf = List.replicate m (.remove 5 1) := by
  intro m
  induction m with
  | zero =>
      intro fuel buf hfuel _ _ hmax
      obtain ⟨fuel, rfl⟩ := Nat.exists_eq_succ_of_ne_zero (by omega : fuel ≠ 0)
      unfold readRecords
      rw [if_pos (by simp [MessageBuffer.isAtEnd, hmax])]
      rfl
  | succ m ih =>
      intro fuel buf hfuel hmode hahead hmax
      obtain ⟨fuel, rfl⟩ := Nat.exists_eq_succ_of_ne_zero (by omega : fuel ≠ 0)
      rw [List.replicate_succ, List.flatten_cons] at hahead
      simp only [removeBits, List.append_assoc] at hahead
      obtain ⟨hty, hahead⟩ := readType_ahead (by decide) hahead
      obtain ⟨hid, hahead⟩ := hahead.field (n := 13) (by decide)
        (show _ = 13 by rw [effectiveLen_id]; simp only [hmode]; rfl) (by decide)
      obtain ⟨hu, hahead⟩ := hahead.field (by decide) (effectiveLen_plain _ (by decide)) (by decide)
      have hbody : (readInbound Rec.remove).run { buf with curBit := buf.curBit + 3 }
          = (some (.remove 5 1), { buf with curBit := buf.curBit + 3 + 13 + 16 }) := by
        show ((BitM.bits 13 >>= fun objectId => BitM.bits 16 >>= fun uniqifier =>
          pure (.remove objectId.toUInt16 uniqifier.toUInt16) : BitM InboundRecord)).run _ = _
        rw [BitM.run_bind, show (BitM.bits 13).run _ = _ from hid]
        simp only
        rw [BitM.run_bind, show (BitM.bits 16).run _ = _ from hu]
        rfl
      unfold readRecords
      rw [if_neg (by simp only [MessageBuffer.isAtEnd, decide_eq_true_eq]; omega),
        show buf.readBitsSingle 3 = _ from hty]
      simp only
      rw [hbody, List.replicate_succ]
      simp only [List.cons.injEq, true_and]
      exact ih (by omega) hmode hahead (by simp only; omega)

/-- A payload of `m` removes. -/
def removesPayload (m : Nat) : List UInt8 :=
  LiteralRun.clonePayload (List.replicate m removeFive).flatten

theorem decode_removesPayload {m : Nat} (hm : m * 4 ≤ inboundScratch) (hpos : 0 < m) :
    decodeIncoming LiteralRun.lz4 (removesPayload m) false
      = some ⟨netClones, List.replicate m (.remove 5 1)⟩ := by
  have hlen : (List.replicate m removeFive).flatten.length = m * 4 := by
    simp [removeFive]
  have hbits : (List.replicate m removeBits).flatten.length = m * 32 := by
    simp [removeBits]
  unfold removesPayload
  rw [LiteralRun.decodeIncoming_clonePayload (by rw [hlen]; exact hm), hlen]
  congr 2
  refine readRecords_removes m (by omega) rfl ⟨?_, ?_⟩ ?_
  · simp only [MessageBuffer.withLengthHack, MessageBuffer.fromBytes, hlen, hbits]
    omega
  · rw [hbits]
    exact bitsFrom_removes m
  · simp only [MessageBuffer.withLengthHack, MessageBuffer.fromBytes, hlen]
    omega

/-- The acks of 1024 removes fill the ack buffer, and `END` does not fit any more. -/
theorem long_payload_not_acked :
    ∃ incoming s' out packet,
      decodeIncoming LiteralRun.lz4 (removesPayload 1024) false = some incoming ∧
      (ServerGameState.withBuild false false default : ServerGameState Float32).ingestClonePayload
        LiteralRun.lz4 1 (removesPayload 1024) = some (s', out) ∧
      out.ackPackets = [packet] ∧
      unpackAcks LiteralRun.lz4 false packet ≠ some (ackItems incoming.records) := by
  have ok : TableOK (ServerGameState.withBuild false false default : ServerGameState Float32) :=
    TableOK.withBuild false false default
  have hdec := decode_removesPayload (m := 1024) (by decide) (by decide)
  obtain ⟨s', out, frame, hin, hout⟩ := ServerGameState.ingest_ackPacket ok hdec
  refine ⟨_, s', out, _, hdec, hin, hout, ?_⟩
  rw [unpackAcks_packFrame LiteralRun.decode_encode _ _ _ (ServerGameState.length_ackBody _ _)]
  intro h
  have hsum : ∀ m, ((ackItems (List.replicate m (.remove 5 1))).map (·.size false)).sum
      = m * 32 := by
    intro m
    unfold ackItems
    rw [List.filterMap_replicate_of_some (show ackItem (.remove 5 1) = some (.record ⟨3, 5, 1⟩)
      from rfl)]
    simp [AckItem.size]
  have hbound : ((ackItems (List.replicate 1024 (.remove 5 1))).map (·.size false)).sum + 3
      ≤ 8 * ServerGameState.ackBufBytes := ackBody_overflow h
  rw [hsum] at hbound
  exact absurd hbound (by decide)

end Baston.Zone
