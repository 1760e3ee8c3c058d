/-
The packed writer as batches of records.

A writer is followed by the list of the records in each fragment it has sent and of those
in the batch it is filling.  When a batch is flushed depends on nothing but the sizes of
the records, so the batches of a sequence of calls can be told without the buffer; the
theorem at the end says that the packets are exactly these batches, bit by bit.
-/
import Baston.Proofs.Blobs
import Baston.Rage.Packet

namespace Baston.Rage

open MessageBuffer

/-! ### The bits of a record -/

/-- A record as it is handed to the writer. -/
inductive Written
  | timestamp (ts : UInt64)
  | clone (c : OutboundClone)
  | remove (forceSteal : Bool) (objectId uniqifier : UInt16)
  deriving DecidableEq

/-- The fields of a create or sync record up to its blob. -/
def OutboundClone.header (c : OutboundClone) : List (Nat × UInt32) :=
  [(3, c.syncType), (13, c.objectId.toUInt32), (16, c.ownerNetId.toUInt32)]
    ++ (if c.syncType = Rec.create then
        [(entityTypeBits, ((c.entityType.map NetObjEntityType.toU8).getD 0).toUInt32),
          (32, c.creationToken)]
      else [])
    ++ [(16, (if c.firstFrameUpdate then ~~~c.uniqifier else c.uniqifier).toUInt32),
      (32, (c.dependentFrameIndex >>> 32).toUInt32), (32, c.dependentFrameIndex.toUInt32),
      (32, c.timestamp), (12, UInt32.ofNat c.data.length)]

/-- The bits of a create or sync record.  A blob that does not even fit an empty batch is
left out. -/
def OutboundClone.bits (lengthHack : Bool) (c : OutboundClone) : List Bool :=
  fieldsBits lengthHack c.header
    ++ if (fieldsBits lengthHack c.header).length + c.data.length * 8 ≤ workBufBytes * 8 then
        bitsFrom c.data 0 (c.data.length * 8)
      else []

def Written.bits (lengthHack : Bool) : Written → List Bool
  | .timestamp ts => fieldsBits lengthHack
      [(3, Rec.timestamp), (32, ts.toUInt32), (32, (ts >>> 32).toUInt32)]
  | .clone c => c.bits lengthHack
  | .remove forceSteal objectId uniqifier =>
    fieldsBits lengthHack [(3, Rec.remove)] ++ ([forceSteal]
      ++ fieldsBits lengthHack [(13, objectId.toUInt32), (16, uniqifier.toUInt32)])

/-- The bits of a batch. -/
def batchBits (lengthHack : Bool) (batch : List Written) : List Bool :=
  batch.flatMap (·.bits lengthHack)

theorem batchBits_append (lengthHack : Bool) (batch : List Written) (r : Written) :
    batchBits lengthHack (batch ++ [r]) = batchBits lengthHack batch ++ r.bits lengthHack := by
  unfold batchBits
  rw [List.flatMap_append, List.flatMap_singleton]

/-- The bits of a fragment: its batch, and `END` if that still fits. -/
def fragmentBits (lengthHack : Bool) (batch : List Written) : List Bool :=
  batchBits lengthHack batch
    ++ if (batchBits lengthHack batch).length + 3 ≤ workBufBytes * 8 then
        fieldsBits lengthHack [(3, Rec.«end»)]
      else []

/-! ### Batches -/

/-- A call on a packed writer. -/
inductive WriterCall
  | clone (timestamp : UInt64) (c : OutboundClone)
  | remove (forceSteal : Bool) (objectId uniqifier : UInt16)

/-- The batches of the fragments sent, and the batch that is being filled. -/
structure Batches where
  sent : List (List Written) := []
  batch : List Written := []

namespace Batches

/-- `nextBits` more bits behind `bits` could exceed the budget. -/
def overBudget (bits nextBits : Nat) : Bool :=
  let projected := (bits + 7) / 8 + (nextBits + 7) / 8
  projected + projected / 255 + 16 > flushBudgetBytes

/-- The bits a record may take in the writer's own estimate. -/
def estimate : Written → Nat
  | .timestamp _ => 3 + 32 + 32
  | .clone c => 3 + 16 + 16 + 4 + 32 + 16 + 64 + 32 + 12 + c.data.length * 8
  | .remove .. => 3 + 1 + 16 + 16

/-- The batch so far is full for one more record. -/
def full (lengthHack : Bool) (batch : List Written) (r : Written) : Bool :=
  (batchBits lengthHack batch).length ≠ 0
    && overBudget (batchBits lengthHack batch).length (estimate r)

/-- Append a record, after a flush when the batch is full for it. -/
def push (lengthHack : Bool) (r : Written) (b : Batches) : Batches :=
  if full lengthHack b.batch r then ⟨b.sent ++ [b.batch], [r]⟩ else ⟨b.sent, b.batch ++ [r]⟩

/-- The batch holds a timestamp. -/
def timed (batch : List Written) : Bool :=
  batch.any fun r => match r with
    | .timestamp _ => true
    | _ => false

/-- A timestamp, unless the batch has one. -/
def ensureTimestamp (lengthHack : Bool) (ts : UInt64) (b : Batches) : Batches :=
  if timed b.batch then b else b.push lengthHack (.timestamp ts)

def write (lengthHack : Bool) (b : Batches) : WriterCall → Batches
  | .clone ts c => (b.ensureTimestamp lengthHack ts).push lengthHack (.clone c)
  | .remove forceSteal objectId uniqifier =>
    b.push lengthHack (.remove forceSteal objectId uniqifier)

/-- The batches after a sequence of calls. -/
def ofCalls (lengthHack : Bool) (calls : List WriterCall) : Batches :=
  calls.foldl (write lengthHack) {}

/-- Every fragment, the last one included. -/
def fragments (b : Batches) : List (List Written) := b.sent ++ [b.batch]

end Batches

/-- One call on the writer. -/
def PackedWriter.write (lz4 : Lz4) (w : PackedWriter) : WriterCall → PackedWriter
  | .clone ts c => w.writeClone lz4 ts c
  | .remove forceSteal objectId uniqifier => w.writeRemove lz4 forceSteal objectId uniqifier

/-- The packets of a sequence of calls. -/
def packedStream (lz4 : Lz4) (msgType : UInt32) (frameIndex : UInt64) (lengthHack : Bool)
    (calls : List WriterCall) : List (List UInt8) :=
  (calls.foldl (PackedWriter.write lz4) (.new msgType frameIndex lengthHack)).finish lz4

/-! ### Records into the buffer -/

theorem header_le (c : OutboundClone) : ∀ f ∈ c.header, f.1 ≤ 32 := by
  by_cases hc : c.syncType = Rec.create
  · simp [OutboundClone.header, hc, entityTypeBits]
  · simp [OutboundClone.header, hc]

/-- The blob behind a header. -/
def writeBlob (data : List UInt8) : BitW :=
  if data = [] then BitW.all [] else writeBits data (data.length * 8)

theorem writeOutboundClone_eq (c : OutboundClone) :
    writeOutboundClone c = BitW.and (BitW.fields c.header) (writeBlob c.data) := by
  unfold writeOutboundClone BitW.fields OutboundClone.header
  rw [List.map_append, List.map_append, BitW.all_append, BitW.all_append, BitW.and_assoc,
    BitW.and_assoc]
  congr 1
  by_cases hc : c.syncType = Rec.create
  · simp only [if_pos hc]
    congr 1
    rw [← BitW.all_singleton (writeBlob c.data), ← BitW.all_append]
    rfl
  · simp only [if_neg hc]
    congr 1
    rw [← BitW.all_singleton (writeBlob c.data), ← BitW.all_append]
    rfl

/-- A header is never longer than the writer's estimate of it. -/
theorem length_header_le (lengthHack : Bool) (c : OutboundClone) :
    (fieldsBits lengthHack c.header).length ≤ 195 := by
  rw [length_fieldsBits]
  unfold OutboundClone.header
  by_cases hc : c.syncType = Rec.create
  · rw [if_pos hc]
    cases lengthHack <;> simp [fieldWidth, entityTypeBits]
  · rw [if_neg hc]
    cases lengthHack <;> simp [fieldWidth]

/-- What a record appends to a batch: all of its bits, if the batch is empty or the estimate
fits the buffer. -/
def Writes (lengthHack : Bool) (writer : BitW) (r : Written) : Prop :=
  ∀ buf : MessageBuffer, buf.lengthHack = lengthHack → buf.maxBit = workBufBytes * 8 →
    buf.data.length = workBufBytes →
    (buf.curBit = 0 ∨ buf.curBit + Batches.estimate r ≤ workBufBytes * 8) →
    Appended buf (writer buf).2 (r.bits lengthHack)

theorem writes_timestamp {lengthHack : Bool} (ts : UInt64) :
    Writes lengthHack (writeOutboundTimestamp ts) (.timestamp ts) := by
  intro buf hmode hmax hsize hroom
  have happ : BitW.Appends lengthHack (BitW.fields
      [(3, Rec.timestamp), (32, ts.toUInt32), (32, (ts >>> 32).toUInt32)]) _ :=
    .fields (by simp)
  refine (happ buf hmode (by rw [hmax, hsize]) ?_).2
  rw [length_fieldsBits, hmax]
  simp only [Batches.estimate, workBufBytes, List.map_cons, List.map_nil, fieldWidth,
    List.sum_cons, List.sum_nil] at hroom ⊢
  cases lengthHack <;> simp <;> omega

theorem writes_remove {lengthHack : Bool} (forceSteal : Bool) (objectId uniqifier : UInt16) :
    Writes lengthHack (writeOutboundRemove forceSteal objectId uniqifier)
      (.remove forceSteal objectId uniqifier) := by
  intro buf hmode hmax hsize hroom
  have hhead : BitW.Appends lengthHack (BitW.fields [(3, Rec.remove)]) _ := .fields (by simp)
  have htail : BitW.Appends lengthHack
      (BitW.fields [(13, objectId.toUInt32), (16, uniqifier.toUInt32)]) _ := .fields (by simp)
  have happ := hhead.and ((BitW.Appends.bit forceSteal).and htail)
  have heq : writeOutboundRemove forceSteal objectId uniqifier
      = BitW.and (BitW.fields [(3, Rec.remove)]) (BitW.and (writeBit forceSteal)
        (BitW.fields [(13, objectId.toUInt32), (16, uniqifier.toUInt32)])) := by
    show BitW.all ([writeBitsSingle Rec.remove 3] ++ ([writeBit forceSteal] ++ [_, _])) = _
    rw [BitW.all_append, BitW.all_append, BitW.all_singleton (writeBit forceSteal)]
    rfl
  rw [heq]
  refine (happ buf hmode (by rw [hmax, hsize]) ?_).2
  rw [List.length_append, List.length_append, length_fieldsBits, length_fieldsBits, hmax]
  simp only [Batches.estimate, workBufBytes, List.map_cons, List.map_nil, fieldWidth,
    List.sum_cons, List.sum_nil, List.length_singleton] at hroom ⊢
  cases lengthHack <;> simp <;> omega

theorem writes_clone {lengthHack : Bool} (c : OutboundClone) :
    Writes lengthHack (writeOutboundClone c) (.clone c) := by
  intro buf hmode hmax hsize hroom
  have hle := length_header_le lengthHack c
  have hhead : BitW.Appends lengthHack (BitW.fields c.header) _ := .fields (header_le c)
  simp only [Batches.estimate] at hroom
  have hhroom : buf.curBit + (fieldsBits lengthHack c.header).length ≤ buf.maxBit := by
    rw [hmax]
    unfold workBufBytes at hroom ⊢
    omega
  obtain ⟨hok, happ⟩ := hhead buf hmode (by rw [hmax, hsize]) hhroom
  rw [writeOutboundClone_eq]
  have hthen : (BitW.and (BitW.fields c.header) (writeBlob c.data) buf).2
      = (writeBlob c.data (BitW.fields c.header buf).2).2 := by
    unfold BitW.and
    rcases h : BitW.fields c.header buf with ⟨ok, mid⟩
    rw [h] at hok
    rw [show ok = true from hok]
  rw [hthen]
  refine happ.trans ?_
  generalize (BitW.fields c.header buf).2 = mid at happ
  unfold writeBlob
  by_cases hnil : c.data = []
  · rw [if_pos hnil, hnil]
    simp only [List.length_nil, Nat.zero_mul]
    split <;> exact .refl mid
  · rw [if_neg hnil]
    by_cases hfit : (fieldsBits lengthHack c.header).length + c.data.length * 8
        ≤ workBufBytes * 8
    · rw [if_pos hfit]
      have hblob : BitW.Appends lengthHack (writeBits c.data (c.data.length * 8)) _ :=
        .blob (Nat.le_refl _)
      refine (hblob mid (happ.mode.trans hmode) (by rw [happ.bound, happ.size, hmax, hsize]) ?_).2
      rw [happ.cursor, happ.bound, length_bitsFrom, hmax]
      omega
    · rw [if_neg hfit]
      unfold writeBits
      rw [if_pos]
      · exact .refl mid
      · rw [happ.cursor, happ.bound, hmax]
        omega

/-- A record takes no more than an empty batch holds, and no more than its estimate. -/
theorem Written.length_bits_le (lengthHack : Bool) (r : Written) :
    (r.bits lengthHack).length ≤ workBufBytes * 8
      ∧ (r.bits lengthHack).length ≤ Batches.estimate r := by
  cases r with
  | timestamp ts =>
      simp only [Written.bits, length_fieldsBits, Batches.estimate, workBufBytes, List.map_cons,
        List.map_nil, fieldWidth, List.sum_cons, List.sum_nil]
      cases lengthHack <;> simp
  | remove forceSteal objectId uniqifier =>
      simp only [Written.bits, List.length_append, length_fieldsBits, Batches.estimate,
        workBufBytes, List.map_cons, List.map_nil, fieldWidth, List.sum_cons, List.sum_nil,
        List.length_singleton]
      cases lengthHack <;> simp
  | clone c =>
      have hle := length_header_le lengthHack c
      simp only [Written.bits, OutboundClone.bits, List.length_append, Batches.estimate]
      unfold workBufBytes
      split
      · rw [length_bitsFrom]
        omega
      · rw [List.length_nil]
        omega

/-! ### The writer follows its batches -/

/-- A fresh batch. -/
def freshBuffer (lengthHack : Bool) : MessageBuffer :=
  (MessageBuffer.new workBufBytes).withLengthHack lengthHack

/-- The body of a fragment: its bits, in as few bytes as hold them. -/
structure Carries (lengthHack : Bool) (body : List UInt8) (batch : List Written) : Prop where
  length : body.length = ((fragmentBits lengthHack batch).length + 7) / 8
  bits : bitsFrom body 0 (fragmentBits lengthHack batch).length = fragmentBits lengthHack batch

section Stream

variable (lz4 : Lz4) (msgType : UInt32) (frameIndex : UInt64) (lengthHack : Bool)

/-- The `n`th fragment of a frame. -/
def IsFragment (last : Bool) (n : Nat) (packet : List UInt8) (batch : List Written) : Prop :=
  ∃ body, Carries lengthHack body batch
    ∧ packet = packFrame lz4 msgType ⟨last, UInt8.ofNat n &&& 0x7F, frameIndex⟩ body

/-- The packets are the batches in order, numbered from 1. -/
structure Packed (packets : List (List UInt8)) (sent : List (List Written)) : Prop where
  length : packets.length = sent.length
  fragment : ∀ n packet batch, packets[n]? = some packet → sent[n]? = some batch →
    IsFragment lz4 msgType frameIndex lengthHack false (n + 1) packet batch

/-- The writer has sent and holds what the batches say. -/
structure Represents (w : PackedWriter) (b : Batches) : Prop where
  tag : w.msgType = msgType
  frame : w.frameIndex = frameIndex
  mode : w.lengthHack = lengthHack
  buf : (freshBuffer lengthHack).Appended w.buf (batchBits lengthHack b.batch)
  fits : (batchBits lengthHack b.batch).length ≤ workBufBytes * 8
  time : w.hadTime = Batches.timed b.batch
  fragment : w.fragment = UInt8.ofNat b.sent.length
  packets : Packed lz4 msgType frameIndex lengthHack w.packets b.sent

end Stream

namespace Represents

variable {lz4 : Lz4} {msgType : UInt32} {frameIndex : UInt64} {lengthHack : Bool}
  {w : PackedWriter} {b : Batches}

theorem new : Represents lz4 msgType frameIndex lengthHack (.new msgType frameIndex lengthHack)
    {} where
  tag := rfl
  frame := rfl
  mode := rfl
  buf := .refl _
  fits := Nat.zero_le _
  time := rfl
  fragment := rfl
  packets := ⟨rfl, by simp [PackedWriter.new]⟩

theorem curBit (h : Represents lz4 msgType frameIndex lengthHack w b) :
    w.buf.curBit = (batchBits lengthHack b.batch).length :=
  h.buf.cursor.trans (Nat.zero_add _)

theorem maxBit (h : Represents lz4 msgType frameIndex lengthHack w b) :
    w.buf.maxBit = workBufBytes * 8 := h.buf.bound

theorem size (h : Represents lz4 msgType frameIndex lengthHack w b) :
    w.buf.data.length = workBufBytes :=
  h.buf.size.trans (List.length_replicate)

/-- The batch with `END` behind it is the body of a fragment. -/
theorem body (h : Represents lz4 msgType frameIndex lengthHack w b) :
    Carries lengthHack ((writeEnd w.buf).2.data.take (writeEnd w.buf).2.dataLength) b.batch := by
  have happ : (freshBuffer lengthHack).Appended (writeEnd w.buf).2
      (fragmentBits lengthHack b.batch) := by
    refine h.buf.trans ?_
    have hcur := h.curBit
    have hmax := h.maxBit
    by_cases hfit : (batchBits lengthHack b.batch).length + 3 ≤ workBufBytes * 8
    · rw [if_pos hfit]
      have hend : BitW.Appends lengthHack (BitW.fields [(3, Rec.«end»)]) _ := .fields (by simp)
      have hone : writeEnd = BitW.fields [(3, Rec.«end»)] := (BitW.all_singleton _).symm
      rw [hone]
      refine (hend w.buf h.buf.mode (by rw [h.maxBit, h.size]) ?_).2
      rw [length_fieldsBits, hmax, hcur]
      simp only [fieldWidth, List.map_cons, List.map_nil, List.sum_cons, List.sum_nil]
      simpa using hfit
    · rw [if_neg hfit]
      unfold writeEnd writeBitsSingle
      rw [effectiveLen_plain _ (by decide), if_pos (by omega)]
      exact .refl _
  have hle : (fragmentBits lengthHack b.batch).length ≤ workBufBytes * 8 := by
    have hfits := h.fits
    unfold fragmentBits
    split
    · rw [List.length_append, length_fieldsBits]
      simp only [fieldWidth, List.map_cons, List.map_nil, List.sum_cons, List.sum_nil]
      simpa
    · rw [List.append_nil]
      exact hfits
  generalize (writeEnd w.buf).2 = buf at happ
  have hcur : buf.curBit = (fragmentBits lengthHack b.batch).length :=
    happ.cursor.trans (Nat.zero_add _)
  have hsize : buf.data.length = workBufBytes := happ.size.trans (List.length_replicate)
  have hbytes : buf.dataLength = ((fragmentBits lengthHack b.batch).length + 7) / 8 := by
    have := dataLength_bounds buf
    omega
  refine ⟨?_, ?_⟩
  · rw [List.length_take, hsize, hbytes]
    omega
  · rw [bitsFrom_take _ (by omega), ← hcur]
    exact happ.bits

theorem emit_packets (h : Represents lz4 msgType frameIndex lengthHack w b) (last : Bool) :
    ∃ packet, (w.emit lz4 last).packets = w.packets ++ [packet]
      ∧ IsFragment lz4 msgType frameIndex lengthHack last (b.sent.length + 1) packet b.batch := by
  refine ⟨_, rfl, _, h.body, ?_⟩
  rw [h.tag, h.frame, h.fragment]
  have hnext : UInt8.ofNat b.sent.length + 1 = UInt8.ofNat (b.sent.length + 1) := by
    rw [UInt8.ofNat_add]
    rfl
  rw [hnext]

/-- A batch that is not empty is flushed whole. -/
theorem flushFragment (h : Represents lz4 msgType frameIndex lengthHack w b)
    (hne : (batchBits lengthHack b.batch).length ≠ 0) :
    Represents lz4 msgType frameIndex lengthHack (w.flushFragment lz4)
      ⟨b.sent ++ [b.batch], []⟩ := by
  have hused : w.buf.dataLength ≠ 0 := by
    have hbytes := dataLength_bounds w.buf
    rw [h.curBit] at hbytes
    omega
  obtain ⟨packet, hpackets, hpacket⟩ := h.emit_packets false
  unfold PackedWriter.flushFragment
  rw [if_neg hused]
  refine ⟨h.tag, h.frame, h.mode, ?_, Nat.zero_le _, rfl, ?_, ?_, ?_⟩
  · rw [h.mode]
    exact .refl _
  · show w.fragment + 1 = UInt8.ofNat (b.sent ++ [b.batch]).length
    rw [h.fragment, List.length_append, List.length_singleton, UInt8.ofNat_add]
    rfl
  · show (w.emit lz4 false).packets.length = (b.sent ++ [b.batch]).length
    rw [hpackets, List.length_append, List.length_append, h.packets.length, List.length_singleton,
      List.length_singleton]
  · intro n p batch hp hb
    replace hp : (w.emit lz4 false).packets[n]? = some p := hp
    rw [hpackets] at hp
    by_cases hn : n < b.sent.length
    · rw [List.getElem?_append_left hn] at hb
      rw [List.getElem?_append_left (by rw [h.packets.length]; exact hn)] at hp
      exact h.packets.fragment n p batch hp hb
    · have hlen := (List.getElem?_eq_some_iff.mp hb).1
      rw [List.length_append, List.length_singleton] at hlen
      obtain rfl : n = b.sent.length := by omega
      rw [List.getElem?_concat_length] at hb
      rw [← h.packets.length, List.getElem?_concat_length] at hp
      rw [← Option.some.inj hp, ← Option.some.inj hb]
      exact hpacket

/-- The batch after a flush, if there is one, has room for the record it was made for. -/
theorem maybeFlush (h : Represents lz4 msgType frameIndex lengthHack w b) (r : Written) :
    ∃ b', Represents lz4 msgType frameIndex lengthHack (w.maybeFlush lz4 (Batches.estimate r)) b'
      ∧ ((batchBits lengthHack b'.batch).length = 0
        ∨ (batchBits lengthHack b'.batch).length + Batches.estimate r ≤ workBufBytes * 8)
      ∧ b.push lengthHack r = ⟨b'.sent, b'.batch ++ [r]⟩ := by
  have hover : ((w.buf.dataLength + (Batches.estimate r + 7) / 8)
      + (w.buf.dataLength + (Batches.estimate r + 7) / 8) / 255 + 16 > flushBudgetBytes)
      ↔ Batches.overBudget (batchBits lengthHack b.batch).length (Batches.estimate r) = true := by
    have hbytes : w.buf.dataLength = ((batchBits lengthHack b.batch).length + 7) / 8 := by
      have := dataLength_bounds w.buf
      have := h.curBit
      omega
    rw [hbytes]
    simp [Batches.overBudget]
  unfold PackedWriter.maybeFlush
  simp only
  by_cases ho : Batches.overBudget (batchBits lengthHack b.batch).length (Batches.estimate r) = true
  · rw [if_pos (hover.mpr ho)]
    by_cases hne : (batchBits lengthHack b.batch).length = 0
    · -- nothing to flush: the record goes into the empty batch, whatever its size
      have hempty : w.flushFragment lz4 = w := by
        have hbytes := dataLength_bounds w.buf
        rw [h.curBit] at hbytes
        unfold PackedWriter.flushFragment
        rw [if_pos (by omega)]
      rw [hempty]
      refine ⟨b, h, .inl hne, ?_⟩
      unfold Batches.push Batches.full
      rw [if_neg (by simp [hne])]
    · refine ⟨_, h.flushFragment hne, .inl rfl, ?_⟩
      unfold Batches.push Batches.full
      rw [ho, if_pos (by simpa using hne)]
      rfl
  · rw [if_neg fun hc => ho (hover.mp hc)]
    refine ⟨b, h, .inr ?_, ?_⟩
    · simp [Batches.overBudget, flushBudgetBytes] at ho
      unfold workBufBytes
      omega
    · unfold Batches.push Batches.full
      rw [if_neg (by simp [ho])]

/-- A record that the batch has room for is appended to it. -/
theorem append (h : Represents lz4 msgType frameIndex lengthHack w b) {r : Written}
    {writer : BitW} (hwrites : Writes lengthHack writer r)
    (hroom : (batchBits lengthHack b.batch).length = 0
      ∨ (batchBits lengthHack b.batch).length + Batches.estimate r ≤ workBufBytes * 8)
    {hadTime : Bool} (htime : hadTime = Batches.timed (b.batch ++ [r])) :
    Represents lz4 msgType frameIndex lengthHack
      { w with buf := (writer w.buf).2, hadTime := hadTime } ⟨b.sent, b.batch ++ [r]⟩ := by
  have happ := hwrites w.buf h.buf.mode h.maxBit h.size (by rw [h.curBit]; exact hroom)
  have hbits := batchBits_append lengthHack b.batch r
  refine ⟨h.tag, h.frame, h.mode, ?_, ?_, htime, h.fragment, h.packets⟩
  · show (freshBuffer lengthHack).Appended (writer w.buf).2 _
    rw [hbits]
    exact h.buf.trans happ
  · show (batchBits lengthHack (b.batch ++ [r])).length ≤ _
    have hle := r.length_bits_le lengthHack
    rw [hbits, List.length_append]
    omega

theorem timed_append_clone (batch : List Written) (c : OutboundClone) :
    Batches.timed (batch ++ [.clone c]) = Batches.timed batch := by
  simp [Batches.timed]

theorem timed_append_remove (batch : List Written) (forceSteal : Bool) (id u : UInt16) :
    Batches.timed (batch ++ [.remove forceSteal id u]) = Batches.timed batch := by
  simp [Batches.timed]

theorem ensureTimestamp (h : Represents lz4 msgType frameIndex lengthHack w b) (ts : UInt64) :
    Represents lz4 msgType frameIndex lengthHack (w.ensureTimestamp lz4 ts)
      (b.ensureTimestamp lengthHack ts) := by
  unfold PackedWriter.ensureTimestamp Batches.ensureTimestamp
  rw [h.time]
  by_cases htimed : Batches.timed b.batch
  · rw [if_pos htimed, if_pos htimed]
    exact h
  · rw [if_neg htimed, if_neg htimed]
    obtain ⟨b', h', hroom, hpush⟩ := h.maybeFlush (.timestamp ts)
    rw [hpush]
    exact h'.append (writes_timestamp ts) hroom (by simp [Batches.timed])

/-- One call adds its records to the batches. -/
theorem write (h : Represents lz4 msgType frameIndex lengthHack w b) (call : WriterCall) :
    Represents lz4 msgType frameIndex lengthHack (w.write lz4 call) (b.write lengthHack call) := by
  cases call with
  | clone ts c =>
      obtain ⟨b', h', hroom, hpush⟩ := (h.ensureTimestamp ts).maybeFlush (.clone c)
      simp only [Batches.write, hpush]
      exact h'.append (writes_clone c) hroom (h'.time.trans (timed_append_clone _ c).symm)
  | remove forceSteal objectId uniqifier =>
      obtain ⟨b', h', hroom, hpush⟩ := h.maybeFlush (.remove forceSteal objectId uniqifier)
      simp only [Batches.write, hpush]
      exact h'.append (writes_remove forceSteal objectId uniqifier) hroom
        (h'.time.trans (timed_append_remove _ forceSteal objectId uniqifier).symm)

theorem writeAll : ∀ (calls : List WriterCall) {w : PackedWriter} {b : Batches},
    Represents lz4 msgType frameIndex lengthHack w b →
      Represents lz4 msgType frameIndex lengthHack (calls.foldl (PackedWriter.write lz4) w)
        (calls.foldl (Batches.write lengthHack) b) := by
  intro calls
  induction calls with
  | nil =>
      intro w b h
      exact h
  | cons call rest ih =>
      intro w b h
      exact ih (h.write call)

end Represents

/-- **The packets of a stream are its fragments**, numbered from 1, the last one flagged. -/
theorem packedStream_fragments (lz4 : Lz4) (msgType : UInt32) (frameIndex : UInt64)
    (lengthHack : Bool) (calls : List WriterCall) :
    (packedStream lz4 msgType frameIndex lengthHack calls).length
        = (Batches.ofCalls lengthHack calls).fragments.length
      ∧ ∀ n packet batch,
        (packedStream lz4 msgType frameIndex lengthHack calls)[n]? = some packet →
        (Batches.ofCalls lengthHack calls).fragments[n]? = some batch →
          IsFragment lz4 msgType frameIndex lengthHack
            (n + 1 = (Batches.ofCalls lengthHack calls).fragments.length) (n + 1) packet batch := by
  have h : Represents lz4 msgType frameIndex lengthHack _ (Batches.ofCalls lengthHack calls) :=
    Represents.writeAll calls .new
  obtain ⟨packet, hpackets, hpacket⟩ := h.emit_packets true
  have hstream : packedStream lz4 msgType frameIndex lengthHack calls = _ ++ [packet] := hpackets
  have hlen := h.packets.length
  generalize Batches.ofCalls lengthHack calls = b at h hpacket hlen ⊢
  rw [hstream]
  unfold Batches.fragments
  refine ⟨by simp [hlen], ?_⟩
  intro n p batch hp hb
  rw [List.length_append, List.length_singleton]
  by_cases hn : n < b.sent.length
  · rw [List.getElem?_append_left hn] at hb
    rw [List.getElem?_append_left (by omega)] at hp
    rw [decide_eq_false (by omega)]
    exact h.packets.fragment n p batch hp hb
  · have hle := (List.getElem?_eq_some_iff.mp hb).1
    rw [List.length_append, List.length_singleton] at hle
    obtain rfl : n = b.sent.length := by omega
    rw [List.getElem?_concat_length] at hb
    rw [← hlen, List.getElem?_concat_length] at hp
    rw [← Option.some.inj hp, ← Option.some.inj hb, decide_eq_true rfl]
    exact hpacket

end Baston.Rage
