/-
A packed stream read back by a client.

The bits of a fragment are its records field by field, so the reader of a record makes of
them what was written, the record loop makes the batch, and it stops at `END`.  The header of
a packet is two little-endian numbers.
-/
import Baston.Proofs.Fragments

namespace Baston.Rage

open MessageBuffer BitM

/-! ### Records read back -/

/-- A legal clone: a create or a sync, an id of 13 bits and a blob of 12-bit length. -/
def OutboundClone.Legal (c : OutboundClone) : Prop :=
  (c.syncType = Rec.create ∨ c.syncType = Rec.sync) ∧ c.objectId.toNat ≤ 8191
    ∧ c.data.length ≤ 4095

def Written.Legal : Written → Prop
  | .timestamp _ => True
  | .clone c => c.Legal
  | .remove _ objectId _ => objectId.toNat ≤ 8191

/-- A clone as the client reads it.  Only a create carries an entity type (the first one, if
none was given) and a token, and a first-frame update inverts the uniqifier. -/
def OutboundClone.downlink (c : OutboundClone) : DownlinkRecord :=
  let isCreate := c.syncType == Rec.create
  .clone isCreate c.objectId c.ownerNetId
    (if isCreate then some (c.entityType.getD .automobile) else none)
    (if isCreate then c.creationToken else 0)
    (if c.firstFrameUpdate then ~~~c.uniqifier else c.uniqifier)
    c.dependentFrameIndex c.timestamp c.data

def Written.downlink : Written → DownlinkRecord
  | .timestamp ts => .timestamp ts
  | .clone c => c.downlink
  | .remove forceSteal objectId uniqifier => .remove forceSteal objectId uniqifier

/-- The two words of a number put together again. -/
theorem join_words (x : UInt64) :
    ((x >>> 32).toUInt32.toUInt64 <<< 32) ||| x.toUInt32.toUInt64 = x := by
  apply UInt64.toBitVec_inj.mp
  apply BitVec.eq_of_getLsbD_eq
  intro i hi
  have hshift : (UInt64.toBitVec 32 % 64).toNat = 32 := by decide
  simp only [UInt64.toBitVec_or, UInt64.toBitVec_shiftLeft, UInt32.toBitVec_toUInt64,
    UInt64.toBitVec_toUInt32, UInt64.toBitVec_shiftRight, BitVec.getLsbD_or, BitVec.shiftLeft_eq',
    BitVec.ushiftRight_eq', hshift, BitVec.getLsbD_shiftLeft, BitVec.getLsbD_setWidth,
    BitVec.getLsbD_ushiftRight]
  by_cases hlow : i < 32
  · simp [hlow, hi]
  · simp [hlow, hi, show i - 32 < 32 by omega, show i - 32 < 64 by omega,
      show 32 + (i - 32) = i by omega]

/-- The entity type of a create survives its four bits. -/
theorem fromU8_entityType (ty : Option NetObjEntityType) :
    NetObjEntityType.fromU8 ((ty.map NetObjEntityType.toU8).getD 0).toUInt32.toUInt8
      = some (ty.getD .automobile) := by
  rw [UInt8.toUInt8_toUInt32]
  rcases ty with _ | ty
  · rfl
  · cases ty <;> rfl

theorem reads_word (n : Nat) (hn : n ≤ 32) (h13 : n ≠ 13) {v : UInt32} (hv : v.toNat < 2 ^ n) :
    Reads false (bits n) (Bits.msb (fieldWidth false n) v.toNat) v := by
  have hwidth : fieldWidth false n = n := by simp [fieldWidth]
  rw [hwidth]
  exact .field hn (by simp [h13]) hv

theorem reads_u32 (v : UInt32) :
    Reads false (bits 32) (Bits.msb (fieldWidth false 32) v.toNat) v :=
  reads_word 32 (by decide) (by decide) v.toNat_lt

theorem reads_u16 (v : UInt16) :
    Reads false (bits 16) (Bits.msb (fieldWidth false 16) v.toUInt32.toNat) v.toUInt32 := by
  refine reads_word 16 (by decide) (by decide) ?_
  rw [UInt16.toNat_toUInt32]
  exact v.toNat_lt

theorem reads_id {v : UInt16} (hv : v.toNat ≤ 8191) :
    Reads false (bits 13) (Bits.msb (fieldWidth false 13) v.toUInt32.toNat) v.toUInt32 := by
  refine .field (by decide) rfl ?_
  rw [UInt16.toNat_toUInt32]
  show v.toNat < 2 ^ 13
  omega

/-- What follows the ids and the create head of a clone. -/
def readDownlinkTail (isCreate : Bool) (objectId ownerNetId : UInt32)
    (head : Option NetObjEntityType × UInt32) : BitM DownlinkRecord := do
  let uniqifier ← bits 16
  let hi ← bits 32
  let lo ← bits 32
  let timestamp ← bits 32
  let length ← bits 12
  let data ← bytes length.toNat (length.toNat * 8)
  pure (.clone isCreate objectId.toUInt16 ownerNetId.toUInt16 head.1 head.2
    uniqifier.toUInt16 ((hi.toUInt64 <<< 32) ||| lo.toUInt64) timestamp data)

theorem readDownlink_clone {ty : UInt32} (h : ty = Rec.create ∨ ty = Rec.sync) :
    readDownlink ty = (do
      let objectId ← bits 13
      let ownerNetId ← bits 16
      let head ← readDownlinkHead (ty == Rec.create)
      readDownlinkTail (ty == Rec.create) objectId ownerNetId head) := by
  unfold readDownlink
  rw [if_pos h]
  rfl

theorem reads_tail {isCreate : Bool} {objectId ownerNetId : UInt32}
    {head : Option NetObjEntityType × UInt32} (uniqifier : UInt16) (dep : UInt64) (ts : UInt32)
    {data : List UInt8} (hdata : data.length ≤ 4095) :
    Reads false (readDownlinkTail isCreate objectId ownerNetId head)
      (fieldsBits false [(16, uniqifier.toUInt32), (32, (dep >>> 32).toUInt32),
        (32, dep.toUInt32), (32, ts), (12, UInt32.ofNat data.length)]
        ++ bitsFrom data 0 (data.length * 8))
      (.clone isCreate objectId.toUInt16 ownerNetId.toUInt16 head.1 head.2 uniqifier dep ts
        data) := by
  have hlen : (UInt32.ofNat data.length).toNat = data.length := by
    rw [UInt32.toNat_ofNat']
    omega
  have hlength : Reads false (bits 12)
      (Bits.msb (fieldWidth false 12) (UInt32.ofNat data.length).toNat)
      (UInt32.ofNat data.length) :=
    reads_word 12 (by decide) (by decide) (by omega)
  have hblob : Reads false (bytes (UInt32.ofNat data.length).toNat
      ((UInt32.ofNat data.length).toNat * 8)) (bitsFrom data 0 (data.length * 8)) data := by
    rw [hlen]
    exact .bytes data
  unfold readDownlinkTail
  simp only [fieldsBits, List.flatMap_cons, List.flatMap_nil, List.append_nil, List.append_assoc]
  refine (reads_u16 uniqifier).bind ((reads_u32 _).bind ((reads_u32 _).bind ((reads_u32 ts).bind
    (hlength.bind (hblob.map ?_)))))
  rw [UInt16.toUInt16_toUInt32, join_words]

/-- The entity type and the token of a create, or nothing. -/
theorem reads_head (c : OutboundClone) :
    Reads false (readDownlinkHead (c.syncType == Rec.create))
      (fieldsBits false (if c.syncType = Rec.create then
        [(entityTypeBits, ((c.entityType.map NetObjEntityType.toU8).getD 0).toUInt32),
          (32, c.creationToken)]
        else []))
      (if c.syncType = Rec.create then (some (c.entityType.getD .automobile), c.creationToken)
        else (none, 0)) := by
  unfold readDownlinkHead
  by_cases hc : c.syncType = Rec.create
  · have hty : Reads false (bits entityTypeBits) (Bits.msb (fieldWidth false entityTypeBits)
        ((c.entityType.map NetObjEntityType.toU8).getD 0).toUInt32.toNat)
        ((c.entityType.map NetObjEntityType.toU8).getD 0).toUInt32 := by
      refine reads_word entityTypeBits (by decide) (by decide) ?_
      rcases c.entityType with _ | ty
      · decide
      · cases ty <;> decide
    rw [if_pos (by simp [hc]), if_pos hc, if_pos hc]
    simp only [fieldsBits, List.flatMap_cons, List.flatMap_nil, List.append_nil]
    refine hty.bind ((reads_u32 c.creationToken).map ?_)
    rw [fromU8_entityType]
  · rw [if_neg (by simp [hc]), if_neg hc, if_neg hc]
    exact .pure _

/-- A create or sync reads back. -/
theorem reads_clone {c : OutboundClone} (h : c.Legal) :
    Reads false (readDownlink c.syncType)
      (fieldsBits false c.header.tail ++ bitsFrom c.data 0 (c.data.length * 8)) c.downlink := by
  obtain ⟨hty, hid, hdata⟩ := h
  have hheader : c.header.tail
      = (13, c.objectId.toUInt32) :: (16, c.ownerNetId.toUInt32) :: (_ ++ _) := rfl
  rw [readDownlink_clone hty, hheader]
  have hbits := fun xs ys => fieldsBits_append false xs ys
  simp only [fieldsBits, List.flatMap_cons, List.append_assoc] at hbits ⊢
  rw [hbits, List.append_assoc]
  refine (reads_id hid).bind ((reads_u16 c.ownerNetId).bind ((reads_head c).bind ?_))
  have htail := @reads_tail (c.syncType == Rec.create) c.objectId.toUInt32 c.ownerNetId.toUInt32
    (if c.syncType = Rec.create then (some (c.entityType.getD .automobile), c.creationToken)
      else (none, 0)) (if c.firstFrameUpdate then ~~~c.uniqifier else c.uniqifier)
    c.dependentFrameIndex c.timestamp c.data hdata
  rw [UInt16.toUInt16_toUInt32, UInt16.toUInt16_toUInt32] at htail
  unfold OutboundClone.downlink
  by_cases hc : c.syncType = Rec.create
  · simp only [hc, if_true, beq_self_eq_true] at htail ⊢
    exact htail
  · simp only [hc, if_false, beq_iff_eq] at htail ⊢
    exact htail

/-- A record is its type and a body that reads back. -/
theorem reads_written {r : Written} (h : r.Legal) :
    ∃ ty body, r.bits false = Bits.msb 3 ty.toNat ++ body ∧ ty.toNat < 7
      ∧ Reads false (readDownlink ty) body r.downlink := by
  cases r with
  | timestamp ts =>
      refine ⟨Rec.timestamp, fieldsBits false [(32, ts.toUInt32), (32, (ts >>> 32).toUInt32)], rfl,
        by decide, ?_⟩
      simp only [fieldsBits, List.flatMap_cons, List.flatMap_nil, List.append_nil]
      refine (reads_u32 ts.toUInt32).bind ((reads_u32 (ts >>> 32).toUInt32).map ?_)
      rw [join_words]
      rfl
  | clone c =>
      have hle := length_header_le false c
      refine ⟨c.syncType, _, ?_, ?_, reads_clone h⟩
      · have hdata := h.2.2
        simp only [Written.bits, OutboundClone.bits]
        rw [if_pos (by unfold workBufBytes; omega), ← List.append_assoc]
        rfl
      · rcases h.1 with hty | hty
        · rw [hty]
          decide
        · rw [hty]
          decide
  | remove forceSteal objectId uniqifier =>
      refine ⟨Rec.remove, [forceSteal]
        ++ fieldsBits false [(13, objectId.toUInt32), (16, uniqifier.toUInt32)], rfl, by decide, ?_⟩
      simp only [fieldsBits, List.flatMap_cons, List.flatMap_nil, List.append_nil]
      refine (Reads.bit forceSteal).bind ((reads_id h).bind ((reads_u16 uniqifier).map ?_))
      rw [UInt16.toUInt16_toUInt32, UInt16.toUInt16_toUInt32]
      rfl

/-! ### The record loop -/

/-- The record loop stops at an `END` in the last byte of the buffer. -/
def endsWithEnd : Nat → MessageBuffer → Bool
  | 0, _ => false
  | fuel + 1, buf =>
    if buf.isAtEnd then false
    else
      match buf.readBitsSingle 3 with
      | (none, _) => false
      | (some ty, buf) =>
        if ty = Rec.«end» then decide (buf.maxBit < buf.curBit + 8)
        else
          match (readDownlink ty).run buf with
          | (none, _) => false
          | (some _, buf) => endsWithEnd fuel buf

theorem readDownlink_end : readDownlink Rec.«end» = failure := rfl

/-- A batch and its `END` ahead of the record loop: the batch comes back, and the loop stops
at `END`. -/
theorem readDownlinks_batch : ∀ (batch : List Written) (fuel : Nat) (buf : MessageBuffer),
    (∀ r ∈ batch, r.Legal) → batch.length < fuel → buf.lengthHack = false →
    buf.maxBit ≤ buf.data.length * 8 →
    buf.Ahead (batchBits false batch ++ Bits.msb 3 Rec.«end».toNat) →
    buf.maxBit < buf.curBit + (batchBits false batch).length + 11 →
      readDownlinks fuel buf = batch.map Written.downlink ∧ endsWithEnd fuel buf = true := by
  intro batch
  induction batch with
  | nil =>
      intro fuel buf _ hfuel _ _ hahead hlast
      obtain ⟨fuel, rfl⟩ := Nat.exists_eq_add_of_lt hfuel
      have hend : buf.Ahead (Bits.msb 3 Rec.«end».toNat ++ []) := by
        rw [List.append_nil]
        exact hahead
      obtain ⟨hty, -⟩ := readType_ahead (by decide) hend
      have hread : buf.readBitsSingle 3 = _ := hty
      have hmore : buf.isAtEnd = false := by
        have := hahead.bound
        simp [Bits.length_msb] at this
        simp [isAtEnd]
        omega
      have hin : buf.maxBit < buf.curBit + 3 + 8 := by
        simpa [batchBits] using hlast
      constructor
      · simp only [readDownlinks, hmore, hread, readDownlink_end]
        rfl
      · simp only [endsWithEnd, hmore, hread, if_true]
        simpa using hin
  | cons r rest ih =>
      intro fuel buf hlegal hfuel hmode hsize hahead hlast
      obtain ⟨fuel, rfl⟩ := Nat.exists_eq_add_of_lt hfuel
      obtain ⟨ty, body, hbits, hseven, hbody⟩ := reads_written (hlegal r List.mem_cons_self)
      have hsplit : batchBits false (r :: rest)
          = Bits.msb 3 ty.toNat ++ (body ++ batchBits false rest) := by
        rw [batchBits, List.flatMap_cons, hbits, List.append_assoc]
        rfl
      rw [hsplit, List.append_assoc, List.append_assoc] at hahead
      rw [hsplit, List.length_append, List.length_append, Bits.length_msb] at hlast
      obtain ⟨hty, hnext⟩ := readType_ahead (by omega) hahead
      have hread : buf.readBitsSingle 3 = (some ty, buf.skipBits 3) := hty
      replace hnext : (buf.skipBits 3).Ahead (body ++ (batchBits false rest ++ _)) := hnext
      obtain ⟨hrecord, hrest⟩ := hnext.split
      have hrun := hbody (buf.skipBits 3) hmode hsize hrecord
      have hmore : buf.isAtEnd = false := by
        have := hahead.bound
        rw [List.length_append, Bits.length_msb] at this
        simp [isAtEnd]
        omega
      have hne : ty ≠ Rec.«end» := by
        rintro rfl
        exact absurd hseven (by decide)
      obtain ⟨hih, hend⟩ := ih (rest.length + fuel + 1) ((buf.skipBits 3).skipBits body.length)
        (fun x hx => hlegal x (List.mem_cons_of_mem _ hx)) (by omega) hmode hsize hrest
        (by simp only [skipBits]; omega)
      have hfuel' : (r :: rest).length + fuel + 1 = (rest.length + fuel + 1) + 1 := by
        rw [List.length_cons]
        omega
      rw [hfuel']
      generalize rest.length + fuel + 1 = turns at hih hend ⊢
      constructor
      · simp only [readDownlinks, hmore, hread, hrun, hih]
        rfl
      · simp only [endsWithEnd, hmore, hread, hrun, if_neg hne, hend]
        rfl

/-! ### The header of a packet -/

theorem leBytes_succ (n v : Nat) : leBytes (n + 1) v = UInt8.ofNat v :: leBytes n (v / 256) := by
  unfold leBytes
  rw [List.range_succ_eq_map, List.map_cons, List.map_map, pow_zero, Nat.div_one]
  congr 1
  apply List.map_congr_left
  intro i _
  rw [Function.comp_apply, Nat.succ_eq_add_one, pow_succ', Nat.div_div_eq_div_mul]

@[simp] theorem length_leBytes (n v : Nat) : (leBytes n v).length = n := by
  unfold leBytes
  rw [List.length_map, List.length_range]

/-- Little-endian bytes spell the number they were made of. -/
theorem foldr_leBytes : ∀ n v : Nat,
    (leBytes n v).foldr (fun b acc => b.toNat + 256 * acc) 0 = v % 256 ^ n := by
  intro n
  induction n with
  | zero =>
      intro v
      rw [pow_zero, Nat.mod_one]
      rfl
  | succ n ih =>
      intro v
      rw [leBytes_succ, List.foldr_cons, ih, pow_succ', Nat.mod_mul, UInt8.toNat_ofNat']

theorem u32FromLe_leBytes (v : UInt32) : u32FromLe (leBytes 4 v.toNat) = v := by
  unfold u32FromLe
  rw [foldr_leBytes, Nat.mod_eq_of_lt (show v.toNat < 256 ^ 4 from v.toNat_lt), UInt32.ofNat_toNat]

theorem u64FromLe_leBytes (v : UInt64) : u64FromLe (leBytes 8 v.toNat) = v := by
  unfold u64FromLe
  rw [foldr_leBytes, Nat.mod_eq_of_lt (show v.toNat < 256 ^ 8 from v.toNat_lt), UInt64.ofNat_toNat]

/-- The 56 bits of a frame index that are transmitted. -/
def frameMask : UInt64 := ((1 : UInt64) <<< 56) - 1

theorem getLsbD_frameMask : ∀ i, i < 64 → frameMask.toBitVec.getLsbD i = decide (i < 56) := by
  decide

theorem getLsbD_fragmentMask :
    ∀ i, i < 64 → (0x7F : UInt64).toBitVec.getLsbD i = decide (i < 7) := by
  decide

theorem getLsbD_toUInt64 (b : Bool) (i : Nat) :
    b.toUInt64.toBitVec.getLsbD i = (decide (i = 0) && b) := by
  cases b with
  | false => simp [Bool.toUInt64]
  | true =>
      rw [show true.toUInt64.toBitVec = 1#64 from rfl, BitVec.getLsbD_one]
      simp

/-- The bits of a frame index: the flag, then the fragment, then the frame. -/
theorem getLsbD_toU64 (last : Bool) (cur : UInt8) (frame : UInt64) {i : Nat} (hi : i < 64) :
    (FrameIndex.toU64 ⟨last, cur, frame⟩).toBitVec.getLsbD i
      = if i = 0 then last else if i < 8 then cur.toBitVec.getLsbD (i - 1)
        else frame.toBitVec.getLsbD (i - 8) := by
  have h1 : (UInt64.toBitVec 1 % 64).toNat = 1 := by decide
  have h8 : (UInt64.toBitVec 8 % 64).toNat = 8 := by decide
  show (UInt64.toBitVec (last.toUInt64 ||| ((cur.toUInt64 &&& 0x7F) <<< 1)
    ||| ((frame &&& frameMask) <<< 8))).getLsbD i = _
  simp only [UInt64.toBitVec_or, UInt64.toBitVec_shiftLeft, UInt64.toBitVec_and,
    BitVec.getLsbD_or, BitVec.shiftLeft_eq', h1, h8, BitVec.getLsbD_shiftLeft, BitVec.getLsbD_and,
    getLsbD_toUInt64, UInt8.toBitVec_toUInt64, BitVec.getLsbD_setWidth]
  rw [getLsbD_frameMask _ (by omega), getLsbD_fragmentMask _ (by omega)]
  by_cases h0 : i = 0
  · simp [h0]
  · by_cases hlow : i < 8
    · simp [h0, hlow, hi, show i - 1 < 7 by omega, show i - 1 < 64 by omega]
    · simp [h0, hlow, hi, show ¬ i - 1 < 7 by omega, show i - 8 < 56 by omega]

/-- A frame index reads back, its frame cut to 56 bits. -/
theorem fromU64_toU64 (last : Bool) {cur : UInt8} (hcur : cur.toNat ≤ 127) (frame : UInt64) :
    FrameIndex.fromU64 (FrameIndex.toU64 ⟨last, cur, frame⟩) = ⟨last, cur, frame &&& frameMask⟩ := by
  have hbit := @getLsbD_toU64 last cur frame
  have h1 : (UInt64.toBitVec 1 % 64).toNat = 1 := by decide
  have h8 : (UInt64.toBitVec 8 % 64).toNat = 8 := by decide
  unfold FrameIndex.fromU64
  generalize FrameIndex.toU64 ⟨last, cur, frame⟩ = v at hbit
  congr 1
  · have hone : v &&& 1 = last.toUInt64 := by
      apply UInt64.toBitVec_inj.mp
      apply BitVec.eq_of_getLsbD_eq
      intro i hi
      rw [UInt64.toBitVec_and, BitVec.getLsbD_and, hbit hi, getLsbD_toUInt64,
        show (1 : UInt64) = true.toUInt64 from rfl, getLsbD_toUInt64]
      by_cases h0 : i = 0
      · simp [h0]
      · simp [h0]
    rw [hone]
    cases last <;> rfl
  · apply UInt8.toBitVec_inj.mp
    apply BitVec.eq_of_getLsbD_eq
    intro i hi
    rw [UInt64.toBitVec_toUInt8, UInt64.toBitVec_and, UInt64.toBitVec_shiftRight,
      BitVec.getLsbD_setWidth, BitVec.getLsbD_and, BitVec.ushiftRight_eq', h1,
      BitVec.getLsbD_ushiftRight, hbit (by omega), getLsbD_fragmentMask _ (by omega)]
    by_cases h7 : i < 7
    · simp [hi, h7, show 1 + i < 8 by omega]
    · obtain rfl : i = 7 := by omega
      have htop : cur.toBitVec.getLsbD 7 = false := Nat.testBit_lt_two_pow (by
        show cur.toNat < 2 ^ 7
        omega)
      rw [htop]
      simp
  · apply UInt64.toBitVec_inj.mp
    apply BitVec.eq_of_getLsbD_eq
    intro i hi
    show (UInt64.toBitVec ((v >>> 8) &&& frameMask)).getLsbD i = _
    rw [UInt64.toBitVec_and, UInt64.toBitVec_shiftRight, BitVec.getLsbD_and,
      BitVec.ushiftRight_eq', h8, BitVec.getLsbD_ushiftRight, UInt64.toBitVec_and,
      BitVec.getLsbD_and, getLsbD_frameMask _ hi]
    by_cases h56 : i < 56
    · rw [hbit (by omega)]
      simp [h56]
    · simp [h56]

/-! ### Fragments read back -/

/-- The record a call hands over, beside a timestamp that may come before it. -/
def WriterCall.written : WriterCall → Written
  | .clone _ c => .clone c
  | .remove forceSteal objectId uniqifier => .remove forceSteal objectId uniqifier

/-- The records that are about entities. -/
def DownlinkRecord.isEntity : DownlinkRecord → Bool
  | .timestamp _ => false
  | _ => true

namespace Batches

theorem flatten_push (lengthHack : Bool) (r : Written) (b : Batches) :
    (b.push lengthHack r).fragments.flatten = b.fragments.flatten ++ [r] := by
  unfold push fragments
  split
  · simp
  · simp

/-- The entity records of the batches are those of the calls, in order. -/
theorem entities_ofCalls (lengthHack : Bool) (calls : List WriterCall) :
    (ofCalls lengthHack calls).fragments.flatten.filter (fun r => r.downlink.isEntity)
      = calls.map WriterCall.written := by
  induction calls using List.reverseRecOn with
  | nil => rfl
  | append_singleton calls call ih =>
      rw [ofCalls_append, List.map_append, ← ih]
      cases call with
      | clone ts c =>
          have htime : ((ofCalls lengthHack calls).ensureTimestamp lengthHack ts).fragments.flatten.filter
              (fun r => r.downlink.isEntity)
              = (ofCalls lengthHack calls).fragments.flatten.filter (fun r => r.downlink.isEntity) := by
            unfold ensureTimestamp
            split
            · rfl
            · rw [flatten_push, List.filter_append]
              simp [Written.downlink, DownlinkRecord.isEntity]
          unfold write
          rw [flatten_push, List.filter_append, htime]
          rfl
      | remove forceSteal objectId uniqifier =>
          unfold write
          rw [flatten_push, List.filter_append]
          rfl

/-- A batch of legal records that leaves room for `END`. -/
def Sendable (batch : List Written) : Prop :=
  (∀ r ∈ batch, r.Legal) ∧ (batchBits false batch).length ≤ 33000

theorem estimate_legal {r : Written} (h : r.Legal) : (r.bits false).length ≤ 32955 := by
  have hle := (r.length_bits_le false).2
  cases r with
  | timestamp ts =>
      simp only [estimate] at hle
      omega
  | clone c =>
      have := h.2.2
      simp only [estimate] at hle
      omega
  | remove forceSteal objectId uniqifier =>
      simp only [estimate] at hle
      omega

theorem sendable_push {b : Batches} {r : Written} (hr : r.Legal)
    (h : ∀ batch ∈ b.fragments, Sendable batch) :
    ∀ batch ∈ (b.push false r).fragments, Sendable batch := by
  have hone : Sendable [r] := by
    refine ⟨by simpa using hr, ?_⟩
    have := estimate_legal hr
    simp only [batchBits, List.flatMap_singleton]
    omega
  unfold push
  by_cases hfull : full false b.batch r = true
  · rw [if_pos hfull]
    intro batch hbatch
    rcases List.mem_append.mp hbatch with hsent | hlast
    · exact h batch hsent
    · rw [List.mem_singleton.mp hlast]
      exact hone
  · rw [if_neg hfull]
    intro batch hbatch
    rcases List.mem_append.mp hbatch with hsent | hlast
    · exact h batch (List.mem_append_left _ hsent)
    · have hbatch' := h b.batch (List.mem_append_right _ (List.mem_singleton.mpr rfl))
      rw [List.mem_singleton.mp hlast]
      refine ⟨?_, ?_⟩
      · intro x hx
        rcases List.mem_append.mp hx with hx | hx
        · exact hbatch'.1 x hx
        · rw [List.mem_singleton.mp hx]
          exact hr
      · have hbits := estimate_legal hr
        have hle := (r.length_bits_le false).2
        rw [batchBits_append, List.length_append]
        -- either the batch was empty, or the budget bounds it
        by_cases hzero : (batchBits false b.batch).length = 0
        · omega
        · have hroom : overBudget (batchBits false b.batch).length (estimate r) = false := by
            simpa [full, hzero] using hfull
          simp [overBudget, flushBudgetBytes] at hroom
          omega

theorem sendable_ofCalls {calls : List WriterCall} (h : ∀ call ∈ calls, call.written.Legal) :
    ∀ batch ∈ (ofCalls false calls).fragments, Sendable batch := by
  induction calls using List.reverseRecOn with
  | nil =>
      intro batch hbatch
      rw [List.mem_singleton.mp hbatch]
      exact ⟨fun r hr => absurd hr List.not_mem_nil, Nat.zero_le _⟩
  | append_singleton calls call ih =>
      have hbefore := ih fun x hx => h x (List.mem_append_left _ hx)
      have hlegal := h call (List.mem_append_right _ (List.mem_singleton.mpr rfl))
      rw [ofCalls_append]
      cases call with
      | clone ts c =>
          refine sendable_push hlegal ?_
          unfold ensureTimestamp
          split
          · exact hbefore
          · exact sendable_push trivial hbefore
      | remove forceSteal objectId uniqifier => exact sendable_push hlegal hbefore

end Batches

/-- The record stream of a packet ends with `END`. -/
def endTerminated (lz4 : Lz4) (packet : List UInt8) : Bool :=
  match lz4.decompressPlain (packet.drop 12) inboundScratch with
  | none => false
  | some body => endsWithEnd (body.length * 8) (.fromBytes body)

/-- LZ4 gives back what it was given, within the bound on its output. -/
def Lz4.Lossless (lz4 : Lz4) : Prop :=
  ∀ body bound, body.length ≤ bound →
    lz4.decompressPlain (lz4.compressDefault body) bound = some body

/-- Every record has at least its type. -/
theorem length_le_batchBits : ∀ batch : List Written, (∀ r ∈ batch, r.Legal) →
    batch.length * 3 ≤ (batchBits false batch).length := by
  intro batch
  induction batch with
  | nil =>
      intro _
      exact Nat.zero_le _
  | cons r rest ih =>
      intro h
      have hrest := ih fun x hx => h x (List.mem_cons_of_mem _ hx)
      obtain ⟨ty, body, hbits, -, -⟩ := reads_written (h r List.mem_cons_self)
      rw [batchBits, List.flatMap_cons, hbits, List.length_append, List.length_append,
        Bits.length_msb, List.length_cons]
      unfold batchBits at hrest
      omega

/-- The body of a fragment reads back as its batch, up to `END`. -/
theorem Carries.read {body : List UInt8} {batch : List Written}
    (hbody : Carries false body batch) (hbatch : Batches.Sendable batch) :
    body.length ≤ inboundScratch
      ∧ readDownlinks (body.length * 8) (.fromBytes body) = batch.map Written.downlink
      ∧ endsWithEnd (body.length * 8) (.fromBytes body) = true := by
  have hbits : fragmentBits false batch = batchBits false batch ++ Bits.msb 3 Rec.«end».toNat := by
    unfold fragmentBits
    rw [if_pos (by have := hbatch.2; unfold workBufBytes; omega)]
    simp [fieldsBits, fieldWidth]
  have hlen := hbody.length
  have hahead := hbody.bits
  rw [hbits, List.length_append, Bits.length_msb] at hlen
  rw [hbits] at hahead
  have hsmall := hbatch.2
  have hcount := length_le_batchBits batch hbatch.1
  refine ⟨by unfold inboundScratch; omega, ?_⟩
  apply readDownlinks_batch batch _ _ hbatch.1 (by omega) rfl (Nat.le_refl _)
  · refine ⟨?_, hahead⟩
    simp only [fromBytes, List.length_append, Bits.length_msb]
    omega
  · simp only [fromBytes]
    omega

/-- A fragment of legal records decodes to its header and its batch. -/
theorem decodeDownlink_fragment {lz4 : Lz4} (hlz4 : lz4.Lossless) {msgType : UInt32}
    {frameIndex : UInt64} {last : Bool} {n : Nat} (hn : n ≤ 127) {packet : List UInt8}
    {batch : List Written} (hbatch : Batches.Sendable batch)
    (h : IsFragment lz4 msgType frameIndex false last n packet batch) :
    decodeDownlink lz4 packet = some ⟨msgType, ⟨last, UInt8.ofNat n, frameIndex &&& frameMask⟩,
        batch.map Written.downlink⟩
      ∧ endTerminated lz4 packet = true := by
  obtain ⟨body, hbody, rfl⟩ := h
  obtain ⟨hsize, hrecords, hend⟩ := hbody.read hbatch
  have hcur : UInt8.ofNat n &&& 0x7F = UInt8.ofNat n := by
    apply UInt8.toNat.inj
    rw [UInt8.toNat_and, UInt8.toNat_ofNat']
    show n % 256 &&& 127 = n % 256
    rw [show 127 = 2 ^ 7 - 1 from rfl, Nat.and_two_pow_sub_one_eq_mod]
    omega
  have hsmall : (UInt8.ofNat n).toNat ≤ 127 := by
    rw [UInt8.toNat_ofNat']
    omega
  rw [hcur]
  have hhead : (leBytes 4 msgType.toNat
      ++ leBytes 8 (FrameIndex.toU64 ⟨last, UInt8.ofNat n, frameIndex⟩).toNat).length = 12 := by
    rw [List.length_append, length_leBytes, length_leBytes]
  have hdrop : (packFrame lz4 msgType ⟨last, UInt8.ofNat n, frameIndex⟩ body).drop 12
      = lz4.compressDefault body := List.drop_left' hhead
  have htake : (packFrame lz4 msgType ⟨last, UInt8.ofNat n, frameIndex⟩ body).take 4
      = leBytes 4 msgType.toNat := by
    unfold packFrame
    rw [List.append_assoc, List.take_left' (length_leBytes _ _)]
  have hmid : ((packFrame lz4 msgType ⟨last, UInt8.ofNat n, frameIndex⟩ body).drop 4).take 8
      = leBytes 8 (FrameIndex.toU64 ⟨last, UInt8.ofNat n, frameIndex⟩).toNat := by
    unfold packFrame
    rw [List.append_assoc, List.drop_left' (length_leBytes _ _),
      List.take_left' (length_leBytes _ _)]
  have hlong : ¬ (packFrame lz4 msgType ⟨last, UInt8.ofNat n, frameIndex⟩ body).length < 12 := by
    unfold packFrame
    rw [List.length_append, hhead]
    omega
  constructor
  · unfold decodeDownlink
    rw [if_neg hlong, hdrop, hlz4 body inboundScratch hsize, htake, hmid, u32FromLe_leBytes,
      u64FromLe_leBytes, fromU64_toU64 last hsmall]
    simp only [fromBytes] at hrecords ⊢
    rw [hrecords]
  · unfold endTerminated
    rw [hdrop, hlz4 body inboundScratch hsize]
    exact hend

/-- Fragment `n` of `count`, counted from 0, as the client reads it. -/
def asRead (msgType : UInt32) (frameIndex : UInt64) (count n : Nat) (batch : List Written) :
    DownlinkPacket where
  msgType := msgType
  frame := ⟨n + 1 = count, UInt8.ofNat (n + 1), frameIndex &&& frameMask⟩
  records := batch.map Written.downlink

/-- **A packed stream reads back**: the clone and remove records come out as they were written,
in order, up to what the wire leaves out.  The fragments are numbered from 1, only the last
one is flagged, and each ends with `END`. -/
theorem packed_stream_round_trip (lz4 : Lz4) (hlz4 : lz4.Lossless) (msgType : UInt32)
    (frameIndex : UInt64) (calls : List WriterCall)
    (hlegal : ∀ call ∈ calls, call.written.Legal)
    (hfew : (packedStream lz4 msgType frameIndex false calls).length ≤ 127) :
    ∃ decoded : List DownlinkPacket,
      (packedStream lz4 msgType frameIndex false calls).map (decodeDownlink lz4) = decoded.map some
      ∧ (decoded.flatMap (·.records)).filter DownlinkRecord.isEntity
        = calls.map (·.written.downlink)
      ∧ (∀ n (p : DownlinkPacket), decoded[n]? = some p → p.msgType = msgType
        ∧ p.frame = ⟨n + 1 = decoded.length, UInt8.ofNat (n + 1), frameIndex &&& frameMask⟩)
      ∧ ∀ packet ∈ packedStream lz4 msgType frameIndex false calls,
        endTerminated lz4 packet = true := by
  obtain ⟨hlen, hfragment⟩ := packedStream_fragments lz4 msgType frameIndex false calls
  have hsendable := Batches.sendable_ofCalls hlegal
  have hentities := Batches.entities_ofCalls false calls
  generalize packedStream lz4 msgType frameIndex false calls = packets at *
  generalize (Batches.ofCalls false calls).fragments = fragments at *
  have hread : ∀ n (hn : n < fragments.length) packet, packets[n]? = some packet →
      decodeDownlink lz4 packet
          = some (asRead msgType frameIndex fragments.length n (fragments.get ⟨n, hn⟩))
        ∧ endTerminated lz4 packet = true := by
    intro n hn packet hpacket
    exact decodeDownlink_fragment hlz4 (by omega) (hsendable _ (List.getElem_mem hn))
      (hfragment n packet _ hpacket (List.getElem?_eq_getElem hn))
  refine ⟨fragments.mapIdx (asRead msgType frameIndex fragments.length), ?_, ?_, ?_, ?_⟩
  · apply List.ext_getElem
    · simp [hlen]
    · intro n hn hn'
      rw [List.length_map] at hn
      simp only [List.getElem_map, List.getElem_mapIdx]
      exact (hread n (by omega) _ (List.getElem?_eq_getElem hn)).1
  · have hrecords : (fragments.mapIdx (asRead msgType frameIndex fragments.length)).map (·.records)
        = fragments.map (·.map Written.downlink) := by
      apply List.ext_getElem?
      intro n
      rw [List.getElem?_map, List.getElem?_mapIdx, List.getElem?_map, Option.map_map]
      rfl
    rw [List.flatMap_def, hrecords, ← List.map_flatten, List.filter_map,
      show (fun call : WriterCall => call.written.downlink)
        = Written.downlink ∘ WriterCall.written from rfl, ← List.map_map, ← hentities]
    rfl
  · intro n p hp
    rw [List.getElem?_mapIdx] at hp
    obtain ⟨batch, -, rfl⟩ := Option.map_eq_some_iff.mp hp
    refine ⟨rfl, ?_⟩
    rw [List.length_mapIdx]
    rfl
  · intro packet hpacket
    obtain ⟨n, hn, rfl⟩ := List.getElem_of_mem hpacket
    exact (hread n (by omega) _ (List.getElem?_eq_getElem hn)).2

/-- A create and a remove in one packet. -/
theorem create_and_remove_round_trip :
    ∃ decoded : List DownlinkPacket,
      (packedStream LiteralRun.lz4 msgPackedClones 1 false
        [.clone 7 (bigCreate 2), .remove true 9 2]).map (decodeDownlink LiteralRun.lz4)
        = decoded.map some
      ∧ (decoded.flatMap (·.records)).filter DownlinkRecord.isEntity
        = [.clone true 5 1 (some .object) 0 1 0 0 [0, 0], .remove true 9 2] := by
  have hlegal : ∀ call ∈ [WriterCall.clone 7 (bigCreate 2), .remove true 9 2],
      call.written.Legal := by
    simp only [List.forall_mem_cons, List.not_mem_nil, false_imp_iff, implies_true, and_true]
    exact ⟨⟨.inl rfl, by decide, by decide⟩, show (9 : UInt16).toNat ≤ 8191 by decide⟩
  obtain ⟨decoded, hdecoded, hrecords, -⟩ := packed_stream_round_trip LiteralRun.lz4
    LiteralRun.decode_encode msgPackedClones 1 _ hlegal (by decide +kernel)
  exact ⟨decoded, hdecoded, hrecords⟩

/-- A sync of an entity that was created with token 9. -/
def tokenSync : OutboundClone where
  syncType := Rec.sync
  objectId := 5
  ownerNetId := 1
  entityType := none
  creationToken := 9
  uniqifier := 1
  dependentFrameIndex := 0
  timestamp := 0
  firstFrameUpdate := false
  data := [0, 0]

/-- The token of a sync is not on the wire: the client reads 0. -/
theorem sync_token_left_out :
    tokenSync.Legal
      ∧ (packedStream LiteralRun.lz4 msgPackedClones 1 false [.clone 7 tokenSync]).length ≤ 127
      ∧ ¬ ∃ decoded : List DownlinkPacket,
        (packedStream LiteralRun.lz4 msgPackedClones 1 false [.clone 7 tokenSync]).map
          (decodeDownlink LiteralRun.lz4) = decoded.map some
        ∧ (decoded.flatMap (·.records)).filter DownlinkRecord.isEntity
          = [.clone false 5 1 none 9 1 0 0 [0, 0]] := by
  refine ⟨⟨.inr rfl, by decide, by decide⟩, by decide +kernel, ?_⟩
  rintro ⟨decoded, hdecoded, hrecords⟩
  have hread : (packedStream LiteralRun.lz4 msgPackedClones 1 false [.clone 7 tokenSync]).map
      (decodeDownlink LiteralRun.lz4) = [some ⟨msgPackedClones, ⟨true, 1, 1⟩,
        [.timestamp 7, .clone false 5 1 none 0 1 0 0 [0, 0]]⟩] := by decide +kernel
  rw [hread] at hdecoded
  obtain rfl : [_] = decoded := List.map_injective_iff.mpr (Option.some_injective _) hdecoded
  exact absurd hrecords (by decide)

end Baston.Rage
