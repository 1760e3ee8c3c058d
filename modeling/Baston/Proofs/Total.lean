/-
Parsing untrusted bytes.

Whatever the bytes, the machine comes to an end without a fault: the bit parsers do what the
model's do, and the byte parsers have an answer.  The bytes have to be in memory, where there are
far fewer of them than words.
-/
import Baston.Proofs.Machine
import Baston.Rage.LiteralRun
import Baston.Rage.Reliability

namespace Baston.Rage

/-! ### The byte cursor -/

namespace Reader

/-- The cursor is within the payload, and the payload in memory. -/
structure Within (r : Reader) : Prop where
  off : r.off ≤ r.buf.length
  words : r.buf.length + 8 < Checked.words

/-- Without a fault, the cursor only moves on. -/
def Safe {α : Type} (m : ReadM α) : Prop :=
  ∀ r : Reader, Within r → ∃ a r', m.run r = .ok (a, r') ∧ r'.buf = r.buf ∧ Within r'

theorem Safe.pure {α : Type} (a : α) : Safe (Pure.pure a) := fun r h => ⟨some a, r, rfl, rfl, h⟩

theorem Safe.bind {α β : Type} {m : ReadM α} {f : α → ReadM β} (hm : Safe m)
    (hf : ∀ a, Safe (f a)) : Safe (m >>= f) := by
  intro r hr
  obtain ⟨a, mid, hrun, hbuf, hmid⟩ := hm r hr
  rcases a with _ | a
  · refine ⟨none, mid, ?_, hbuf, hmid⟩
    rw [OptionT.run_bind]
    show (m.run r >>= _) = _
    rw [hrun]
    rfl
  · obtain ⟨b, last, hrun', hbuf', hlast⟩ := hf a mid hmid
    refine ⟨b, last, ?_, hbuf'.trans hbuf, hlast⟩
    rw [OptionT.run_bind]
    show (m.run r >>= _) = _
    rw [hrun]
    exact hrun'

theorem Safe.ite {α : Type} {c : Prop} [Decidable c] {m m' : ReadM α} (h : Safe m) (h' : Safe m') :
    Safe (if c then m else m') := by
  split
  · exact h
  · exact h'

theorem safe_u8 : Safe u8 := by
  intro r hr
  have hoff := hr.off
  have hwords := hr.words
  rcases hbyte : r.buf[r.off]? with _ | v
  · exact ⟨none, r, run_u8_none hbyte, rfl, hr⟩
  · have hlt := (List.getElem?_eq_some_iff.mp hbyte).1
    exact ⟨some v, { r with off := r.off + 1 }, run_u8_some hbyte (by omega), rfl, hlt, hwords⟩

theorem safe_take {n : Nat} (hn : n ≤ 8) : Safe (take n) := by
  intro r hr
  have hoff := hr.off
  have hwords := hr.words
  have hstop : r.off + n < Checked.words := by omega
  by_cases hroom : r.off ≤ r.off + n ∧ r.off + n ≤ r.buf.length
  · exact ⟨_, _, run_take_some hstop (if_pos hroom), rfl, hroom.2, hwords⟩
  · exact ⟨_, _, run_take_none hstop (if_neg hroom), rfl, hr⟩

theorem safe_u16 : Safe u16 := (safe_take (by decide)).bind fun _ => .pure _

theorem safe_u64 : Safe u64 := (safe_take (by decide)).bind fun _ => .pure _

theorem Safe.times {α : Type} {m : ReadM α} (h : Safe m) : ∀ n, Safe (times n m) := by
  intro n
  induction n with
  | zero => exact .pure _
  | succ n ih => exact h.bind fun _ => ih.bind fun _ => .pure _

theorem safe_ignoreList : Safe ignoreList :=
  safe_u8.bind fun _ => .times (safe_u16.bind fun _ => safe_u64.bind fun _ => .pure _) _

theorem safe_recreateList : Safe recreateList := safe_u8.bind fun _ => .times safe_u16 _

/-- A safe reader has an answer. -/
theorem Safe.parse {α : Type} {m : ReadM α} (h : Safe m) {payload : List UInt8}
    (hwords : payload.length + 8 < Checked.words) : ∃ a, Reader.parse m payload = .ok a := by
  obtain ⟨a, r', hrun, -⟩ := h ⟨payload, 0⟩ ⟨Nat.zero_le _, hwords⟩
  refine ⟨a, ?_⟩
  unfold Reader.parse
  rw [hrun]
  rfl

end Reader

/-! ### The parsers -/

section Parsers

variable {data : List UInt8}

open Reader in
theorem parseNack_total (hwords : data.length + 8 < Checked.words) : ∃ r, parseNack data = .ok r := by
  refine Safe.parse ?_ hwords
  refine safe_u8.bind fun flags => safe_u64.bind fun frameIndex => ?_
  extract_lets -underBinder jp
  have hjp : ∀ missing, Safe (jp missing) := by
    intro missing
    unfold jp
    extract_lets -underBinder jp
    have hjp : ∀ ignored, Safe (jp ignored) := by
      intro ignored
      unfold jp
      extract_lets -underBinder jp
      have hjp : ∀ recreated, Safe (jp recreated) := fun recreated => .pure _
      exact .ite (safe_recreateList.bind hjp) ((Safe.pure _).bind hjp)
    exact .ite (safe_ignoreList.bind hjp) ((Safe.pure _).bind hjp)
  refine .ite (safe_u64.bind fun first => safe_u64.bind fun last => ?_) ((Safe.pure _).bind hjp)
  exact (Safe.pure _).bind hjp

open Reader in
theorem parseAck_total (hwords : data.length + 8 < Checked.words) : ∃ r, parseAck data = .ok r :=
  Safe.parse (safe_u64.bind fun _ => safe_ignoreList.bind fun _ => safe_recreateList.bind fun _ =>
    .pure _) hwords

open ObjectIds in
theorem readEntries_total (hwords : data.length + 8 < Checked.words) : ∀ (count off : Nat),
    off ≤ data.length → ∃ r, readEntries data count off = .ok r := by
  intro count
  induction count with
  | zero => exact fun off _ => ⟨some [], rfl⟩
  | succ count ih =>
      intro off hoff
      rw [readEntries, Checked.add_eq (by omega), Checked.ok_bind, Checked.add_eq (by omega)]
      rcases Checked.get data off (off + 2) with _ | gap
      · exact ⟨none, rfl⟩
      · simp only [Checked.ok_bind]
        unfold Checked.get
        by_cases hroom : off + 2 ≤ off + 4 ∧ off + 4 ≤ data.length
        · rw [if_pos hroom]
          obtain ⟨rest, hrest⟩ := ih (off + 4) hroom.2
          simp only [hrest, Checked.ok_bind]
          exact ⟨_, rfl⟩
        · rw [if_neg hroom]
          exact ⟨none, rfl⟩

open ObjectIds in
theorem parseObjectIds_total (hwords : data.length + 8 < Checked.words) :
    ∃ r, parseObjectIds data = .ok r := by
  unfold parseObjectIds
  by_cases hshort : data.length < 2
  · rw [if_pos hshort]
    exact ⟨none, rfl⟩
  · rw [if_neg hshort, Checked.slice_eq (by omega) (by omega), Checked.ok_bind]
    obtain ⟨entries, hentries⟩ := readEntries_total hwords
      (u16FromLe ((data.drop 0).take (2 - 0))).toNat 2 (by omega)
    rw [hentries]
    exact ⟨_, rfl⟩

/-- A body within the scratch buffer is decoded to its end. -/
theorem recordLoop_total {ρ : Type} {program : UInt32 → Prog (Option ρ)}
    (hcosts : ∀ ty, (program ty).Costs Machine.recordBits) {body : List UInt8}
    (hbody : body.length ≤ inboundScratch) (lengthHack : Bool) :
    Machine.fromBytes body = .ok (.fromBytes body)
      ∧ Machine.recordLoop program ((MessageBuffer.fromBytes body).maxBit + 1)
          ((MessageBuffer.fromBytes body).withLengthHack lengthHack)
        = .ok (Machine.records program (MessageBuffer.fromBytes body).maxBit
          ((MessageBuffer.fromBytes body).withLengthHack lengthHack)) := by
  have hscratch : inboundScratch * 8 + Machine.recordBits + 3 < Checked.words := by decide
  refine ⟨Machine.fromBytes_eq (by omega), ?_⟩
  refine Machine.recordLoop_eq hcosts _ _ _ (Nat.le_refl _) ?_ ?_ ?_
  · show body.length * 8 + _ + 3 < _
    omega
  · show body.length * 8 - 0 < body.length * 8 + 1
    omega
  · show body.length * 8 - 0 ≤ body.length * 8
    omega

theorem decodeIncoming_total {lz4 : Lz4}
    (hdict : ∀ input limit out, lz4.decompressUsingDict input limit = some out → out.length ≤ limit)
    (lengthHack : Bool) :
    Machine.decodeIncoming lz4 data lengthHack = .ok (decodeIncoming lz4 data lengthHack) := by
  unfold Machine.decodeIncoming decodeIncoming
  by_cases hshort : data.length < 4
  · rw [if_pos hshort, if_pos hshort]
    rfl
  · rw [if_neg hshort, if_neg hshort, Checked.slice_eq (by omega) (by omega), Checked.ok_bind,
      List.drop_zero, Nat.sub_zero]
    simp only
    by_cases htype : u32FromLe (data.take 4) ≠ netClones ∧ u32FromLe (data.take 4) ≠ netAcks
    · rw [if_pos htype, if_pos htype]
      rfl
    · rw [if_neg htype, if_neg htype, Checked.slice_eq (by omega) (Nat.le_refl _), Checked.ok_bind,
        ← List.length_drop, List.take_length]
      rcases hbody : lz4.decompressUsingDict (data.drop 4) inboundScratch with _ | body
      · rfl
      · obtain ⟨hbytes, hrecords⟩ := recordLoop_total (fun ty => (Machine.inboundProgram ty).costs)
          (hdict _ _ _ hbody) lengthHack
        simp only [hbytes, Checked.ok_bind, Machine.readRecords_eq]
        rw [show ((MessageBuffer.fromBytes body).withLengthHack lengthHack).maxBit
          = (MessageBuffer.fromBytes body).maxBit from rfl, hrecords]
        rfl

theorem decodeDownlink_total {lz4 : Lz4}
    (hplain : ∀ input limit out, lz4.decompressPlain input limit = some out → out.length ≤ limit) :
    Machine.decodeDownlink lz4 data = .ok (decodeDownlink lz4 data) := by
  unfold Machine.decodeDownlink decodeDownlink
  by_cases hshort : data.length < 12
  · rw [if_pos hshort, if_pos hshort]
    rfl
  · rw [if_neg hshort, if_neg hshort, Checked.slice_eq (by omega) (by omega), Checked.ok_bind,
      Checked.slice_eq (by omega) (by omega), Checked.ok_bind,
      Checked.slice_eq (by omega) (Nat.le_refl _), Checked.ok_bind, ← List.length_drop,
      List.take_length]
    rcases hbody : lz4.decompressPlain (data.drop 12) inboundScratch with _ | body
    · rfl
    · obtain ⟨hbytes, hrecords⟩ := recordLoop_total (fun ty => (Machine.downlinkProgram ty).costs)
        (hplain _ _ _ hbody) false
      simp only [hbytes, Checked.ok_bind, Machine.readDownlinks_eq]
      rw [show (MessageBuffer.fromBytes body).withLengthHack false = .fromBytes body from rfl]
        at hrecords
      rw [hrecords]
      rfl

theorem length_treeFor (entityType : NetObjEntityType) : (treeFor entityType).length ≤ 1024 := by
  cases entityType <;> decide +kernel

open SyncParse in
theorem parseSyncTree_total {F : Type} [Scalar F] (entityType : NetObjEntityType)
    (isCreate lengthHack : Bool) (build : GameBuild) (hmem : data.length < 2 ^ 60) :
    Machine.parseSyncTree entityType isCreate data lengthHack build
      = .ok (parseSyncTree entityType isCreate data lengthHack build : SyncNodeData F) := by
  have hwords : Checked.words = 2 ^ 64 := rfl
  have htree := length_treeFor entityType
  have hpos := (rooted_treeFor entityType).nonempty
  have hwalk : ∀ (ctx : WalkContext) (st : WalkState F), ctx.tree = treeFor entityType →
      st.cursor = 0 → st.buf.maxBit = st.buf.data.length * 8 → st.buf.data = data →
      st.buf.curBit ≤ 1 → Machine.walk ctx (walkFuel (treeFor entityType)) st
        = .ok (walk ctx (walkFuel (treeFor entityType)) st) := by
    intro ctx st hctx hcursor hsize hdata hbit
    refine ((Machine.walk_eq _).1 st ⟨hsize, ?_, by omega⟩ ?_ ?_).1
    · rw [hdata, hctx]
      omega
    · rw [hctx]
      omega
    · rw [hctx]
      unfold walkFuel
      omega
  unfold Machine.parseSyncTree parseSyncTree
  rw [Machine.fromBytes_eq (by omega), Checked.ok_bind]
  cases isCreate with
  | true =>
      simp only [if_true]
      rw [show (pure (1, 0, (MessageBuffer.fromBytes data).withLengthHack lengthHack)
        : Checked (UInt32 × UInt32 × MessageBuffer)) = .ok _ from rfl, Checked.ok_bind]
      simp only
      rw [hwalk _ _ rfl rfl rfl rfl (Nat.zero_le _)]
      rfl
  | false =>
      simp only [Bool.false_eq_true, if_false]
      rw [Machine.readBit_eq (show 0 + 1 < Checked.words by decide), Checked.ok_bind]
      rw [show (pure (2, _, _) : Checked (UInt32 × UInt32 × MessageBuffer)) = .ok _ from rfl,
        Checked.ok_bind]
      simp only
      rw [hwalk _ _ rfl rfl rfl rfl (Nat.le_refl _)]
      rfl

/-- **Untrusted parsers are total.**  On every byte string in memory the machine runs each parser
to its end: no index out of bounds, no offset that does not fit, no failed assertion, and no turn
of a record loop or step of the tree walk that does not move its cursor.  The bit parsers come to
what the model's come to. -/
theorem untrusted_parsers_total (lz4 : Lz4)
    (hdict : ∀ input limit out, lz4.decompressUsingDict input limit = some out → out.length ≤ limit)
    (hplain : ∀ input limit out, lz4.decompressPlain input limit = some out → out.length ≤ limit)
    (F : Type) [Scalar F] (bytes : List UInt8) (hmem : bytes.length < 2 ^ 60) :
    (∀ lengthHack, Machine.decodeIncoming lz4 bytes lengthHack
        = .ok (decodeIncoming lz4 bytes lengthHack))
      ∧ Machine.decodeDownlink lz4 bytes = .ok (decodeDownlink lz4 bytes)
      ∧ (∀ entityType isCreate lengthHack build,
        Machine.parseSyncTree entityType isCreate bytes lengthHack build
          = .ok (parseSyncTree entityType isCreate bytes lengthHack build : SyncNodeData F))
      ∧ (∃ nack, parseNack bytes = .ok nack) ∧ (∃ ack, parseAck bytes = .ok ack)
      ∧ ∃ ids, ObjectIds.parseObjectIds bytes = .ok ids := by
  have hwords : bytes.length + 8 < Checked.words := by
    have : Checked.words = 2 ^ 64 := rfl
    omega
  refine ⟨decodeIncoming_total hdict, decodeDownlink_total hplain, ?_, parseNack_total hwords,
    parseAck_total hwords, parseObjectIds_total hwords⟩
  exact fun entityType isCreate lengthHack build =>
    parseSyncTree_total entityType isCreate lengthHack build hmem

/-- Literals are within the bound. -/
theorem LiteralRun.length_decode (input : List UInt8) (limit : Nat) (out : List UInt8)
    (h : LiteralRun.decode input limit = some out) : out.length ≤ limit := by
  rcases input with _ | ⟨token, rest⟩
  · exact absurd h (by simp [LiteralRun.decode])
  · obtain ⟨r, -, hr⟩ := Option.bind_eq_some_iff.mp h
    split at hr
    · rename_i hbound
      rw [← Option.some.inj hr]
      omega
    · exact absurd hr (by simp)

/-- A create of ped 5 and a record that is cut short.  Its bytes from the twelfth on are a block
too, and a client reads a removal there. -/
def pedCreate : List UInt8 :=
  LiteralRun.clonePayload
    [0x20, 0x00, 0x20, 0x05, 0x00, 0x00, 0x00, 0x60, 0x60, 0x02, 0x80, 0x03, 0x80, 0x00]

/-- Both directions decompress the packet and find a record in it, and no parser faults on it. -/
theorem pedCreate_parsed :
    ((decodeIncoming LiteralRun.lz4 pedCreate false).map (·.records)
        = some [.clone true 5 1 (some .ped) 0x60 [0x80, 0x03]]
      ∧ (decodeDownlink LiteralRun.lz4 pedCreate).map (·.records) = some [.remove false 5 7])
      ∧ (∀ lengthHack, Machine.decodeIncoming LiteralRun.lz4 pedCreate lengthHack
        = .ok (decodeIncoming LiteralRun.lz4 pedCreate lengthHack))
      ∧ Machine.decodeDownlink LiteralRun.lz4 pedCreate
        = .ok (decodeDownlink LiteralRun.lz4 pedCreate)
      ∧ (∀ entityType isCreate lengthHack build,
        Machine.parseSyncTree entityType isCreate pedCreate lengthHack build
          = .ok (parseSyncTree entityType isCreate pedCreate lengthHack build
            : SyncNodeData Float32))
      ∧ (∃ nack, parseNack pedCreate = .ok nack) ∧ (∃ ack, parseAck pedCreate = .ok ack)
      ∧ ∃ ids, ObjectIds.parseObjectIds pedCreate = .ok ids :=
  ⟨by decide +kernel, untrusted_parsers_total LiteralRun.lz4 LiteralRun.length_decode
    LiteralRun.length_decode Float32 pedCreate (by decide +kernel)⟩

end Parsers

end Baston.Rage
