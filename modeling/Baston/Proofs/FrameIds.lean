/-
Whether the frame ids of one tick tell its fragments apart.

The fragment counter has seven bits, so what matters is how many fragments a tick needs.
That is a matter of the sizes of its records alone: they are put into batches greedily, a
batch being closed when the next record might exceed the budget.  `fragmentsNeeded` counts
the batches from the sizes, and the packets are shown to be that many.
-/
import Baston.Proofs.Downlink
import Baston.Proofs.Entries

namespace Baston.Rage

open MessageBuffer

/-! ### Counting fragments by sizes -/

/-- What the size of a record depends on. -/
inductive Load
  | clone (isCreate : Bool) (blob : Nat)
  | remove
  deriving DecidableEq

/-- The bits up to the blob of a create or sync. -/
def headBits (lengthHack isCreate : Bool) : Nat :=
  3 + (if lengthHack then 16 else 13) + 16 + (if isCreate then 36 else 0) + 16 + 64 + 32 + 12

/-- The bits of a record.  A blob that does not even fit an empty batch is left out. -/
def Load.bits (lengthHack : Bool) : Load → Nat
  | .clone isCreate blob =>
    headBits lengthHack isCreate
      + if headBits lengthHack isCreate + blob * 8 ≤ workBufBytes * 8 then blob * 8 else 0
  | .remove => 3 + 1 + (if lengthHack then 16 else 13) + 16

/-- The fragments closed so far, and the batch that is open. -/
structure Packing where
  closed : Nat := 0
  bits : Nat := 0
  timed : Bool := false
  deriving DecidableEq

namespace Packing

/-- Close the batch if `estimate` more bits could exceed the budget. -/
def makeRoom (p : Packing) (estimate : Nat) : Packing :=
  if p.bits ≠ 0 && Batches.overBudget p.bits estimate then ⟨p.closed + 1, 0, false⟩ else p

/-- A timestamp, unless the batch has one. -/
def stamp (p : Packing) : Packing :=
  if p.timed then p
  else
    let p := p.makeRoom 67
    { p with bits := p.bits + 67, timed := true }

def add (lengthHack : Bool) (p : Packing) (load : Load) : Packing :=
  let p := match load with
    | .clone _ blob => p.stamp.makeRoom (195 + blob * 8)
    | .remove => p.makeRoom 36
  { p with bits := p.bits + load.bits lengthHack }

end Packing

/-- The number of fragments of records of the given sizes. -/
def fragmentsNeeded (lengthHack : Bool) (loads : List Load) : Nat :=
  (loads.foldl (Packing.add lengthHack) {}).closed + 1

/-- What the size of a call depends on. -/
def WriterCall.load : WriterCall → Load
  | .clone _ c => .clone (c.syncType == Rec.create) c.data.length
  | .remove .. => .remove

namespace Batches

/-- The sizes of the batches. -/
def packing (lengthHack : Bool) (b : Batches) : Packing where
  closed := b.sent.length
  bits := (batchBits lengthHack b.batch).length
  timed := timed b.batch

theorem packing_push (lengthHack : Bool) (r : Written) (b : Batches) :
    (b.push lengthHack r).packing lengthHack
      = { (b.packing lengthHack).makeRoom (estimate r) with
          bits := ((b.packing lengthHack).makeRoom (estimate r)).bits + (r.bits lengthHack).length
          timed := ((b.packing lengthHack).makeRoom (estimate r)).timed || timed [r] } := by
  unfold push Packing.makeRoom full packing
  by_cases hfull : ((batchBits lengthHack b.batch).length ≠ 0
      && overBudget (batchBits lengthHack b.batch).length (estimate r)) = true
  · simp only [if_pos hfull, List.length_append, List.length_singleton, Nat.zero_add,
      Bool.false_or]
    rw [batchBits, List.flatMap_singleton]
  · simp only [if_neg hfull, batchBits_append, List.length_append]
    rw [timed, List.any_append]
    rfl

theorem length_timestamp (lengthHack : Bool) (ts : UInt64) :
    ((Written.timestamp ts).bits lengthHack).length = 67 := by
  simp only [Written.bits, length_fieldsBits]
  cases lengthHack <;> rfl

theorem length_clone (lengthHack : Bool) (ts : UInt64) (c : OutboundClone) :
    ((Written.clone c).bits lengthHack).length = (WriterCall.clone ts c).load.bits lengthHack := by
  have hhead : (fieldsBits lengthHack c.header).length
      = headBits lengthHack (c.syncType == Rec.create) := by
    rw [length_fieldsBits]
    unfold OutboundClone.header headBits
    by_cases hc : c.syncType = Rec.create
    · rw [if_pos hc]
      cases lengthHack <;> simp [fieldWidth, entityTypeBits, hc]
    · rw [if_neg hc]
      cases lengthHack <;> simp [fieldWidth, hc]
  simp only [Written.bits, OutboundClone.bits, List.length_append, WriterCall.load, Load.bits,
    hhead]
  split
  · rw [length_bitsFrom]
  · rfl

theorem length_remove (lengthHack forceSteal : Bool) (objectId uniqifier : UInt16) :
    ((Written.remove forceSteal objectId uniqifier).bits lengthHack).length
      = Load.remove.bits lengthHack := by
  simp only [Written.bits, List.length_append, length_fieldsBits, Load.bits]
  cases lengthHack <;> rfl

theorem packing_ensureTimestamp (lengthHack : Bool) (ts : UInt64) (b : Batches) :
    (b.ensureTimestamp lengthHack ts).packing lengthHack = (b.packing lengthHack).stamp := by
  unfold ensureTimestamp Packing.stamp
  by_cases htimed : timed b.batch = true
  · rw [if_pos htimed, if_pos (show (b.packing lengthHack).timed = true from htimed)]
  · rw [if_neg htimed, if_neg (show ¬ (b.packing lengthHack).timed = true from htimed),
      packing_push, length_timestamp]
    simp [timed, estimate]

/-- One call moves the sizes as its load says. -/
theorem packing_write (lengthHack : Bool) (b : Batches) (call : WriterCall) :
    (b.write lengthHack call).packing lengthHack
      = (b.packing lengthHack).add lengthHack call.load := by
  cases call with
  | clone ts c =>
      unfold write Packing.add
      rw [packing_push, packing_ensureTimestamp, length_clone lengthHack ts c]
      simp [timed, estimate, WriterCall.load]
  | remove forceSteal objectId uniqifier =>
      unfold write Packing.add
      rw [packing_push, length_remove]
      simp [timed, estimate, WriterCall.load]

/-- The number of fragments is told by the sizes. -/
theorem length_fragments (lengthHack : Bool) (calls : List WriterCall) :
    (ofCalls lengthHack calls).fragments.length
      = fragmentsNeeded lengthHack (calls.map WriterCall.load) := by
  have h : (ofCalls lengthHack calls).packing lengthHack
      = (calls.map WriterCall.load).foldl (Packing.add lengthHack) {} := by
    induction calls using List.reverseRecOn with
    | nil => rfl
    | append_singleton calls call ih =>
        rw [ofCalls_append, packing_write, ih, List.map_append, List.foldl_append]
        rfl
  unfold fragmentsNeeded fragments
  rw [← h, List.length_append, List.length_singleton]
  rfl

end Batches

/-! ### Frame ids -/

/-- The frame id in the header of a packet. -/
def frameOf (packet : List UInt8) : FrameIndex := .fromU64 (u64FromLe ((packet.drop 4).take 8))

theorem frameOf_packFrame (lz4 : Lz4) (msgType : UInt32) (last : Bool) (cur : UInt8)
    (frame : UInt64) (body : List UInt8) :
    frameOf (packFrame lz4 msgType ⟨last, cur &&& 0x7F, frame⟩ body)
      = ⟨last, cur &&& 0x7F, frame &&& frameMask⟩ := by
  have hcur : (cur &&& 0x7F).toNat ≤ 127 := by
    rw [UInt8.toNat_and]
    exact Nat.and_le_right
  unfold frameOf packFrame
  rw [List.append_assoc, List.drop_left' (length_leBytes _ _),
    List.take_left' (length_leBytes _ _), u64FromLe_leBytes, fromU64_toU64 last hcur]

theorem fragment_toNat (n : Nat) : (UInt8.ofNat n &&& 0x7F).toNat = n % 128 := by
  rw [UInt8.toNat_and, UInt8.toNat_ofNat']
  show n % 256 &&& 127 = n % 128
  rw [show 127 = 2 ^ 7 - 1 from rfl, Nat.and_two_pow_sub_one_eq_mod]
  omega

/-- The frame ids of a stream: the fragments counted from 1 modulo 128, the last one flagged. -/
theorem frames_of_stream (lz4 : Lz4) (msgType : UInt32) (frameIndex : UInt64) (lengthHack : Bool)
    (calls : List WriterCall) :
    (packedStream lz4 msgType frameIndex lengthHack calls).map frameOf
      = (List.range (fragmentsNeeded lengthHack (calls.map WriterCall.load))).map fun n =>
        ⟨n + 1 = fragmentsNeeded lengthHack (calls.map WriterCall.load),
          UInt8.ofNat (n + 1) &&& 0x7F, frameIndex &&& frameMask⟩ := by
  obtain ⟨hlen, hfragment⟩ := packedStream_fragments lz4 msgType frameIndex lengthHack calls
  have hcount := Batches.length_fragments lengthHack calls
  rw [← hcount]
  apply List.ext_getElem
  · rw [List.length_map, List.length_map, List.length_range, hlen]
  · intro n hn hn'
    rw [List.length_map] at hn
    obtain ⟨body, -, hpacket⟩ := hfragment n _ _ (List.getElem?_eq_getElem hn)
      (List.getElem?_eq_getElem (by omega))
    rw [List.getElem_map, hpacket, frameOf_packFrame, List.getElem_map, List.getElem_range]

/-- **The frame ids of a stream are distinct** exactly up to 129 fragments: the 129th repeats
the number of the first, but not its flag. -/
theorem frames_nodup_iff (lz4 : Lz4) (msgType : UInt32) (frameIndex : UInt64) (lengthHack : Bool)
    (calls : List WriterCall) :
    ((packedStream lz4 msgType frameIndex lengthHack calls).map frameOf).Nodup
      ↔ fragmentsNeeded lengthHack (calls.map WriterCall.load) ≤ 129 := by
  rw [frames_of_stream]
  generalize fragmentsNeeded lengthHack (calls.map WriterCall.load) = count
  constructor
  · intro h
    by_contra hmany
    have hsame : (0 : Nat) = 128 := by
      refine (List.inj_on_of_nodup_map h) (List.mem_range.mpr (by omega))
        (List.mem_range.mpr (by omega)) ?_
      rw [decide_eq_false (by omega), decide_eq_false (by omega)]
      rfl
    exact absurd hsame (by decide)
  · intro hfew
    refine List.Nodup.map_on ?_ List.nodup_range
    intro i hi j hj hframe
    rw [List.mem_range] at hi hj
    obtain ⟨hlast, hcur, -⟩ := FrameIndex.mk.inj hframe
    have hmod := congrArg UInt8.toNat hcur
    rw [fragment_toNat, fragment_toNat] at hmod
    have hlast' : i + 1 = count ↔ j + 1 = count := by simpa using hlast
    omega

end Baston.Rage

namespace Baston.Zone

open Assoc Baston.Rage Trace ServerGameState

variable {F : Type}

/-! ### The packets of a tick -/

/-- The writer call of a record. -/
def OutboundRecord.call (frameIndex : UInt64) : OutboundRecord → WriterCall
  | .clone c => .clone frameIndex c
  | .remove objectId uniqifier => .remove false objectId uniqifier

/-- What the size of a record depends on. -/
def OutboundRecord.load : OutboundRecord → Load
  | .clone c => .clone (c.syncType == Rec.create) c.data.length
  | .remove _ _ => .remove

theorem load_call (frameIndex : UInt64) (r : OutboundRecord) :
    (r.call frameIndex).load = r.load := by
  cases r with
  | clone c => rfl
  | remove objectId uniqifier => rfl

/-- The packets of a plan are the stream of its records. -/
theorem encodePlan_eq (lz4 : Lz4) (entities : Map UInt16 (ServerEntity F)) (frameIndex : UInt64)
    (lengthHack : Bool) (view : ClientView F) (plan : TickPlan) :
    encodePlan lz4 entities frameIndex lengthHack view plan
      = if plan.creates = [] ∧ plan.syncs = [] ∧ plan.removes = [] then []
        else packedStream lz4 msgPackedClones frameIndex lengthHack
          ((planRecords entities frameIndex view plan).map (·.call frameIndex)) := by
  unfold encodePlan packedStream
  rw [List.foldl_map]
  congr 3
  funext w r
  cases r with
  | clone c => rfl
  | remove objectId uniqifier => rfl

/-- The frame ids of a plan are distinct exactly when its records need at most 129 fragments. -/
theorem plan_frames_nodup_iff (lz4 : Lz4) (entities : Map UInt16 (ServerEntity F))
    (frameIndex : UInt64) (lengthHack : Bool) (view : ClientView F) (plan : TickPlan) :
    ((encodePlan lz4 entities frameIndex lengthHack view plan).map frameOf).Nodup
      ↔ fragmentsNeeded lengthHack ((planRecords entities frameIndex view plan).map
        OutboundRecord.load) ≤ 129 := by
  rw [encodePlan_eq]
  by_cases hempty : plan.creates = [] ∧ plan.syncs = [] ∧ plan.removes = []
  · have hnone : planRecords entities frameIndex view plan = [] := by
      unfold planRecords
      rw [hempty.1, hempty.2.1, hempty.2.2]
      rfl
    rw [if_pos hempty, hnone]
    exact iff_of_true List.nodup_nil (show 1 ≤ 129 by decide)
  · rw [if_neg hempty, frames_nodup_iff, List.map_map]
    simp only [Function.comp_def, load_call]

variable [Scalar F]

/-- The packets `tick_clients` has for a client. -/
def clientPackets (lz4 : Lz4) (s : ServerGameState F) (ord : IterOrder UInt16)
    (fallbackFocus : Map UInt32 (Vec3 F)) (cfg : InterestConfig F) (source : UInt32) :
    List (List UInt8) :=
  packetsTo (.tickClients ord fallbackFocus cfg)
    (.ticks (s.tickClients lz4 ord fallbackFocus cfg).2) source

/-- The sizes of the records planned for a client. -/
def plannedLoads (s : ServerGameState F) (ord : IterOrder UInt16)
    (fallbackFocus : Map UInt32 (Vec3 F)) (cfg : InterestConfig F) (source : UInt32)
    (state : ClientState F) : List Load :=
  let (view, plan) := s.clientPlan ord fallbackFocus cfg source state
  (planRecords s.entities s.frameIndex view plan).map OutboundRecord.load

theorem clientPackets_eq (lz4 : Lz4) {s : ServerGameState F} (ord : IterOrder UInt16)
    (fallbackFocus : Map UInt32 (Vec3 F)) (cfg : InterestConfig F) {source : UInt32}
    {state : ClientState F} (hstate : s.clients.lookup source = some state) :
    clientPackets lz4 s ord fallbackFocus cfg source
      = encodePlan lz4 s.entities s.frameIndex s.lengthHack
        (s.clientPlan ord fallbackFocus cfg source state).1
        (s.clientPlan ord fallbackFocus cfg source state).2 := by
  have hstep : step lz4 (.tickClients ord fallbackFocus cfg) s
      = some ((s.tickClients lz4 ord fallbackFocus cfg).1,
        .ticks (s.tickClients lz4 ord fallbackFocus cfg).2) := rfl
  unfold clientPackets
  rw [packets_of_step hstep source]
  simp only [viewOf, tickOf, hstate, Option.map_some]
  rfl

/-- **The fragments of a tick are told apart** by their frame ids exactly when the records
planned for the client, by their sizes, need at most 129 fragments. -/
theorem fragment_ids_distinct_iff (lz4 : Lz4) (s : ServerGameState F) (ord : IterOrder UInt16)
    (fallbackFocus : Map UInt32 (Vec3 F)) (cfg : InterestConfig F) (source : UInt32)
    (state : ClientState F) (hstate : s.clients.lookup source = some state) :
    ((clientPackets lz4 s ord fallbackFocus cfg source).map frameOf).Nodup
      ↔ fragmentsNeeded s.lengthHack (plannedLoads s ord fallbackFocus cfg source state) ≤ 129 := by
  rw [clientPackets_eq lz4 ord fallbackFocus cfg hstate]
  exact plan_frames_nodup_iff lz4 s.entities s.frameIndex s.lengthHack _ _

/-- A create of object `id` with a blob of 1024 bytes. -/
def bulkyCreate (id : Nat) : List UInt8 :=
  [0x20, 0x00, 0x20, UInt8.ofNat id, 0x00, 0x00, 0x00, 0x00, 0x54, 0x00]
    ++ (List.replicate 1024 0 ++ [0xE0])

/-- Client 2 joins, and client 1 creates some such objects at the origin. -/
def bulkyScene (objects : Nat) : List (Op Float32) :=
  .addClient 2 :: (List.range objects).flatMap fun i =>
    [.ingest 1 (LiteralRun.clonePayload (bulkyCreate (i + 1))),
      .setPosition (UInt16.ofNat (i + 1)) Vec3.zero]

/-- Two of them go to client 2 in four fragments. -/
theorem two_creates_four_fragments :
    ∃ past s, Run (step LiteralRun.lz4)
        (ServerGameState.withBuild false false default : ServerGameState Float32) past s
      ∧ (∃ state ∈ s.clients.lookup 2, fragmentsNeeded s.lengthHack
        (plannedLoads s (.stored UInt16) ∅ .standard 2 state) = 4)
      ∧ ((clientPackets LiteralRun.lz4 s (.stored UInt16) ∅ .standard 2).map frameOf).Nodup := by
  obtain ⟨past, s, run, hcheck⟩ := exists_run (step LiteralRun.lz4)
    (ServerGameState.withBuild false false default : ServerGameState Float32) (bulkyScene 2)
    (fun _ s => (s.clients.lookup 2).any fun state => fragmentsNeeded s.lengthHack
      (plannedLoads s (.stored UInt16) ∅ .standard 2 state) = 4) (by decide +kernel)
  simp only [Option.any_eq_true, decide_eq_true_eq] at hcheck
  obtain ⟨state, hstate, hfour⟩ := hcheck
  refine ⟨past, s, run, ⟨state, hstate, hfour⟩, ?_⟩
  rw [fragment_ids_distinct_iff LiteralRun.lz4 s _ _ _ 2 state hstate, hfour]
  decide

/-- The creates of 65 are within the byte budget by the size of their sync blobs, which are empty,
and take 130 fragments: the 129th has the frame id of the first. -/
theorem bulky_creates_repeat_frame_id :
    ∃ past s, Run (step LiteralRun.lz4)
        (ServerGameState.withBuild false false default : ServerGameState Float32) past s
      ∧ InterestConfig.standard.accepted = true
      ∧ ¬ ((clientPackets LiteralRun.lz4 s (.stored UInt16) ∅ .standard 2).map frameOf).Nodup := by
  obtain ⟨past, s, run, hcheck⟩ := exists_run (step LiteralRun.lz4)
    (ServerGameState.withBuild false false default : ServerGameState Float32) (bulkyScene 65)
    (fun _ s => (s.clients.lookup 2).any fun state =>
      plannedLoads s (.stored UInt16) ∅ .standard 2 state = List.replicate 65 (.clone true 1024))
    (by decide +kernel)
  simp only [Option.any_eq_true, decide_eq_true_eq] at hcheck
  obtain ⟨state, hstate, hloads⟩ := hcheck
  refine ⟨past, s, run, by decide +kernel, ?_⟩
  have hmany : ∀ hack, ¬ fragmentsNeeded hack (List.replicate 65 (.clone true 1024)) ≤ 129 := by
    decide +kernel
  have hiff := plan_frames_nodup_iff LiteralRun.lz4 s.entities s.frameIndex s.lengthHack
    (s.clientPlan (.stored UInt16) ∅ .standard 2 state).1
    (s.clientPlan (.stored UInt16) ∅ .standard 2 state).2
  rw [clientPackets_eq LiteralRun.lz4 _ _ _ hstate]
  intro h
  have hfew : fragmentsNeeded s.lengthHack
      (plannedLoads s (.stored UInt16) ∅ .standard 2 state) ≤ 129 := hiff.mp h
  rw [hloads] at hfew
  exact hmany s.lengthHack hfew

end Baston.Zone
