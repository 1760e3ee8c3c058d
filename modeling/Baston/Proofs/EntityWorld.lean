/-
What scripts see is what was published last.

Every index is looked at one key at a time: a publication is a loop over the entities, and at
one key the loop only remembers the last entity that was about it.  The entities and the seats
come out right.  The ped of a player is the last ped in the list that the player owns, whatever
its wire type, and the last occupant of a seat stays when the vehicle goes.
-/
import Baston.Lib.Trace
import Baston.Rage.Clone
import Baston.Scripting.EntityWorld

namespace Baston.Scripting

open Assoc Baston.Rage Trace

variable {F : Type}

/-! ### Keys of seats -/

theorem seatKey_toNat {vehicle : UInt32} {raw : Int32} {key : UInt64}
    (h : seatKey vehicle raw = some key) :
    0 ≤ raw ∧ raw ≤ 255 ∧ key.toNat = vehicle.toNat * 256 + raw.toNatClampNeg
      ∧ raw.toNatClampNeg < 256 := by
  unfold seatKey at h
  split at h
  · rename_i hr
    obtain ⟨h0, h255⟩ := hr
    have hraw : raw.toNatClampNeg < 256 := by
      rw [← Int32.toNat_toInt]
      rw [Int32.le_iff_toInt_le] at h0 h255
      have h2 : (255 : Int32).toInt = 255 := by decide
      omega
    refine ⟨h0, h255, ?_, hraw⟩
    rw [← Option.some.inj h]
    have hv := vehicle.toNat_lt
    have hbyte : raw.toUInt32.toUInt8.toUInt64.toNat = raw.toNatClampNeg := by
      rw [UInt8.toNat_toUInt64, UInt32.toNat_toUInt8, Int32.toNat_toUInt32_of_le h0]
      exact Nat.mod_eq_of_lt (by omega)
    have hshift : (vehicle.toUInt64 <<< 8).toNat = vehicle.toNat <<< 8 := by
      rw [UInt64.toNat_shiftLeft, UInt32.toNat_toUInt64]
      have h8 : (8 : UInt64).toNat % 64 = 8 := by decide
      rw [h8, Nat.shiftLeft_eq]
      exact Nat.mod_eq_of_lt (by omega)
    rw [UInt64.toNat_or, hbyte, hshift, ← Nat.shiftLeft_add_eq_or_of_lt (by omega),
      Nat.shiftLeft_eq]
  · cases h

/-- A key is of one vehicle and one seat. -/
theorem seatKey_inj {vehicle vehicle' : UInt32} {raw raw' : Int32} {key : UInt64}
    (h : seatKey vehicle raw = some key) (h' : seatKey vehicle' raw' = some key) :
    vehicle = vehicle' ∧ raw = raw' := by
  obtain ⟨h0, -, hkey, hlt⟩ := seatKey_toNat h
  obtain ⟨h0', -, hkey', hlt'⟩ := seatKey_toNat h'
  refine ⟨UInt32.toNat_inj.mp (by omega), Int32.toInt_inj.mp ?_⟩
  have hraw : raw.toNatClampNeg = raw'.toNatClampNeg := by omega
  rw [Int32.le_iff_toInt_le] at h0 h0'
  rw [← Int32.toNat_toInt, ← Int32.toNat_toInt] at hraw
  have hz : (0 : Int32).toInt = 0 := by decide
  omega

/-! ### Loops that remember the last -/

section Loops

variable {α β : Type} {p q : α → Prop} [DecidablePred p] [DecidablePred q] {f : α → β}

/-- What is remembered of a list, newest first, on top of what was known. -/
def remember (p q : α → Prop) [DecidablePred p] [DecidablePred q] (f : α → β) (known : Option β)
    (a : α) : Option β :=
  if p a then some (f a) else if q a then some (known.getD (f a)) else known

/-- What the loop remembers: the last that counts, or what was known, or the first that fills
the gap. -/
theorem foldl_remember (l : List α) (known : Option β) :
    l.foldl (remember p q f) known
      = ((l.filter fun a => p a).getLast?.map f).or
          (known.or ((l.find? fun a => q a).map f)) := by
  induction l generalizing known with
  | nil => simp
  | cons a rest ih =>
      rw [List.foldl_cons, ih]
      unfold remember
      by_cases hp : p a
      · rw [if_pos hp, List.filter_cons_of_pos (by simpa using hp)]
        cases hlast : (rest.filter fun a => p a).getLast? with
        | none =>
            rw [List.getLast?_eq_none_iff] at hlast
            simp [hlast]
        | some b => simp [List.getLast?_cons, hlast]
      · rw [if_neg hp, List.filter_cons_of_neg (by simpa using hp)]
        by_cases hq : q a
        · rw [if_pos hq, List.find?_cons_of_pos (by simpa using hq)]
          cases known with
          | none => simp
          | some b => simp
        · rw [if_neg hq, List.find?_cons_of_neg (by simpa using hq)]

/-- A loop that fills no gaps and starts from nothing. -/
theorem foldl_remember_last (l : List α) :
    l.foldl (remember p (fun _ => False) f) none = (l.filter fun a => p a).getLast?.map f := by
  rw [foldl_remember, List.find?_eq_none.mpr (by simp), Option.map_none, Option.or_none,
    Option.or_none]

/-- A loop that looks at one part of its state only. -/
theorem foldl_project {σ : Type} {step : σ → α → σ} {g : Option β → α → Option β}
    (part : σ → Option β) (h : ∀ s a, part (step s a) = g (part s) a) (l : List α)
    (s : σ) : part (l.foldl step s) = l.foldl g (part s) := by
  induction l generalizing s with
  | nil => rfl
  | cons a rest ih =>
      rw [List.foldl_cons, List.foldl_cons, ih, h]

end Loops

namespace EntitySummary

/-- The ped sits at a key. -/
def SitsAt (key : UInt64) (e : EntitySummary F) : Prop :=
  e.entityType = .ped ∧ (e.seat.bind fun at_ => seatKey at_.1 at_.2) = some key

/-- The ped has sat at a key. -/
def SatAt (key : UInt64) (e : EntitySummary F) : Prop :=
  e.entityType = .ped ∧ (e.lastSeat.bind fun at_ => seatKey at_.1 at_.2) = some key

instance (key : UInt64) : DecidablePred (SitsAt key : EntitySummary F → Prop) :=
  fun _ => inferInstanceAs (Decidable (_ ∧ _))

instance (key : UInt64) : DecidablePred (SatAt key : EntitySummary F → Prop) :=
  fun _ => inferInstanceAs (Decidable (_ ∧ _))

/-- The ped's current vehicle, and its seat as scripts count. -/
def Sits (vehicle : UInt32) (scriptSeat : Int32) (e : EntitySummary F) : Prop :=
  e.entityType = .ped ∧ e.seat = some (vehicle, scriptSeat + seatIndexBias)

/-- The vehicle the ped has left, and the seat. -/
def LastSat (vehicle : UInt32) (scriptSeat : Int32) (e : EntitySummary F) : Prop :=
  e.entityType = .ped ∧ e.lastSeat = some (vehicle, scriptSeat + seatIndexBias)

/-- The player's own entity. -/
def IsPlayer (player : UInt32) (e : EntitySummary F) : Prop :=
  e.owner = player ∧ e.netType = NetObjEntityType.player.toU8

instance (vehicle : UInt32) (seat : Int32) :
    DecidablePred (Sits vehicle seat : EntitySummary F → Prop) :=
  fun _ => inferInstanceAs (Decidable (_ ∧ _))

theorem key_iff {place : Option (UInt32 × Int32)} {vehicle : UInt32} {raw : Int32} {key : UInt64}
    (h : seatKey vehicle raw = some key) :
    (place.bind fun at_ => seatKey at_.1 at_.2) = some key ↔ place = some (vehicle, raw) := by
  constructor
  · intro hplace
    obtain ⟨⟨vehicle', raw'⟩, rfl, hkey⟩ := Option.bind_eq_some_iff.mp hplace
    obtain ⟨rfl, rfl⟩ := seatKey_inj hkey h
    rfl
  · intro hplace
    rw [hplace]
    exact h

theorem sitsAt_iff {vehicle : UInt32} {seat : Int32} {key : UInt64} {e : EntitySummary F}
    (h : seatKey vehicle (seat + seatIndexBias) = some key) : e.SitsAt key ↔ e.Sits vehicle seat :=
  and_congr_right fun _ => key_iff h

theorem satAt_iff {vehicle : UInt32} {seat : Int32} {key : UInt64} {e : EntitySummary F}
    (h : seatKey vehicle (seat + seatIndexBias) = some key) :
    e.SatAt key ↔ e.LastSat vehicle seat :=
  and_congr_right fun _ => key_iff h

end EntitySummary

/-! ### One publication, at one key -/

namespace EntityWorldView

variable (v : EntityWorldView F) (e : EntitySummary F)

theorem indexSeat_frame : (v.indexSeat e).entities = v.entities
    ∧ (v.indexSeat e).revision = v.revision ∧ (v.indexSeat e).playerPeds = v.playerPeds := by
  unfold indexSeat
  split
  · exact ⟨rfl, rfl, rfl⟩
  · exact ⟨rfl, rfl, rfl⟩

theorem indexLastSeat_frame : (v.indexLastSeat e).entities = v.entities
    ∧ (v.indexLastSeat e).revision = v.revision ∧ (v.indexLastSeat e).playerPeds = v.playerPeds
    ∧ (v.indexLastSeat e).occupants = v.occupants := by
  unfold indexLastSeat
  split
  · exact ⟨rfl, rfl, rfl, rfl⟩
  · exact ⟨rfl, rfl, rfl, rfl⟩

/-- The seats change nothing else. -/
theorem indexOccupancy_frame : (v.indexOccupancy e).entities = v.entities
    ∧ (v.indexOccupancy e).revision = v.revision
    ∧ (v.indexOccupancy e).playerPeds = v.playerPeds := by
  obtain ⟨hentities, hrevision, hpeds⟩ := v.indexSeat_frame e
  obtain ⟨hentities', hrevision', hpeds', -⟩ := (v.indexSeat e).indexLastSeat_frame e
  exact ⟨hentities'.trans hentities, hrevision'.trans hrevision, hpeds'.trans hpeds⟩

theorem occupants_indexSeat (key : UInt64) :
    (v.indexSeat e).occupants.lookup key
      = if (e.seat.bind fun at_ => seatKey at_.1 at_.2) = some key then some e.networkId
        else v.occupants.lookup key := by
  unfold indexSeat
  split
  · rename_i here hhere
    rw [hhere, Map.lookup_insert_of]
    simp only [Option.some.injEq, eq_comm]
  · rename_i hnone
    rw [hnone, if_neg (by simp)]

theorem lastOccupants_indexSeat (key : UInt64) :
    (v.indexSeat e).lastOccupants.lookup key
      = if (e.seat.bind fun at_ => seatKey at_.1 at_.2) = some key then some e.networkId
        else v.lastOccupants.lookup key := by
  unfold indexSeat
  split
  · rename_i here hhere
    rw [hhere, Map.lookup_insert_of]
    simp only [Option.some.injEq, eq_comm]
  · rename_i hnone
    rw [hnone, if_neg (by simp)]

theorem lastOccupants_indexLastSeat (key : UInt64) :
    (v.indexLastSeat e).lastOccupants.lookup key
      = if (e.lastSeat.bind fun at_ => seatKey at_.1 at_.2) = some key then
          some ((v.lastOccupants.lookup key).getD e.networkId)
        else v.lastOccupants.lookup key := by
  unfold indexLastSeat
  split
  · rename_i here hhere
    rw [hhere, Map.lookup_entryOrInsert]
    by_cases hkey : key = here
    · rw [if_pos hkey, if_pos (by rw [hkey]), hkey]
    · rw [if_neg hkey, if_neg fun heq => hkey (Option.some.inj heq).symm]
  · rename_i hnone
    rw [hnone, if_neg (by simp)]

theorem revision_publishOne : (v.publishOne e).revision = v.revision := by
  unfold publishOne
  split
  · exact (indexOccupancy_frame _ e).2.1
  · rfl

theorem entities_publishOne :
    (v.publishOne e).entities = v.entities.insert e.networkId (e, v.revision) := by
  unfold publishOne
  split
  · dsimp only
    rw [(indexOccupancy_frame _ e).1, (indexOccupancy_frame _ e).2.1]
  · rfl

theorem playerPeds_publishOne (player : UInt32) :
    (v.publishOne e).playerPeds.lookup player
      = remember (fun e => e.entityType = .ped ∧ e.owner = player) (fun _ => False)
          (fun e : EntitySummary F => e.networkId) (v.playerPeds.lookup player) e := by
  unfold publishOne remember
  by_cases hped : e.entityType = .ped
  · rw [if_pos hped]
    dsimp only
    rw [(indexOccupancy_frame _ e).2.2, Map.lookup_insert_of]
    by_cases hp : player = e.owner
    · simp [hp, hped]
    · simp [hp, Ne.symm hp]
  · simp [hped]

theorem occupants_publishOne (key : UInt64) :
    (v.publishOne e).occupants.lookup key
      = remember (EntitySummary.SitsAt key) (fun _ => False)
          (fun e : EntitySummary F => e.networkId) (v.occupants.lookup key) e := by
  unfold publishOne remember EntitySummary.SitsAt
  by_cases hped : e.entityType = .ped
  · rw [if_pos hped]
    dsimp only
    unfold indexOccupancy
    rw [(indexLastSeat_frame _ e).2.2.2, occupants_indexSeat]
    simp only [hped, true_and, if_false]
  · simp [hped]

theorem lastOccupants_publishOne (key : UInt64) :
    (v.publishOne e).lastOccupants.lookup key
      = remember (EntitySummary.SitsAt key) (EntitySummary.SatAt key)
          (fun e : EntitySummary F => e.networkId) (v.lastOccupants.lookup key) e := by
  unfold publishOne remember EntitySummary.SitsAt EntitySummary.SatAt
  by_cases hped : e.entityType = .ped
  · rw [if_pos hped]
    dsimp only
    unfold indexOccupancy
    rw [lastOccupants_indexLastSeat, lastOccupants_indexSeat]
    simp only [hped, true_and]
    by_cases hsits : (e.seat.bind fun at_ => seatKey at_.1 at_.2) = some key
    · rw [if_pos hsits, Option.getD_some, ite_self, if_pos hsits]
    · rw [if_neg hsits, if_neg hsits]
  · simp [hped]

/-! ### A whole publication -/

theorem foldl_publishOne (l : List (EntitySummary F)) (id : UInt32) (v : EntityWorldView F) :
    (l.foldl publishOne v).revision = v.revision
      ∧ (l.foldl publishOne v).entities.lookup id
        = ((l.filter fun e => e.networkId = id).getLast?.map fun e => (e, v.revision)).or
            (v.entities.lookup id) := by
  induction l generalizing v with
  | nil => simp
  | cons e rest ih =>
      obtain ⟨hrevision, hlookup⟩ := ih (v.publishOne e)
      rw [revision_publishOne] at hrevision hlookup
      refine ⟨hrevision, ?_⟩
      rw [List.foldl_cons, hlookup, entities_publishOne, Map.lookup_insert_of]
      by_cases hid : e.networkId = id
      · rw [List.filter_cons_of_pos (by simpa using hid), if_pos hid.symm]
        cases hlast : (rest.filter fun e => e.networkId = id).getLast? with
        | none =>
            rw [List.getLast?_eq_none_iff] at hlast
            simp [hlast]
        | some b => simp [List.getLast?_cons, hlast]
      · rw [List.filter_cons_of_neg (by simpa using hid), if_neg (Ne.symm hid)]

/-- Every entity was seen in the last publication. -/
def Current (v : EntityWorldView F) : Prop :=
  ∀ id entry, v.entities.lookup id = some entry → entry.2 = v.revision

variable {v}

/-- What a mirror holds after a publication is what was published. -/
theorem lookup_publish (h : Current v) (l : List (EntitySummary F)) (id : UInt32) :
    (v.publish l).entities.lookup id
      = (l.filter fun e => e.networkId = id).getLast?.map fun e => (e, v.revision + 1) := by
  obtain ⟨hrevision, hlookup⟩ := foldl_publishOne l id
    { v with revision := v.revision + 1, playerPeds := ∅, occupants := ∅ }
  unfold publish
  dsimp only
  rw [Map.lookup_retain, hlookup, hrevision]
  cases (l.filter fun e => e.networkId = id).getLast? with
  | some e => simp
  | none =>
      cases hold : v.entities.lookup id with
      | none => simp
      | some entry =>
          have hstale : entry.2 ≠ v.revision + 1 := by
            rw [h id entry hold]
            intro heq
            have := congrArg UInt64.toNat heq
            rw [UInt64.toNat_add] at this
            have hlt := v.revision.toNat_lt
            have hone : (1 : UInt64).toNat = 1 := rfl
            omega
          simp [hstale]

theorem revision_publish (l : List (EntitySummary F)) :
    (v.publish l).revision = v.revision + 1 :=
  (foldl_publishOne l 0 { v with revision := v.revision + 1, playerPeds := ∅, occupants := ∅ }).1

theorem current_publish (h : Current v) (l : List (EntitySummary F)) :
    Current (v.publish l) := by
  intro id entry hentry
  rw [lookup_publish h] at hentry
  obtain ⟨e, -, rfl⟩ := Option.map_eq_some_iff.mp hentry
  exact (revision_publish l).symm

theorem playerPed_publish (l : List (EntitySummary F)) (player : UInt32) :
    (v.publish l).playerPed player
      = (l.filter fun e => e.entityType = .ped ∧ e.owner = player).getLast?.map
          (·.networkId) := by
  have h := foldl_project (fun v : EntityWorldView F => v.playerPeds.lookup player)
    (fun v e => playerPeds_publishOne v e player) l
    { v with revision := v.revision + 1, playerPeds := ∅, occupants := ∅ }
  exact h.trans (foldl_remember_last l)

theorem occupants_publish (l : List (EntitySummary F)) (key : UInt64) :
    (v.publish l).occupants.lookup key
      = (l.filter fun e => e.SitsAt key).getLast?.map (·.networkId) := by
  have h := foldl_project (fun v : EntityWorldView F => v.occupants.lookup key)
    (fun v e => occupants_publishOne v e key) l
    { v with revision := v.revision + 1, playerPeds := ∅, occupants := ∅ }
  exact h.trans (foldl_remember_last l)

theorem lastOccupants_publish (l : List (EntitySummary F)) (key : UInt64) :
    (v.publish l).lastOccupants.lookup key
      = ((l.filter fun e => e.SitsAt key).getLast?.map (·.networkId)).or
          ((v.lastOccupants.lookup key).or
            ((l.find? fun e => e.SatAt key).map (·.networkId))) := by
  have h := foldl_project (fun v : EntityWorldView F => v.lastOccupants.lookup key)
    (fun v e => lastOccupants_publishOne v e key) l
    { v with revision := v.revision + 1, playerPeds := ∅, occupants := ∅ }
  rw [foldl_remember] at h
  exact h

end EntityWorldView

/-! ### What the mirror should answer -/

abbrev WorldEntry (F : Type) := Entry (EntityWorldView F) (World F) Unit

/-- The last published list. -/
def lastWorld : List (WorldEntry F) → List (EntitySummary F)
  | [] => []
  | e :: _ => e.op.entities

/-- A vehicle of that network id is in the world. -/
def HasVehicle (world : List (EntitySummary F)) (vehicle : UInt32) : Prop :=
  ∃ e ∈ world, e.networkId = vehicle ∧ e.entityType = .vehicle

/-- The vehicle was there, and is not in the next world. -/
def Leaves (past : List (WorldEntry F)) (world : List (EntitySummary F)) (vehicle : UInt32) :
    Prop :=
  HasVehicle (lastWorld past) vehicle ∧ ¬ HasVehicle world vehicle

/-- A publication says that a ped sits or last sat in a seat. -/
def Records (world : List (EntitySummary F)) (vehicle : UInt32) (seat : Int32) (ped : UInt32) :
    Prop :=
  ∃ e ∈ world, e.networkId = ped ∧ (e.Sits vehicle seat ∨ e.LastSat vehicle seat)

/-- A ped was recorded in a seat, and the vehicle has not left since. -/
def RecordedSince (vehicle : UInt32) (seat : Int32) (ped : UInt32) : List (WorldEntry F) → Prop
  | [] => False
  | e :: past =>
    Records e.op.entities vehicle seat ped
      ∨ ¬ Leaves past e.op.entities vehicle ∧ RecordedSince vehicle seat ped past

/-- The script world mirrors the last publication. -/
structure Reflects (past : List (WorldEntry F)) (v : EntityWorldView F) : Prop where
  get : ∀ id e, v.get id = some e ↔ e ∈ lastWorld past ∧ e.networkId = id
  contains : ∀ id, v.contains id = true ↔ ∃ e ∈ lastWorld past, e.networkId = id
  owner : ∀ id o, v.owner id = some o ↔ ∃ e ∈ lastWorld past, e.networkId = id ∧ e.owner = o
  ascending : ∀ ord ty, (v.idsOfType ord ty).Pairwise (· < ·)
  ofType : ∀ ord ty id, id ∈ v.idsOfType ord ty
    ↔ ∃ e ∈ lastWorld past, e.networkId = id ∧ e.entityType = ty
  /-- A seat that is taken names a ped in it. -/
  occupant : ∀ vehicle seat ped, v.occupant vehicle seat = some ped →
    ∃ e ∈ lastWorld past, e.networkId = ped ∧ e.Sits vehicle seat
  vacant : ∀ vehicle seat, v.occupant vehicle seat = none →
    ∀ e ∈ lastWorld past, ¬ e.Sits vehicle seat
  /-- A player's ped is its entity of wire type `Player`. -/
  playerPed : ∀ player ped, v.playerPed player = some ped →
    ∃ e ∈ lastWorld past, e.networkId = ped ∧ e.IsPlayer player
  noPlayerPed : ∀ player, v.playerPed player = none →
    ∀ e ∈ lastWorld past, ¬ e.IsPlayer player
  lastOccupant : ∀ vehicle seat ped, v.lastOccupant vehicle seat = some ped →
    RecordedSince vehicle seat ped past

/-- The last ped of an owner in a list. -/
def lastPed (world : List (EntitySummary F)) (player : UInt32) : Option (EntitySummary F) :=
  (world.filter fun e => e.entityType = .ped ∧ e.owner = player).getLast?

/-- What a publication has to be like. -/
structure Faithful (past : List (WorldEntry F)) (e : WorldEntry F) : Prop where
  /-- Peds sit in seats that fit a byte. -/
  seats : ∀ ped ∈ e.op.entities, ped.entityType = .ped → ∀ place ∈ ped.seat,
    0 ≤ place.2 ∧ place.2 ≤ 255
  /-- The last ped of a client in the list is its player. -/
  players : ∀ s ∈ e.op.entities,
    s.entityType = .ped ∨ s.netType = NetObjEntityType.player.toU8 →
      ∃ l, lastPed e.op.entities s.owner = some l ∧ l.netType = NetObjEntityType.player.toU8
  /-- A seat of a vehicle that leaves has no last occupant, or is still reported. -/
  departures : ∀ vehicle, Leaves past e.op.entities vehicle → ∀ seat q,
    e.pre.lastOccupant vehicle seat = some q →
      (∃ s ∈ e.op.entities, s.Sits vehicle seat)
        ∨ ∃ s ∈ e.op.entities, s.networkId = q ∧ s.LastSat vehicle seat

/-! ### The answers after a publication -/

section Answers

open EntityWorldView

variable {v : EntityWorldView F} {w : World F}

theorem getLast?_id_iff {id : UInt32} {e : EntitySummary F} :
    (w.entities.filter fun e => e.networkId = id).getLast? = some e
      ↔ e ∈ w.entities ∧ e.networkId = id := by
  constructor
  · intro h
    have hmem := List.mem_filter.mp (List.mem_of_getLast? h)
    exact ⟨hmem.1, by simpa using hmem.2⟩
  · rintro ⟨he, rfl⟩
    have hne : w.entities.filter (fun e' => e'.networkId = e.networkId) ≠ [] :=
      List.ne_nil_of_mem (List.mem_filter.mpr ⟨he, by simp⟩)
    have hlast := List.mem_filter.mp (List.getLast_mem hne)
    rw [List.getLast?_eq_some_getLast hne]
    congr 1
    exact List.inj_on_of_nodup_map w.distinct hlast.1 he (by simpa using hlast.2)

theorem get_publish_iff (h : Current v) {id : UInt32} {e : EntitySummary F} :
    (v.publish w.entities).get id = some e ↔ e ∈ w.entities ∧ e.networkId = id := by
  unfold EntityWorldView.get
  rw [lookup_publish h, Option.map_map]
  refine Iff.trans ?_ getLast?_id_iff
  simp

theorem contains_publish_iff (h : Current v) {id : UInt32} :
    (v.publish w.entities).contains id = true ↔ ∃ e ∈ w.entities, e.networkId = id := by
  unfold EntityWorldView.contains
  rw [decide_eq_true_iff, ← AList.lookup_isSome, lookup_publish h, Option.isSome_map,
    Option.isSome_iff_exists]
  exact exists_congr fun e => getLast?_id_iff

theorem owner_publish_iff (h : Current v) {id o : UInt32} :
    (v.publish w.entities).owner id = some o
      ↔ ∃ e ∈ w.entities, e.networkId = id ∧ e.owner = o := by
  unfold EntityWorldView.owner
  rw [lookup_publish h, Option.map_map, Option.map_eq_some_iff]
  refine exists_congr fun e => ?_
  rw [getLast?_id_iff, and_assoc]
  exact Iff.rfl

theorem mem_idsOfType_publish (h : Current v) {ord : IterOrder UInt32} {ty : ScriptEntityType}
    {id : UInt32} : id ∈ (v.publish w.entities).idsOfType ord ty
      ↔ ∃ e ∈ w.entities, e.networkId = id ∧ e.entityType = ty := by
  unfold EntityWorldView.idsOfType
  rw [(List.perm_insertionSort _ _).mem_iff, List.mem_map]
  constructor
  · rintro ⟨⟨k, entry⟩, hmem, rfl⟩
    obtain ⟨hvisit, hty⟩ := List.mem_filter.mp hmem
    rw [Map.mem_visit, lookup_publish h, Option.map_eq_some_iff] at hvisit
    obtain ⟨e, he, rfl⟩ := hvisit
    exact ⟨e, (getLast?_id_iff.mp he).1, rfl, by simpa using hty⟩
  · rintro ⟨e, he, rfl, hty⟩
    refine ⟨(e.networkId, (e, v.revision + 1)), List.mem_filter.mpr ⟨?_, by simpa using hty⟩, rfl⟩
    rw [Map.mem_visit, lookup_publish h, getLast?_id_iff.mpr ⟨he, rfl⟩]
    rfl

theorem ascending_publish (h : Current v) (ord : IterOrder UInt32) (ty : ScriptEntityType) :
    ((v.publish w.entities).idsOfType ord ty).Pairwise (· < ·) := by
  have hkey : ∀ kv ∈ (v.publish w.entities).entities.visit ord, kv.2.1.networkId = kv.1 := by
    rintro ⟨k, entry⟩ hkv
    rw [Map.mem_visit, lookup_publish h, Option.map_eq_some_iff] at hkv
    obtain ⟨e, he, rfl⟩ := hkv
    exact (getLast?_id_iff.mp he).2
  have hids : ((((v.publish w.entities).entities.visit ord).filter
      fun kv => kv.2.1.entityType = ty).map fun kv => kv.2.1.networkId).Nodup := by
    rw [List.map_congr_left fun kv hkv => hkey kv (List.mem_of_mem_filter hkv)]
    exact (Map.nodup_visit ord _).sublist (List.filter_sublist.map _)
  have htotal : Std.Total fun x y : UInt32 => x ≤ y := ⟨UInt32.le_total⟩
  have htrans : IsTrans UInt32 fun x y => x ≤ y := ⟨fun _ _ _ => UInt32.le_trans⟩
  have hsorted := List.pairwise_insertionSort (fun x y : UInt32 => x ≤ y)
    ((((v.publish w.entities).entities.visit ord).filter
      fun kv => kv.2.1.entityType = ty).map fun kv => kv.2.1.networkId)
  have hnodup := ((List.perm_insertionSort (fun x y : UInt32 => x ≤ y) _).nodup_iff).mpr hids
  refine (hsorted.and hnodup).imp ?_
  rintro a b ⟨hle, hne⟩
  exact UInt32.lt_of_le_of_ne hle hne

theorem occupant_publish {vehicle : UInt32} {seat : Int32} {ped : UInt32}
    (h : (v.publish w.entities).occupant vehicle seat = some ped) :
    ∃ e ∈ w.entities, e.networkId = ped ∧ e.Sits vehicle seat := by
  obtain ⟨key, hkey, hped⟩ := Option.bind_eq_some_iff.mp h
  rw [occupants_publish] at hped
  obtain ⟨e, he, rfl⟩ := Option.map_eq_some_iff.mp hped
  obtain ⟨hmem, hsits⟩ := List.mem_filter.mp (List.mem_of_getLast? he)
  exact ⟨e, hmem, rfl, (EntitySummary.sitsAt_iff hkey).mp (of_decide_eq_true hsits)⟩

/-- Nobody sits where no key is, and nobody is listed. -/
theorem vacant_publish {vehicle : UInt32} {seat : Int32} {key : UInt64}
    (hkey : seatKey vehicle (seat + seatIndexBias) = some key)
    (h : (v.publish w.entities).occupant vehicle seat = none) :
    ∀ e ∈ w.entities, ¬ e.Sits vehicle seat := by
  unfold EntityWorldView.occupant at h
  rw [hkey, Option.bind_some, occupants_publish, Option.map_eq_none_iff,
    List.getLast?_eq_none_iff, List.filter_eq_nil_iff] at h
  intro e he hsits
  exact h e he (decide_eq_true ((EntitySummary.sitsAt_iff hkey).mpr hsits))

/-- The last occupant of a seat: who is in it, or who was, or the first ped to report it. -/
theorem lastOccupant_publish {vehicle : UInt32} {seat : Int32} {ped : UInt32}
    (h : (v.publish w.entities).lastOccupant vehicle seat = some ped) :
    Records w.entities vehicle seat ped
      ∨ (∀ e ∈ w.entities, ¬ e.Sits vehicle seat) ∧ v.lastOccupant vehicle seat = some ped := by
  obtain ⟨key, hkey, hped⟩ := Option.bind_eq_some_iff.mp h
  rw [lastOccupants_publish, Option.or_eq_some_iff] at hped
  rcases hped with hsits | ⟨hnone, hped⟩
  · obtain ⟨e, he, rfl⟩ := Option.map_eq_some_iff.mp hsits
    obtain ⟨hmem, hsits⟩ := List.mem_filter.mp (List.mem_of_getLast? he)
    exact .inl ⟨e, hmem, rfl, .inl ((EntitySummary.sitsAt_iff hkey).mp (of_decide_eq_true hsits))⟩
  · rcases Option.or_eq_some_iff.mp hped with hold | ⟨-, hsat⟩
    · refine .inr ⟨?_, Option.bind_eq_some_iff.mpr ⟨key, hkey, hold⟩⟩
      rw [Option.map_eq_none_iff, List.getLast?_eq_none_iff, List.filter_eq_nil_iff] at hnone
      intro e he hsits
      exact hnone e he (decide_eq_true ((EntitySummary.sitsAt_iff hkey).mpr hsits))
    · obtain ⟨e, he, rfl⟩ := Option.map_eq_some_iff.mp hsat
      have hsat := List.find?_some he
      rw [decide_eq_true_iff] at hsat
      exact .inl ⟨e, List.mem_of_find?_eq_some he, rfl,
        .inr ((EntitySummary.satAt_iff hkey).mp hsat)⟩

/-- A seat nobody is in keeps its last occupant. -/
theorem lastOccupant_keeps {vehicle : UInt32} {seat : Int32} {ped : UInt32}
    (hnobody : ∀ e ∈ w.entities, ¬ e.Sits vehicle seat)
    (h : v.lastOccupant vehicle seat = some ped) :
    (v.publish w.entities).lastOccupant vehicle seat = some ped := by
  obtain ⟨key, hkey, hped⟩ := Option.bind_eq_some_iff.mp h
  refine Option.bind_eq_some_iff.mpr ⟨key, hkey, ?_⟩
  have hnone : (w.entities.filter fun e => e.SitsAt key) = [] := by
    rw [List.filter_eq_nil_iff]
    intro e he hsits
    exact hnobody e he ((EntitySummary.sitsAt_iff hkey).mp (of_decide_eq_true hsits))
  rw [lastOccupants_publish, hnone, hped]
  rfl

theorem lastPed_mem {world : List (EntitySummary F)} {player : UInt32} {l : EntitySummary F}
    (h : lastPed world player = some l) :
    l ∈ world ∧ l.entityType = .ped ∧ l.owner = player := by
  obtain ⟨hmem, hped⟩ := List.mem_filter.mp (List.mem_of_getLast? h)
  exact ⟨hmem, of_decide_eq_true hped⟩

theorem lastPed_none {world : List (EntitySummary F)} {player : UInt32}
    (h : lastPed world player = none) {e : EntitySummary F} (he : e ∈ world)
    (howner : e.owner = player) : e.entityType ≠ .ped := by
  intro hped
  have hnil := List.filter_eq_nil_iff.mp (List.getLast?_eq_none_iff.mp h) e he
  exact hnil (decide_eq_true ⟨hped, howner⟩)

end Answers

/-! ### Over whole runs -/

section Runs

open EntityWorldView

variable {v : EntityWorldView F} {w : World F} {past : List (WorldEntry F)}

theorem reflects_nil : Reflects [] ({} : EntityWorldView F) where
  get := fun id e => by simp [EntityWorldView.get, lastWorld]
  contains := fun id => by simp [EntityWorldView.contains, lastWorld]
  owner := fun id o => by simp [EntityWorldView.owner, lastWorld]
  ascending := fun ord ty => by
    have hnil : (({} : EntityWorldView F).entities.visit ord) = [] := by
      rw [List.eq_nil_iff_forall_not_mem]
      rintro ⟨k, entry⟩ hmem
      rw [Map.mem_visit] at hmem
      simp at hmem
    unfold EntityWorldView.idsOfType
    rw [hnil]
    exact List.Pairwise.nil
  ofType := fun ord ty id => by
    simp [EntityWorldView.idsOfType, lastWorld, Map.mem_visit]
  occupant := fun vehicle seat ped h => by
    obtain ⟨key, -, hped⟩ := Option.bind_eq_some_iff.mp h
    simp at hped
  vacant := fun vehicle seat _ e he => absurd he (by simp [lastWorld])
  playerPed := fun player ped h => by simp [EntityWorldView.playerPed] at h
  noPlayerPed := fun player _ e he => absurd he (by simp [lastWorld])
  lastOccupant := fun vehicle seat ped h => by
    obtain ⟨key, -, hped⟩ := Option.bind_eq_some_iff.mp h
    simp at hped

/-- A publication that is as it has to be is mirrored. -/
theorem Reflects.publish (hcurrent : Current v) (h : Reflects past v)
    (hfaithful : Faithful past ⟨v, w, (), v.publish w.entities⟩) :
    Reflects (⟨v, w, (), v.publish w.entities⟩ :: past) (v.publish w.entities) where
  get := fun id e => get_publish_iff hcurrent
  contains := fun id => contains_publish_iff hcurrent
  owner := fun id o => owner_publish_iff hcurrent
  ascending := ascending_publish hcurrent
  ofType := fun ord ty id => mem_idsOfType_publish hcurrent
  occupant := fun vehicle seat ped => occupant_publish
  vacant := by
    intro vehicle seat hnone e he hsits
    obtain ⟨h0, h255⟩ := hfaithful.seats e he hsits.1 _ hsits.2
    exact vacant_publish (if_pos ⟨h0, h255⟩) hnone e he hsits
  playerPed := by
    intro player ped hped
    rw [playerPed_publish] at hped
    obtain ⟨l, hl, rfl⟩ := Option.map_eq_some_iff.mp hped
    obtain ⟨hmem, htype, howner⟩ := lastPed_mem hl
    obtain ⟨l', hl', hplayer⟩ := hfaithful.players l hmem (.inl htype)
    rw [howner] at hl'
    obtain rfl := Option.some.inj (hl.symm.trans hl')
    exact ⟨l, hmem, rfl, howner, hplayer⟩
  noPlayerPed := by
    rintro player hnone e he ⟨howner, hplayer⟩
    rw [playerPed_publish] at hnone
    obtain ⟨l, hl, -⟩ := hfaithful.players e he (.inr hplayer)
    rw [howner] at hl
    exact absurd (Option.map_eq_none_iff.mp hnone) (by rw [lastPed] at hl; rw [hl]; simp)
  lastOccupant := by
    intro vehicle seat ped hped
    rcases lastOccupant_publish hped with hnow | ⟨hnobody, hbefore⟩
    · exact .inl hnow
    · by_cases hleaves : Leaves past w.entities vehicle
      · rcases hfaithful.departures vehicle hleaves seat ped hbefore with ⟨e, he, hsits⟩ | hsat
        · exact absurd hsits (hnobody e he)
        · obtain ⟨e, he, hid, hsat⟩ := hsat
          exact .inl ⟨e, he, hid, .inr hsat⟩
      · exact .inr ⟨hleaves, h.lastOccupant vehicle seat ped hbefore⟩

/-- A publication that is mirrored is as it has to be. -/
theorem Reflects.faithful
    (h : Reflects (⟨v, w, (), v.publish w.entities⟩ :: past) (v.publish w.entities)) :
    Faithful past ⟨v, w, (), v.publish w.entities⟩ where
  seats := by
    rintro ped hmem htype ⟨vehicle, raw⟩ hplace
    by_contra hout
    have hsits : ped.Sits vehicle (raw - seatIndexBias) :=
      ⟨htype, by rw [Int32.sub_add_cancel]; exact hplace⟩
    have hnone : (v.publish w.entities).occupant vehicle (raw - seatIndexBias) = none := by
      unfold EntityWorldView.occupant
      rw [Int32.sub_add_cancel, seatKey, if_neg hout]
      rfl
    exact h.vacant vehicle _ hnone ped hmem hsits
  players := by
    intro s hmem hs
    have hpeds : (v.publish w.entities).playerPed s.owner
        = (lastPed w.entities s.owner).map (·.networkId) := playerPed_publish w.entities s.owner
    cases hl : lastPed w.entities s.owner with
    | none =>
        rw [hl] at hpeds
        rcases hs with htype | hplayer
        · exact absurd htype (lastPed_none hl hmem rfl)
        · exact absurd ⟨rfl, hplayer⟩ (h.noPlayerPed s.owner hpeds s hmem)
    | some l =>
        rw [hl] at hpeds
        obtain ⟨e, he, hid, -, hplayer⟩ := h.playerPed s.owner l.networkId hpeds
        obtain rfl := List.inj_on_of_nodup_map w.distinct he (lastPed_mem hl).1 hid
        exact ⟨e, rfl, hplayer⟩
  departures := by
    intro vehicle hleaves seat q hq
    by_cases hsits : ∃ s ∈ w.entities, s.Sits vehicle seat
    · exact .inl hsits
    · have hnobody : ∀ e ∈ w.entities, ¬ e.Sits vehicle seat :=
        fun e he hsit => hsits ⟨e, he, hsit⟩
      rcases h.lastOccupant vehicle seat q (lastOccupant_keeps hnobody hq) with hnow | hbefore
      · obtain ⟨e, he, hid, hsit | hsat⟩ := hnow
        · exact absurd hsit (hnobody e he)
        · exact .inr ⟨e, he, hid, hsat⟩
      · exact absurd hleaves hbefore.1

theorem current_run (run : Run publishStep ({} : EntityWorldView F) past v) : Current v := by
  refine run.safe (I := Current) ?_ ?_
  · intro id entry hentry
    simp at hentry
  · intro s w a s' h hstep
    obtain ⟨rfl, rfl⟩ := Prod.mk.inj (Option.some.inj hstep)
    exact current_publish h w.entities

/-- **The script world mirrors every publication of a run exactly when every publication of it is
as it has to be.** -/
theorem script_world_mirrors_iff (run : Run publishStep ({} : EntityWorldView F) past v) :
    (∀ later before v', past = later ++ before → Run publishStep {} before v' →
        Reflects before v')
      ↔ Along Faithful past := by
  refine Run.always_iff reflects_nil ?_ run
  intro past s op a s' run _ h hstep
  obtain ⟨rfl, rfl⟩ := Prod.mk.inj (Option.some.inj hstep)
  exact ⟨Reflects.faithful, fun hfaithful => h.publish (current_run run) hfaithful⟩

/-! ### A driver, and a client with two peds -/

/-- An entity of which nothing else is known. -/
def bareSummary (networkId owner : UInt32) (entityType : ScriptEntityType)
    (netType : NetObjEntityType) (sync : EntityNodeState) : EntitySummary Float32 :=
  { networkId, owner, entityType, sync
    position := Vec3.zero, velocity := Vec3.zero, routingBucket := 0, health := none
    maxHealth := none, armour := none, model := none, netType := netType.toU8
    firstOwner := owner, heading := none, desiredHeading := none }

/-- The player of client 1 drives its vehicle. -/
def driving : World Float32 where
  entities := [bareSummary 10 1 .ped .player
      { pedGameState := some { curVehicle := 20, curVehicleSeat := 1 } },
    bareSummary 20 1 .vehicle .automobile {}]
  distinct := by decide

/-- It has got out. -/
def onFoot : World Float32 where
  entities := [bareSummary 10 1 .ped .player { lastVehicle := some 20, lastVehicleSeat := some 1 },
    bareSummary 20 1 .vehicle .automobile {}]
  distinct := by decide

/-- Client 1 owns its player and another ped. -/
def withCompanion : World Float32 where
  entities := [bareSummary 10 1 .ped .player {}, bareSummary 11 1 .ped .ped {}]
  distinct := by decide

/-- The vehicle is gone. -/
def withoutVehicle : World Float32 where
  entities := [bareSummary 10 1 .ped .player {}]
  distinct := by decide

theorem mem_pair {a b e : EntitySummary F} (h : e ∈ [a, b]) : e = a ∨ e = b := by simpa using h

theorem driven_mirrors : ∃ past v, Run publishStep ({} : EntityWorldView Float32) past v
    ∧ past.length = 2 ∧ Reflects past v := by
  have run := run_of_ops publishStep ({} : EntityWorldView Float32) [driving, onFoot] rfl
  refine ⟨_, _, run, rfl, (script_world_mirrors_iff run).mpr ⟨?_, ?_, trivial⟩ [] _ _ rfl run⟩
  · constructor
    · intro ped hmem hped place hplace
      rcases mem_pair hmem with rfl | rfl
      · simp [bareSummary, EntitySummary.seat] at hplace
      · simp [bareSummary] at hped
    · intro s hmem _
      rcases mem_pair hmem with rfl | rfl
      · exact ⟨_, rfl, rfl⟩
      · exact ⟨_, rfl, rfl⟩
    · rintro vehicle ⟨⟨e, he, rfl, hty⟩, hgone⟩
      refine absurd ⟨_, List.mem_cons_of_mem _ List.mem_cons_self, ?_, rfl⟩ hgone
      rcases mem_pair he with rfl | rfl
      · simp [bareSummary] at hty
      · rfl
  · constructor
    · intro ped hmem hped place hplace
      rcases mem_pair hmem with rfl | rfl
      · obtain rfl := Option.some.inj hplace
        decide
      · simp [bareSummary] at hped
    · intro s hmem _
      rcases mem_pair hmem with rfl | rfl
      · exact ⟨_, rfl, rfl⟩
      · exact ⟨_, rfl, rfl⟩
    · rintro vehicle ⟨⟨e, he, -⟩, -⟩
      simp [lastWorld] at he

/-- **A companion passes for the player.** -/
theorem companion_is_player_ped :
    ¬ ∀ (past : List (WorldEntry Float32)) (v : EntityWorldView Float32),
      Run publishStep {} past v → Reflects past v := by
  intro h
  have run := run_of_ops publishStep ({} : EntityWorldView Float32) [withCompanion] rfl
  obtain ⟨e, he, hid, -, hplayer⟩ := (h _ _ run).playerPed 1 11 (by decide +kernel)
  rcases mem_pair he with rfl | rfl
  · simp [bareSummary] at hid
  · simp [bareSummary, NetObjEntityType.toU8] at hplayer

/-- **A seat remembers a vehicle that is gone.** -/
theorem seat_remembers_gone_vehicle :
    ∃ past v, Run publishStep ({} : EntityWorldView Float32) past v ∧ past.length = 2
      ∧ v.lastOccupant 20 (-1) = some 10 ∧ ¬ RecordedSince 20 (-1) 10 past := by
  have run := run_of_ops publishStep ({} : EntityWorldView Float32) [driving, withoutVehicle] rfl
  refine ⟨_, _, run, rfl, by decide +kernel, ?_⟩
  have hgone : ¬ HasVehicle withoutVehicle.entities 20 := by
    rintro ⟨e, he, hid, -⟩
    rw [List.mem_singleton.mp he] at hid
    simp [bareSummary] at hid
  have hthere : HasVehicle driving.entities 20 :=
    ⟨_, List.mem_cons_of_mem _ List.mem_cons_self, rfl, rfl⟩
  rintro (⟨e, he, -, hsits | hsat⟩ | ⟨hstays, -⟩)
  · rw [List.mem_singleton.mp he] at hsits
    simp [EntitySummary.Sits, EntitySummary.seat, bareSummary] at hsits
  · rw [List.mem_singleton.mp he] at hsat
    simp [EntitySummary.LastSat, EntitySummary.lastSeat, bareSummary] at hsat
  · exact hstays ⟨hthere, hgone⟩

end Runs

end Baston.Scripting
