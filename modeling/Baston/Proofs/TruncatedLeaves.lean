/-
Truncated leaves.

A body that ends too early decodes to nothing where the decoder still has a field to read.  A flag
past the end is zero, though, and where it is the last thing a decoder keeps the zero passes for
what the client sent.  Whether a value was made up in this way shows in the bodies that begin with
the same bits and go on: what the body does not say, they say differently.
-/
import Baston.Proofs.UncheckedFlags
import Baston.Proofs.LeafFields

namespace Baston.Rage

open MessageBuffer SyncParse BitM

/-! ### Bodies and their continuations -/

namespace LeafBody

/-- A body as the walk cuts it out: the bytes its bits need, and zeros behind the last bit. -/
structure Padded (body : LeafBody) : Prop where
  size : body.bytes.length = (body.bits + 7) / 8
  zeros : ∀ j, body.bits ≤ j → bitOf body.bytes j = false

/-- `more` is a body that begins with the bits of `body`. -/
structure GoesOnAs (body more : LeafBody) : Prop where
  padded : more.Padded
  longer : body.bits ≤ more.bits
  bits : ∀ j < body.bits, bitOf more.bytes j = bitOf body.bytes j

variable {body more : LeafBody}

theorem Padded.maxBit_view (h : body.Padded) : body.view.maxBit = body.bits := by
  have hsize := h.size
  show min body.bits (body.bytes.length * 8) = body.bits
  omega

theorem GoesOnAs.view (h : body.GoesOnAs more) (hpadded : body.Padded) {p : Nat}
    (hp : p ≤ body.bits) : GoesOn p body.view more.view where
  cursor := rfl
  mode := rfl
  room := by
    rw [hpadded.maxBit_view, h.padded.maxBit_view]
    exact h.longer
  bits := fun k hk => h.bits k (by omega)

/-- Zeros at the end change no bit. -/
theorem bitOf_append_zeros (data : List UInt8) (n j : Nat) :
    bitOf (data ++ List.replicate n 0) j = bitOf data j := by
  unfold bitOf
  by_cases hj : j / 8 < data.length
  · rw [List.getD_append _ _ _ _ hj]
  · rw [List.getD_append_right _ _ _ _ (by omega), List.getD_eq_default _ _ (Nat.le_of_not_lt hj),
      List.getD_eq_getElem?_getD, List.getElem?_replicate]
    split <;> simp

/-- The body goes on with zeros and ends in a one, bit `p`. -/
def flagAt (body : LeafBody) (p : Nat) : LeafBody :=
  ⟨body.start, p + 1,
    putBit (body.bytes ++ List.replicate ((p + 8) / 8 - body.bytes.length) 0) p 1⟩

theorem bitOf_flagAt (h : body.Padded) {p : Nat} (hp : body.bits ≤ p) (j : Nat) :
    bitOf (body.flagAt p).bytes j = if j = p then true else bitOf body.bytes j := by
  have hsize := h.size
  have hroom : p / 8 < (body.bytes
      ++ List.replicate ((p + 8) / 8 - body.bytes.length) 0).length := by
    rw [List.length_append, List.length_replicate]
    omega
  show bitOf (putBit _ p 1) j = _
  rw [bitOf_putBit hroom (by decide), bitOf_append_zeros]
  rfl

theorem goesOnAs_flagAt (h : body.Padded) {p : Nat} (hp : body.bits ≤ p) :
    body.GoesOnAs (body.flagAt p) := by
  have hsize := h.size
  refine ⟨⟨?_, fun j hj => ?_⟩, by show body.bits ≤ p + 1; omega, fun j hj => ?_⟩
  · show (putBit _ p 1).length = (p + 1 + 7) / 8
    rw [length_putBit, List.length_append, List.length_replicate]
    omega
  · have hj' : p + 1 ≤ j := hj
    rw [bitOf_flagAt h hp, if_neg (by omega)]
    exact h.zeros j (by omega)
  · rw [bitOf_flagAt h hp, if_neg (by omega)]

/-- The longer body holds the same up to its flag, the zeros included. -/
theorem goesOn_flagAt (h : body.Padded) {p : Nat} (hp : body.bits ≤ p) :
    GoesOn p body.view (body.flagAt p).view where
  cursor := rfl
  mode := rfl
  room := by
    have hgoes := goesOnAs_flagAt h hp
    rw [h.maxBit_view, hgoes.padded.maxBit_view]
    exact hgoes.longer
  bits := fun k hk => by
    show bitOf (body.flagAt p).bytes k = bitOf body.bytes k
    rw [bitOf_flagAt h hp, if_neg (by omega)]

end LeafBody

/-- The walk hands its decoders padded bodies. -/
theorem padded_of_parseLog {F : Type} [Scalar F] {entityType : NetObjEntityType}
    {isCreate lengthHack : Bool} {build : GameBuild} {data : List UInt8} {i : Nat} {name : NodeName}
    {body : LeafBody} (h : .leaf i name body ∈ parseLog F entityType isCreate data lengthHack build) :
    body.Padded := by
  have htaken := body_of_parseLog h
  obtain ⟨hsize, hbits⟩ := cut_spec htaken.room
  rw [← htaken.bytes] at hsize hbits
  refine ⟨hsize, fun j hj => ?_⟩
  rw [hbits, if_neg (by omega)]

/-! ### What a leaf sets -/

namespace SyncParse

/-- The record `out` with a leaf folded in. -/
def leafOut {F : Type} [Scalar F] (name : NodeName) (build : GameBuild) (body : LeafBody)
    (out : SyncNodeData F) : SyncNodeData F := applyEvent build out (.leaf 0 name body)

/-- No field is set from bits past the end: what the leaf sets it sets to the same from every
body that goes on, in whatever record. -/
def NothingFromBeyond (F : Type) [Scalar F] (name : NodeName) (build : GameBuild)
    (body : LeafBody) : Prop :=
  ∀ f : Field, ¬ f.Same (leafOut name build body ({} : SyncNodeData F)) {} →
    ∀ more, body.GoesOnAs more → ∀ out : SyncNodeData F,
      f.Same (leafOut name build more out) (leafOut name build body out)

/-- The flag the reader leads up to lies in the body, unless the reader gives up before. -/
def flagInside {α : Type} (m : BitM α) (body : LeafBody) : Bool :=
  match m.run body.view with
  | (some _, mid) => mid.curBit < body.bits
  | (none, _) => true

/-- `CPedHealthDataNode` up to whether anybody did the damage. -/
def upToDamageFlag (build : GameBuild) : BitM Unit :=
  OptionT.mk do
    let _ ← decodePedHealthHead build
    (damageIds build).run

/-- Every flag that a leaf keeps, with no field behind it to notice the end, lies in the body or
behind a field that is past the end. -/
def flagsInside (name : NodeName) (build : GameBuild) (body : LeafBody) : Bool :=
  match name with
  | .cPhysicalGameStateDataNode | .cPhysicalAttachDataNode | .cPedAttachDataNode => 0 < body.bits
  | .cPedHealthDataNode => flagInside (upToDamageFlag build) body
  | .cPedMovementGroupDataNode => flagInside upToRagdolling body
  | .cPedGameStateDataNode => flagInside (upToStealth build) body
  | .cVehicleGameStateDataNode => flagInside (upToLock build) body
  | .cVehicleAppearanceDataNode => flagInside upToNeon body && flagInside upToNeonSide body
  | .cVehicleDamageStatusDataNode => flagInside upToWindows body && flagInside upToWindow body
  | _ => true

/-! ### Readers on a body and on its continuations -/

variable {α β γ : Type} {body : LeafBody}

/-- What the reader makes of the body it makes of every body that goes on. -/
def Settled (m : BitM α) (body : LeafBody) : Prop :=
  ∀ v, (m.run body.view).1 = some v → ∀ more, body.GoesOnAs more → (m.run more.view).1 = some v

theorem flagInside_iff {m : BitM α} :
    flagInside m body = true ↔ ∀ a mid, m.run body.view = (some a, mid) → mid.curBit < body.bits := by
  unfold flagInside
  rcases hrun : m.run body.view with ⟨_ | a, mid⟩
  · refine iff_of_true rfl fun a mid' h => ?_
    exact absurd (congrArg Prod.fst h) (by simp)
  · constructor
    · intro h b mid' heq
      obtain ⟨-, rfl⟩ := Prod.mk.inj heq
      exact of_decide_eq_true h
    · intro h
      exact decide_eq_true (h a mid rfl)

/-- A reader that ended within the body ends there on every body that goes on. -/
theorem settled_of_ends {m : BitM α} (hpadded : body.Padded) (hm : Steady m)
    (hends : ∀ v mid, m.run body.view = (some v, mid) → mid.curBit ≤ body.bits) :
    Settled m body := by
  intro v hv more hmore
  have hrun : m.run body.view = (some v, (m.run body.view).2) := Prod.ext hv rfl
  obtain ⟨-, -, hagain⟩ := hm.run_goesOn hrun (hmore.view hpadded (hends v _ hrun))
  rw [hagain]

theorem settled_checked {m : BitM α} (hpadded : body.Padded) (hm : Steady m) (hchecked : Checked m) :
    Settled m body := by
  refine settled_of_ends hpadded hm fun v mid hrun => ?_
  have hle := hchecked _ _ _ hrun
  rwa [(hm.cursor_le hrun).2, show (body.view.setCurrentBit mid.curBit).maxBit = body.view.maxBit
    from rfl, hpadded.maxBit_view] at hle

/-- Where `head` succeeds, `m` is left with `tail`. -/
def Leads (head : BitM α) (m : BitM β) (tail : α → BitM β) : Prop :=
  ∀ buf a mid, head.run buf = (some a, mid) → m.run buf = (tail a).run mid

theorem leads_split {head : BitM α} {m : BitM β} {tail : α → BitM β} (h : m = head >>= tail) :
    Leads head m tail := by
  intro buf a mid hrun
  rw [h, run_bind, hrun]

/-- Behind its end, where it reads a zero, the tail gives a value; where the buffer ends in a one
instead, it gives another or none. -/
def Lapses (tail : α → BitM β) : Prop :=
  ∀ a buf buf', bitOf buf.data buf.curBit = false → buf.maxBit ≤ buf.curBit →
    (∀ j, buf.curBit ≤ j → bitOf buf.data j = false) →
    bitOf buf'.data buf'.curBit = true → buf'.maxBit = buf'.curBit + 1 →
      ∃ v, ((tail a).run buf).1 = some v ∧ ((tail a).run buf').1 ≠ some v

/-- What a settled reader has up its tail, it reads within the body. -/
theorem flagInside_of_settled {head : BitM α} {m : BitM β} {tail : α → BitM β}
    (hpadded : body.Padded) (hhead : Steady head) (hleads : Leads head m tail)
    (hlapses : Lapses tail) (h : Settled m body) : flagInside head body = true := by
  refine flagInside_iff.mpr fun a mid hrun => ?_
  by_contra hout
  have hp : body.bits ≤ mid.curBit := Nat.le_of_not_lt hout
  obtain ⟨-, hmid, hagain⟩ := hhead.run_goesOn hrun (LeafBody.goesOn_flagAt hpadded hp)
  have hmore := LeafBody.goesOnAs_flagAt hpadded hp
  have hbit := LeafBody.bitOf_flagAt hpadded hp
  obtain ⟨v, hv, hother⟩ := hlapses a mid ((body.flagAt mid.curBit).view.setCurrentBit mid.curBit)
    (by rw [hmid]; exact hpadded.zeros _ hp)
    (by
      rw [hmid]
      exact hpadded.maxBit_view.trans_le hp)
    (by
      intro j hj
      rw [hmid]
      exact hpadded.zeros j (by omega))
    (by
      show bitOf (body.flagAt mid.curBit).bytes mid.curBit = true
      rw [hbit, if_pos rfl])
    (hmore.padded.maxBit_view)
  refine hother ?_
  rw [← hleads _ _ _ hagain]
  exact h v (by rw [hleads _ _ _ hrun]; exact hv) _ hmore

/-- Behind a flag within the body a tail that only depends on the flag is settled. -/
theorem run_more_of_flag {head : BitM α} {m : BitM β} {tail : α → BitM β} (hpadded : body.Padded)
    (hhead : Steady head) (hleads : Leads head m tail)
    (htail : ∀ a buf buf', bitOf buf'.data buf'.curBit = bitOf buf.data buf.curBit →
      ((tail a).run buf').1 = ((tail a).run buf).1)
    {a : α} {mid : MessageBuffer} (hrun : head.run body.view = (some a, mid))
    (hin : mid.curBit < body.bits) {more : LeafBody} (hmore : body.GoesOnAs more) :
    (m.run more.view).1 = (m.run body.view).1 := by
  obtain ⟨-, hmid, hagain⟩ := hhead.run_goesOn hrun (hmore.view hpadded (Nat.le_of_lt hin))
  rw [hleads _ _ _ hrun, hleads _ _ _ hagain]
  refine htail a _ _ ?_
  rw [hmid]
  exact hmore.bits _ hin

/-- Behind a flag within the body the tail cannot end past the end of it. -/
def Ends (tail : α → BitM β) : Prop :=
  ∀ a buf v mid, buf.curBit < buf.maxBit → (tail a).run buf = (some v, mid) →
    mid.curBit ≤ mid.maxBit

theorem settled_of_flagInside {head : BitM α} {m : BitM β} {tail : α → BitM β}
    (hpadded : body.Padded) (hsplit : m = head >>= tail) (hhead : Steady head)
    (htail : ∀ a, Steady (tail a)) (hends : Ends tail) (h : flagInside head body = true) :
    Settled m body := by
  have hm : Steady m := by
    rw [hsplit]
    exact hhead.bind htail
  refine settled_of_ends hpadded hm fun v mid hrun => ?_
  have hmid := (hm.cursor_le hrun).2
  rw [hsplit] at hrun
  obtain ⟨a, mid', hfirst, hrest⟩ := bind_eq_some hrun
  have hin := flagInside_iff.mp h a mid' hfirst
  have hmid' := (hhead.cursor_le hfirst).2
  have hend := hends a mid' v mid (by
    rw [hmid']
    exact hin.trans_eq hpadded.maxBit_view.symm) hrest
  rw [hmid] at hend
  exact hend.trans_eq hpadded.maxBit_view

/-! ### Flags at the end -/

theorem run_bit (buf : MessageBuffer) :
    bit.run buf = (some (bitOf buf.data buf.curBit), buf.setCurrentBit (buf.curBit + 1)) := by
  show (some buf.readBit.1, buf.readBit.2) = _
  rw [readBit_eq]

theorem run_bit_bind (k : Bool → BitM β) (buf : MessageBuffer) :
    (bit >>= k).run buf
      = (k (bitOf buf.data buf.curBit)).run (buf.setCurrentBit (buf.curBit + 1)) := by
  rw [run_bind, run_bit]

/-- Flags one after the other are always read. -/
theorem run_flags {ι : Type} (l : List ι) : ∀ buf : MessageBuffer,
    ∃ flags, (forEach (fun _ => bit) l).run buf
      = (some flags, buf.setCurrentBit (buf.curBit + l.length)) := by
  induction l with
  | nil => exact fun buf => ⟨[], rfl⟩
  | cons a rest ih =>
      intro buf
      obtain ⟨flags, hflags⟩ := ih (buf.setCurrentBit (buf.curBit + 1))
      refine ⟨bitOf buf.data buf.curBit :: flags, ?_⟩
      show (bit >>= fun b => forEach (fun _ => bit) rest >>= fun bs => pure (b :: bs)).run buf = _
      rw [run_bit_bind, run_bind, hflags, List.length_cons, Nat.add_comm rest.length 1, ← Nat.add_assoc]
      rfl

/-- The last turn of a loop. -/
theorem forEach_snoc {ι : Type} (f : ι → BitM α) (l : List ι) (i : ι) :
    forEach f (l ++ [i]) = forEach f l >>= fun as => f i >>= fun a => pure (as ++ [a]) := by
  induction l with
  | nil => simp [forEach]
  | cons j rest ih => simp only [List.cons_append, forEach, ih, bind_assoc, pure_bind]

/-- One bit is too few for any longer field. -/
theorem run_bits_none {n : Nat} (hn : 1 ≤ n) {buf : MessageBuffer} (hend : buf.maxBit ≤ buf.curBit) :
    ((bits n).run buf).1 = none := by
  have hwide : 1 ≤ buf.effectiveLen n := by
    unfold effectiveLen
    split <;> omega
  show (readBitsSingle n buf).1 = none
  unfold readBitsSingle
  simp only
  rw [if_pos (by omega)]

/-- Nothing comes of a reader whose first part fails. -/
theorem run_bind_none {m : BitM α} {k : α → BitM β} {buf : MessageBuffer}
    (h : (m.run buf).1 = none) : ((m >>= k).run buf).1 = none := by
  rw [run_bind]
  rcases hrun : m.run buf with ⟨_ | a, mid⟩
  · rfl
  · rw [hrun] at h
    exact absurd h (by simp)

/-! ### The lock -/

theorem steady_fromLock (out : VehicleGameState) : Steady (fromLock out) :=
  .bind .bit fun _ => .ite (.bind (.bits 32) fun _ => .bind (.pure _) fun _ => .pure _)
    (.bind (.pure _) fun _ => .pure _)

theorem settled_vehicleGameState (hpadded : body.Padded) (build : GameBuild) :
    Settled (decodeVehicleGameState build) body ↔ flagInside (upToLock build) body = true := by
  constructor
  · refine flagInside_of_settled hpadded (steady_upToLock build)
      (leads_split (vehicleGameState_split build)) ?_
    intro out buf buf' hzero _ _ hone hlast
    unfold fromLock
    refine ⟨{ out with hasLock := false }, ?_, ?_⟩
    · rw [run_bit_bind, hzero]
      rfl
    · rw [run_bit_bind, hone]
      have hnone : ((bits 32 >>= fun mask => pure mask.toInt32 >>= fun lockedPlayers =>
          (pure { out with hasLock := true, lockedPlayers } : BitM VehicleGameState)).run
            (buf'.setCurrentBit (buf'.curBit + 1))).1 = none :=
        run_bind_none (run_bits_none (by decide) (Nat.le_of_eq hlast))
      intro hsome
      exact absurd (hnone.symm.trans hsome) (by simp)
  · refine settled_of_flagInside hpadded (vehicleGameState_split build) (steady_upToLock build)
      steady_fromLock ?_
    intro out buf v mid hin hrun
    unfold fromLock at hrun
    rw [run_bit_bind] at hrun
    by_cases hlock : bitOf buf.data buf.curBit = true
    · have hchecked : Checked (bits 32 >>= fun mask => pure mask.toInt32 >>= fun lockedPlayers =>
          (pure { out with hasLock := true, lockedPlayers } : BitM VehicleGameState)) :=
        (Checked.bits 32).andThen fun mask => .bind (.pure _) fun _ => .pure _
      rw [hlock] at hrun
      exact hchecked _ _ _ hrun
    · rw [Bool.eq_false_iff.mpr hlock] at hrun
      rw [← (Prod.mk.inj hrun).2]
      exact hin

/-! ### Stealth and ragdolling -/

/-- A tail of nothing but one flag that is kept. -/
theorem lapses_flag {g : α → Bool → β} (hg : ∀ a, g a true ≠ g a false) :
    Lapses fun a => bit >>= fun b => pure (g a b) := by
  intro a buf buf' hzero _ _ hone _
  refine ⟨g a false, ?_, ?_⟩
  · rw [run_bit_bind, hzero]
    rfl
  · rw [run_bit_bind, hone]
    exact fun h => hg a (Option.some.inj h)

theorem ends_flag (g : α → Bool → β) : Ends fun a => bit >>= fun b => pure (g a b) := by
  intro a buf v mid hin hrun
  rw [run_bit_bind] at hrun
  rw [← (Prod.mk.inj hrun).2]
  exact hin

theorem settled_pedGameState (hpadded : body.Padded) (build : GameBuild) :
    Settled (decodePedGameState build) body ↔ flagInside (upToStealth build) body = true := by
  constructor
  · refine flagInside_of_settled hpadded (steady_upToStealth build)
      (leads_split (pedGameState_split build)) (lapses_flag fun out h => ?_)
    exact absurd (congrArg PedGameState.stealthModeEnabled h) (by simp)
  · exact settled_of_flagInside hpadded (pedGameState_split build) (steady_upToStealth build)
      (fun _ => .bind .bit fun _ => .pure _) (ends_flag _)

theorem Leads.bind {m : BitM α} {k' : α → BitM β} {k : α → BitM γ} {tail : β → BitM γ}
    (h : ∀ a, Leads (k' a) (k a) tail) : Leads (m >>= k') (m >>= k) tail := by
  intro buf b mid' hrun
  obtain ⟨a, mid, hfirst, hrest⟩ := bind_eq_some hrun
  rw [run_bind, hfirst]
  exact h a mid b mid' hrest

theorem Leads.fail {m : BitM β} {tail : α → BitM β} : Leads failure m tail := by
  intro buf a mid hrun
  have hnone : none = some a := congrArg Prod.fst hrun
  exact absurd hnone (by simp)

theorem Leads.ite {c : Prop} [Decidable c] {n n' : BitM α} {m m' : BitM β} {tail : α → BitM β}
    (h : Leads n m tail) (h' : Leads n' m' tail) :
    Leads (if c then n else n') (if c then m else m') tail := by
  split
  · exact h
  · exact h'

theorem leads_upToRagdolling : Leads upToRagdolling decodePedMovement fromRagdolling := by
  rw [pedMovement_split]
  exact .bind fun _ => .bind fun _ => .ite .fail (leads_split rfl)

/-- A one lies within its body. -/
theorem lt_of_flag (hpadded : body.Padded) {j : Nat} (h : bitOf body.bytes j = true) :
    j < body.bits := by
  by_contra hout
  rw [hpadded.zeros j (Nat.le_of_not_lt hout)] at h
  exact absurd h (by simp)

theorem steady_pedMovement : Steady decodePedMovement := by
  rw [pedMovement_split]
  exact .bind (.bits 32) fun _ => .bind .bit fun _ =>
    .ite (.pure _) (.bind steady_actionMode fun _ => .bind .bit fun _ => .pure _)

theorem settled_pedMovement (hpadded : body.Padded) :
    Settled decodePedMovement body ↔ flagInside upToRagdolling body = true := by
  constructor
  · refine flagInside_of_settled hpadded steady_upToRagdolling leads_upToRagdolling
      (lapses_flag fun out h => ?_)
    exact absurd (congrArg PedMovement.isRagdolling h) (by simp)
  · intro h
    refine settled_of_ends hpadded steady_pedMovement fun v mid hrun => ?_
    rw [pedMovement_split] at hrun
    obtain ⟨motion, first, hmotion, hrest⟩ := bind_eq_some hrun
    have hfirst := ((Steady.bits 32).cursor_le hmotion).2
    rw [run_bit_bind] at hrest
    by_cases hdefault : bitOf first.data first.curBit = true
    · rw [if_pos hdefault] at hrest
      rw [← (Prod.mk.inj hrest).2]
      rw [hfirst] at hdefault
      exact lt_of_flag hpadded hdefault
    · rw [if_neg hdefault] at hrest
      obtain ⟨out, second, hmode, hflag⟩ := bind_eq_some hrest
      have hhead : upToRagdolling.run body.view = (some out, second) := by
        unfold upToRagdolling
        rw [run_bind, hmotion]
        simp only
        rw [run_bit_bind, if_neg hdefault, hmode]
      have hin := flagInside_iff.mp h _ _ hhead
      rw [← (Prod.mk.inj hflag).2]
      exact hin

/-! ### Windows -/

/-- The last window. -/
def fromWindow (head : Bool × List Bool) : BitM VehicleDamage := do
  let window ← bit
  pure ⟨head.1, true, head.2 ++ [window]⟩

theorem leads_upToWindow : Leads upToWindow decodeVehicleDamage fromWindow := by
  rw [vehicleDamage_split]
  refine .bind fun damaged => .bind fun any => ?_
  cases any with
  | false => exact .fail
  | true =>
      refine leads_split ?_
      simp only [if_true]
      rw [List.range_succ, forEach_snoc]
      simp only [bind_assoc, pure_bind, fromWindow]

theorem settled_vehicleDamage (hpadded : body.Padded) :
    Settled decodeVehicleDamage body
      ↔ (flagInside upToWindows body && flagInside upToWindow body) = true := by
  rw [Bool.and_eq_true]
  constructor
  · intro h
    constructor
    · refine flagInside_of_settled hpadded steady_upToWindows (leads_split vehicleDamage_split) ?_ h
      intro damaged buf buf' hzero _ _ hone _
      unfold fromWindows
      refine ⟨⟨damaged, false, List.replicate 8 false⟩, ?_, ?_⟩
      · rw [run_bit_bind, hzero]
        rfl
      · rw [run_bit_bind, hone]
        simp only [if_true]
        obtain ⟨flags, hflags⟩ := run_flags (List.range 8) (buf'.setCurrentBit (buf'.curBit + 1))
        rw [run_bind, hflags]
        intro hsame
        exact absurd (congrArg VehicleDamage.anyWindowBroken (Option.some.inj hsame)) (by simp)
    · refine flagInside_of_settled hpadded steady_upToWindow leads_upToWindow
        (lapses_flag fun head hsame => ?_) h
      have hlast := congrArg VehicleDamage.windowsBroken hsame
      simp at hlast
  · rintro ⟨hany, hwindow⟩
    have hm : Steady decodeVehicleDamage := by
      rw [vehicleDamage_split]
      exact steady_upToWindows.bind fun _ => .bind .bit fun _ =>
        .bind (.forEach (fun _ => .ite .bit (.pure _)) _) fun _ => .pure _
    refine settled_of_ends hpadded hm fun v mid hrun => ?_
    rw [vehicleDamage_split] at hrun
    obtain ⟨damaged, first, hfirst, hrest⟩ := bind_eq_some hrun
    have hin := flagInside_iff.mp hany damaged first hfirst
    unfold fromWindows at hrest
    rw [run_bit_bind] at hrest
    by_cases hbroken : bitOf first.data first.curBit = true
    · rw [hbroken] at hrest
      simp only [if_true] at hrest
      obtain ⟨flags, hflags⟩ := run_flags (List.range 8) (first.setCurrentBit (first.curBit + 1))
      obtain ⟨seven, hseven⟩ := run_flags (List.range 7) (first.setCurrentBit (first.curBit + 1))
      have hhead : upToWindow.run body.view = (some (damaged, seven),
          first.setCurrentBit (first.curBit + 1 + 7)) := by
        unfold upToWindow
        rw [run_bind, hfirst]
        simp only
        rw [run_bit_bind, if_pos hbroken, run_bind, hseven]
        rfl
      have hlast := flagInside_iff.mp hwindow _ _ hhead
      rw [run_bind, hflags] at hrest
      rw [← (Prod.mk.inj hrest).2]
      exact hlast
    · rw [Bool.eq_false_iff.mpr hbroken] at hrest
      rw [← (Prod.mk.inj hrest).2]
      exact hin

/-! ### Neon lights -/

/-- The last side. -/
def fromNeonSide (build : GameBuild) (head : VehicleAppearance × List UInt8 × List Bool) :
    BitM VehicleAppearance := do
  let side ← bit
  BitM.when build.is2372 bit
  pure { head.1 with
    hasNeonLights := true, neonColour := head.2.1, neonSides := head.2.2 ++ [side] }

theorem run_fromNeonSide (build : GameBuild) (head : VehicleAppearance × List UInt8 × List Bool)
    (buf : MessageBuffer) : ((fromNeonSide build head).run buf).1
      = some { head.1 with
          hasNeonLights := true, neonColour := head.2.1,
          neonSides := head.2.2 ++ [bitOf buf.data buf.curBit] } := by
  unfold fromNeonSide
  rw [run_bit_bind]
  cases build.is2372 <;> rfl

theorem leads_upToNeonSide (build : GameBuild) :
    Leads upToNeonSide (decodeVehicleAppearance build) (fromNeonSide build) := by
  rw [vehicleAppearance_split]
  refine .bind fun out => .bind fun neon => ?_
  cases neon with
  | false => exact .fail
  | true =>
      refine leads_split (split_bind fun colour => ?_)
      rw [List.range_succ, forEach_snoc]
      simp only [bind_assoc, pure_bind, fromNeonSide]

theorem run_channels_none {buf : MessageBuffer} (hend : buf.maxBit ≤ buf.curBit) :
    ((readChannels 3).run buf).1 = none :=
  run_bind_none (run_bind_none (run_bits_none (by decide) hend))

theorem steady_fromNeon (build : GameBuild) (out : VehicleAppearance) :
    Steady (fromNeon build out) := by
  refine .bind .bit fun _ => .ite ?_ (.bind (.pure _) fun _ => .pure _)
  exact .bind (steady_channels 3) fun _ => .bind (.forEach (fun _ => .bit) _) fun _ =>
    .bind (.when _ .bit) fun _ => .bind (.pure _) fun _ => .pure _

theorem settled_vehicleAppearance (hpadded : body.Padded) (build : GameBuild) :
    Settled (decodeVehicleAppearance build) body
      ↔ (flagInside upToNeon body && flagInside upToNeonSide body) = true := by
  rw [Bool.and_eq_true]
  constructor
  · intro h
    constructor
    · refine flagInside_of_settled hpadded steady_upToNeon
        (leads_split (vehicleAppearance_split build)) ?_ h
      intro out buf buf' hzero _ _ hone hlast
      unfold fromNeon
      refine ⟨{ out with hasNeonLights := false }, ?_, ?_⟩
      · rw [run_bit_bind, hzero]
        rfl
      · rw [run_bit_bind, hone]
        intro hsome
        have hchannels : ((readChannels 3).run (buf'.setCurrentBit (buf'.curBit + 1))).1 = none :=
          run_channels_none (Nat.le_of_eq hlast)
        have hnone := run_bind_none (k := fun colour => forEach (fun _ => bit) (List.range 4) >>=
          fun sides => BitM.when build.is2372 bit >>= fun _ => pure (colour, sides) >>=
          fun x => (pure { out with
            hasNeonLights := true, neonColour := x.1, neonSides := x.2 } : BitM VehicleAppearance))
          hchannels
        exact absurd (hnone.symm.trans hsome) (by simp)
    · refine flagInside_of_settled hpadded steady_upToNeonSide (leads_upToNeonSide build) ?_ h
      intro head buf buf' hzero _ _ hone _
      refine ⟨_, run_fromNeonSide build head buf, ?_⟩
      rw [run_fromNeonSide, hzero, hone]
      intro hsame
      have hsides := congrArg VehicleAppearance.neonSides (Option.some.inj hsame)
      simp at hsides
  · rintro ⟨hneon, hside⟩
    have hm : Steady (decodeVehicleAppearance build) := by
      rw [vehicleAppearance_split]
      exact steady_upToNeon.bind (steady_fromNeon build)
    intro v hv more hmore
    obtain ⟨mid, hrun⟩ : ∃ mid, (decodeVehicleAppearance build).run body.view = (some v, mid) :=
      ⟨_, Prod.ext hv rfl⟩
    have hsplit := hrun
    rw [vehicleAppearance_split] at hsplit
    obtain ⟨out, first, hfirst, hrest⟩ := bind_eq_some hsplit
    have hin := flagInside_iff.mp hneon out first hfirst
    unfold fromNeon at hrest
    rw [run_bit_bind] at hrest
    by_cases hlit : bitOf first.data first.curBit = true
    · rw [hlit] at hrest
      obtain ⟨colour, second, hcolour, -⟩ := bind_eq_some hrest
      obtain ⟨three, hthree⟩ := run_flags (List.range 3) second
      have hhead : upToNeonSide.run body.view = (some (out, colour, three),
          second.setCurrentBit (second.curBit + 3)) := by
        unfold upToNeonSide
        rw [run_bind, hfirst]
        simp only
        rw [run_bit_bind, if_pos hlit, run_bind, hcolour]
        simp only
        rw [run_bind, hthree]
        rfl
      have hlast := flagInside_iff.mp hside _ _ hhead
      rw [run_more_of_flag hpadded steady_upToNeonSide (leads_upToNeonSide build) ?_ hhead hlast hmore,
        hrun]
      intro head buf buf' hsame
      rw [run_fromNeonSide, run_fromNeonSide, hsame]
    · rw [Bool.eq_false_iff.mpr hlit] at hrest
      have hmid : first.setCurrentBit (first.curBit + 1) = mid := (Prod.mk.inj hrest).2
      have hend : mid.curBit ≤ body.bits := by
        rw [← hmid]
        exact hin
      obtain ⟨-, -, hagain⟩ := hm.run_goesOn hrun (hmore.view hpadded hend)
      rw [hagain]

end SyncParse

end Baston.Rage
