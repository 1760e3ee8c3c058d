/-
The truncated ped health leaf.

The only decoder that goes on after a failure and keeps what it has: a health that is past the end
is nothing, and the armour, the source of the damage and its cause are read all the same.
-/
import Baston.Proofs.FieldsFromBeyond

namespace Baston.Rage

open MessageBuffer SyncParse BitM

namespace SyncParse

/-! ### The decoder in steps -/

/-- The width of a ped's health. -/
def healthBits (build : GameBuild) : Nat := if build.isWinterUpdate25 then 14 else 13

/-- The maximum, when it changed. -/
def pedMaximum (build : GameBuild) (changed : Bool) : StateM MessageBuffer (Option UInt32) :=
  if changed then (bits (healthBits build)).run else pure none

/-- The health, which of a ped that is fine is the maximum. -/
def pedHitPoints (build : GameBuild) (isFine : Bool) (maxHealth : Option UInt32) :
    StateM MessageBuffer (Option UInt32) :=
  if isFine then pure maxHealth
  else do
    let value ← (bits (healthBits build)).run
    let _ ← MessageBuffer.readBit
    let _ ← MessageBuffer.readBit
    pure value

def pedVitals (build : GameBuild) : StateM MessageBuffer (Option UInt32 × Option UInt32) := do
  let isFine ← MessageBuffer.readBit
  let changed ← MessageBuffer.readBit
  let maxHealth ← pedMaximum build changed
  let health ← pedHitPoints build isFine maxHealth
  pure (health, maxHealth)

def pedArmour : StateM MessageBuffer (Option UInt32) := do
  let noArmour ← MessageBuffer.readBit
  if noArmour then pure (some 0) else (bits 13).run

theorem pedHealthHead_split (build : GameBuild) :
    decodePedHealthHead build = pedVitals build >>= fun vitals => pedArmour >>= fun armour =>
      pure (vitals.1, vitals.2, armour) := by
  unfold decodePedHealthHead pedVitals
  extract_lets -underBinder bits
  refine split_bind fun isFine => split_bind fun changed => ?_
  extract_lets -underBinder jp
  have hjp : ∀ x, jp x = pedHitPoints build isFine x >>= fun health =>
      pedArmour >>= fun armour => pure (health, x, armour) := by
    intro maxHealth
    unfold jp
    extract_lets -underBinder jp
    have hjp : ∀ x, jp x = pedArmour >>= fun armour => pure (x, maxHealth, armour) :=
      fun health => split_bind fun noArmour => split_ite rfl rfl
    clear_value jp
    refine split_ite (by rw [pure_bind, pure_bind, hjp]) ?_
    refine split_bind fun value => split_bind fun _ => split_bind fun _ => ?_
    rw [pure_bind, pure_bind, hjp]
  clear_value jp
  have hmaximum : (if changed = true then (BitM.bits bits).run >>= jp else pure none >>= jp)
      = pedMaximum build changed >>= jp := split_ite rfl rfl
  refine hmaximum.trans (split_bind fun maxHealth => ?_)
  rw [hjp, bind_assoc]
  simp only [pure_bind]

theorem local_pedMaximum (build : GameBuild) (changed : Bool) : Local (pedMaximum build changed) :=
  .ite (.run (.bits _)) (.pure _)

theorem local_pedVitals (build : GameBuild) : Local (pedVitals build) :=
  .bind .readBit fun _ => .bind .readBit fun changed => .bind (local_pedMaximum build changed)
    fun _ => .bind (.ite (.pure _) (.bind (.run (.bits _)) fun _ => .bind .readBit fun _ =>
      .bind .readBit fun _ => .pure _)) fun _ => .pure _

theorem local_pedHealthHead (build : GameBuild) : Local (decodePedHealthHead build) := by
  rw [pedHealthHead_split]
  exact .bind (local_pedVitals build) fun _ => .bind (.bind .readBit fun _ =>
    .ite (.pure _) (.run (.bits 13))) fun _ => .pure _

/-! ### Where the head ends -/

/-- Where the reader ends depends on the bits up to there only. -/
def Paced {α : Type} (m : StateM MessageBuffer α) : Prop :=
  ∀ buf, ∃ p, (m buf).2 = buf.setCurrentBit p ∧ buf.curBit ≤ p
    ∧ ∀ buf', GoesOn p buf buf' → (m buf').2 = buf'.setCurrentBit p

namespace Paced

variable {α β : Type}

theorem pure (a : α) : Paced (Pure.pure a) := by
  intro buf
  refine ⟨buf.curBit, rfl, Nat.le_refl _, fun buf' hgoes => ?_⟩
  rw [← hgoes.cursor]
  rfl

theorem bits (n : Nat) : Paced (BitM.bits n).run := by
  have hend : ∀ buf : MessageBuffer,
      ((BitM.bits n).run buf).2 = buf.setCurrentBit (buf.curBit + buf.effectiveLen n) := by
    intro buf
    show (readBitsSingle n buf).2 = _
    unfold readBitsSingle
    simp only
    split
    · rfl
    · rfl
  intro buf
  refine ⟨_, hend buf, Nat.le_add_right _ _, fun buf' hgoes => ?_⟩
  have hwidth : buf'.effectiveLen n = buf.effectiveLen n := by
    unfold effectiveLen
    rw [hgoes.mode]
  rw [hend, hgoes.cursor, hwidth]

theorem ite {c : Prop} [Decidable c] {m m' : StateM MessageBuffer α} (h : Paced m)
    (h' : Paced m') : Paced (if c then m else m') := by
  split
  · exact h
  · exact h'

/-- Behind a flag the reader may branch on it. -/
theorem flag {k : Bool → StateM MessageBuffer β} (hk : ∀ b, Paced (k b)) :
    Paced (MessageBuffer.readBit >>= k) := by
  intro buf
  obtain ⟨p, hend, hle, hsame⟩ :=
    hk (bitOf buf.data buf.curBit) (buf.setCurrentBit (buf.curBit + 1))
  have hle' : buf.curBit + 1 ≤ p := hle
  refine ⟨p, ?_, by omega, fun buf' hgoes => ?_⟩
  · rw [run_step, readBit_eq]
    exact hend
  · rw [run_step, readBit_eq, hgoes.cursor, hgoes.bits _ (by omega)]
    exact hsame _ (hgoes.moved _)

/-- Behind anything else it must not. -/
theorem bind {m : StateM MessageBuffer α} {k : α → StateM MessageBuffer β} (hm : Paced m)
    (hk : ∀ a, Paced (k a)) (hsteps : ∀ a b buf, (k a buf).2 = (k b buf).2) : Paced (m >>= k) := by
  intro buf
  obtain ⟨p, hend, hle, hsame⟩ := hm buf
  obtain ⟨q, hend', hle', hsame'⟩ := hk (m buf).1 (buf.setCurrentBit p)
  have hle'' : p ≤ q := hle'
  refine ⟨q, ?_, by omega, fun buf' hgoes => ?_⟩
  · rw [run_step, hend]
    exact hend'
  · rw [run_step, hsame buf' (hgoes.mono hle''), hsteps _ (m buf).1]
    exact hsame' _ (hgoes.moved _)

end Paced

theorem paced_pedHealthHead (build : GameBuild) : Paced (decodePedHealthHead build) := by
  have hmaximum : ∀ changed, Paced (pedMaximum build changed) := fun changed =>
    .ite (.bits _) (.pure _)
  have hpoints : ∀ isFine maxHealth, Paced (pedHitPoints build isFine maxHealth) :=
    fun isFine maxHealth => .ite (.pure _) (.bind (.bits _)
      (fun _ => .flag fun _ => .flag fun _ => .pure _) fun _ _ _ => rfl)
  have hvitals : Paced (pedVitals build) := by
    refine .flag fun isFine => .flag fun changed => .bind (hmaximum changed) (fun maxHealth =>
      .bind (hpoints isFine maxHealth) (fun _ => .pure _) fun _ _ _ => rfl) fun a b buf => ?_
    cases isFine <;> rfl
  rw [pedHealthHead_split]
  refine .bind hvitals (fun vitals => .bind ?_ (fun _ => .pure _) fun _ _ _ => rfl) fun _ _ _ => rfl
  exact .flag fun _ => .ite (.pure _) (.bits 13)

/-! ### The source of the damage -/

theorem steady_upToDamageFlag (build : GameBuild) : Steady (upToDamageFlag build) := by
  intro buf
  obtain ⟨p, hend, hle, hsame⟩ := paced_pedHealthHead build buf
  obtain ⟨r, q, hrun, hpq, hagain⟩ := steady_damageIds build (buf.setCurrentBit p)
  have hpq' : p ≤ q := hpq
  refine ⟨r, q, ?_, by omega, fun buf' hgoes hstop => ?_⟩
  · show (damageIds build).run (decodePedHealthHead build buf).2 = _
    rw [hend]
    exact hrun
  · show (damageIds build).run (decodePedHealthHead build buf').2 = _
    rw [hsame buf' (hgoes.mono hpq')]
    exact hagain _ (hgoes.moved p) hstop

/-- Who did the damage, with everything in front. -/
def pedSource (build : GameBuild) : BitM UInt16 := upToDamageFlag build >>= fun _ => fromDamageFlag

/-- What did it. -/
def pedCause (build : GameBuild) : BitM UInt32 := pedSource build >>= fun _ => bits 32

theorem steady_pedSource (build : GameBuild) : Steady (pedSource build) :=
  (steady_upToDamageFlag build).bind fun _ =>
    .bind .bit fun _ => .ite (.bind (.bits 13) fun _ => .pure _) (.pure _)

section

variable {F : Type} [Scalar F] {build : GameBuild} {body more : LeafBody}

theorem pedHealth_eq (build : GameBuild) (buf : MessageBuffer) :
    (decodePedHealth build ({} : SyncNodeData F) buf).1
      = { health := (decodePedHealthHead build buf).1.1.map fun v => Scalar.ofInt v.toNat
          maxHealth := (decodePedHealthHead build buf).1.2.1.map fun v => Scalar.ofInt v.toNat
          armour := (decodePedHealthHead build buf).1.2.2.map fun v => Scalar.ofInt v.toNat
          sourceOfDamage := ((pedSource build).run buf).1
          causeOfDeath := ((pedCause build).run buf).1 } := by
  have hsource : (pedSource build).run buf
      = (decodePedDamageSource build).run (decodePedHealthHead build buf).2 := by
    unfold pedSource
    rw [pedDamageSource_split, run_bind, run_bind]
    rfl
  unfold pedCause decodePedHealth
  rw [run_bind, hsource, run_step]
  rcases decodePedHealthHead build buf with ⟨⟨health, maxHealth, armour⟩, mid⟩
  simp only
  rw [run_step]
  rcases (decodePedDamageSource build).run mid with ⟨_ | source, mid'⟩
  · rfl
  · simp only
    rw [run_step]
    rcases (bits 32).run mid' with ⟨_ | cause, mid''⟩
    · rfl
    · rfl

/-- The reads that the maximum takes. -/
def upToMaximum (build : GameBuild) : StateM MessageBuffer (Option UInt32) := do
  let _ ← MessageBuffer.readBit
  let changed ← MessageBuffer.readBit
  pedMaximum build changed

/-- The reads that the health takes. -/
def upToHealth (build : GameBuild) : StateM MessageBuffer (Option UInt32) := do
  let isFine ← MessageBuffer.readBit
  let changed ← MessageBuffer.readBit
  let maxHealth ← pedMaximum build changed
  if isFine then pure maxHealth else (bits (healthBits build)).run

theorem head_maximum (build : GameBuild) (buf : MessageBuffer) :
    (decodePedHealthHead build buf).1.2.1 = (upToMaximum build buf).1 := by
  rw [pedHealthHead_split]
  rfl

theorem head_health (build : GameBuild) (buf : MessageBuffer) :
    (decodePedHealthHead build buf).1.1 = (upToHealth build buf).1 := by
  rw [pedHealthHead_split, run_step]
  unfold pedVitals upToHealth pedHitPoints
  rw [run_step MessageBuffer.readBit, run_step MessageBuffer.readBit,
    run_step MessageBuffer.readBit, run_step MessageBuffer.readBit]
  cases (MessageBuffer.readBit buf).1 <;> rfl

theorem reports_upToMaximum (build : GameBuild) : Reports (· = none) (upToMaximum build) :=
  .bind fun _ => .bind fun _ => .ite (.run (.bits _)) (.pure rfl)

theorem reports_upToHealth (build : GameBuild) : Reports (· = none) (upToHealth build) := by
  refine .bind fun isFine => .bind fun changed => ?_
  cases isFine with
  | false => exact .bind fun _ => .run (.bits _)
  | true =>
      show Reports _ (pedMaximum build changed >>= pure)
      rw [bind_pure]
      exact .ite (.run (.bits _)) (.pure rfl)

/-- An armour is none when its flag says so, and a flag that says so lies in the body. -/
theorem reports_armour (hpadded : body.Padded) (build : GameBuild) :
    (decodePedHealthHead build body.view).1.2.2 = none
      ∨ (decodePedHealthHead build body.view).2.curBit
        ≤ (decodePedHealthHead build body.view).2.maxBit := by
  obtain ⟨vitals, p, hrun, -, -⟩ := local_pedVitals build body.view
  rw [pedHealthHead_split, run_step, run_step, hrun]
  have hstep : pedArmour (body.view.setCurrentBit p)
      = (if bitOf body.bytes p = true then pure (some 0) else (bits 13).run
          : StateM MessageBuffer (Option UInt32)) (body.view.setCurrentBit (p + 1)) := by
    unfold pedArmour
    rw [run_step, readBit_eq]
    rfl
  show (pedArmour (body.view.setCurrentBit p)).1 = none
    ∨ (pedArmour (body.view.setCurrentBit p)).2.curBit
      ≤ (pedArmour (body.view.setCurrentBit p)).2.maxBit
  rw [hstep]
  by_cases hflag : bitOf body.bytes p = true
  · rw [if_pos hflag]
    have hin := lt_of_flag hpadded hflag
    exact .inr (Nat.succ_le_of_lt (hin.trans_eq hpadded.maxBit_view.symm))
  · rw [if_neg hflag]
    exact Reports.run (.bits 13) _

theorem nothing_pedHealth (hpadded : body.Padded) :
    NothingFromBeyond F .cPedHealthDataNode build body
      ↔ flagInside (upToDamageFlag build) body = true := by
  have hdecode : ∀ body : LeafBody,
      leafOut .cPedHealthDataNode build body ({} : SyncNodeData F)
        = (decodePedHealth build {} body.view).1 := fun body => leafOut_eq body {}
  have hsource : Settled (pedSource build) body ↔ flagInside (upToDamageFlag build) body = true :=
    settled_damageFlag hpadded rfl (steady_upToDamageFlag build)
  rw [← hsource]
  constructor
  · intro h v hv more hmore
    have hsame := h .sourceOfDamage (by
      rw [hdecode, pedHealth_eq]
      simp only [Field.Same]
      rw [hv]
      simp) more hmore {}
    rw [hdecode, hdecode, pedHealth_eq, pedHealth_eq] at hsame
    exact Eq.trans hsame hv
  · intro h
    refine nothingFromBeyond_of_empty fun f hf more hmore => ?_
    rw [hdecode, hdecode, pedHealth_eq, pedHealth_eq]
    simp only [writes, List.mem_cons, List.not_mem_nil, or_false] at hf
    rcases hf with rfl | rfl | rfl | rfl | rfl
    · simp only [Field.Same, head_health]
      have hlocal : Local (upToHealth build) :=
        .bind .readBit fun _ => .bind .readBit fun changed =>
          .bind (local_pedMaximum build changed) fun _ => .ite (.pure _) (.run (.bits _))
      have hsame := same_of_reports (· = none) hpadded hmore hlocal (reports_upToHealth build _)
      exact hsame.imp (fun h => by rw [h]; rfl) fun h => by rw [h]
    · simp only [Field.Same, head_maximum]
      have hlocal : Local (upToMaximum build) :=
        .bind .readBit fun _ => .bind .readBit fun changed => local_pedMaximum build changed
      have hsame := same_of_reports (· = none) hpadded hmore hlocal (reports_upToMaximum build _)
      exact hsame.imp (fun h => by rw [h]; rfl) fun h => by rw [h]
    · have hsame := same_of_reports (fun r => r.2.2 = none) hpadded hmore
        (local_pedHealthHead build) (reports_armour hpadded build)
      simp only [Field.Same]
      exact hsame.imp (fun h => by rw [h]; rfl) fun h => by rw [h]
    · simp only [Field.Same]
      rcases hv : ((pedSource build).run body.view).1 with _ | v
      · exact .inl rfl
      · exact .inr (h v hv more hmore)
    · simp only [Field.Same]
      have hcause : Settled (pedCause build) body :=
        settled_checked hpadded ((steady_pedSource build).bind fun _ => .bits 32)
          (.bind fun _ => .bits 32)
      rcases hv : ((pedCause build).run body.view).1 with _ | v
      · exact .inl rfl
      · exact .inr (hcause v hv more hmore)

end

end SyncParse

end Baston.Rage
