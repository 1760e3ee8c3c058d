/-
Leaf bodies written field by field.

The walk hands a leaf's decoder a view of the body that is always narrow, whatever the mode of
the stream.  A body that was written in length-hack mode has three bits more for each of its
13-bit fields, and its decoder lags behind from the first of them on.
-/
import Baston.Proofs.LeafPrograms
import Baston.Proofs.Isolation

namespace Baston.Rage

open MessageBuffer

/-! ### What the reads of a program deliver -/

namespace MessageBuffer

/-- A field in front of the cursor is the number its bits spell. -/
theorem Ahead.number {buf : MessageBuffer} {bits : List Bool} {n : Nat} (h : buf.Ahead bits)
    (hn : n ≤ 32) (hle : n ≤ bits.length) (hwidth : buf.effectiveLen n = n) :
    ∃ u : UInt32, buf.readBitsSingle n = (some u, buf.skipBits n)
      ∧ u.toNat = Bits.value (bits.take n) ∧ (buf.skipBits n).Ahead (bits.drop n) := by
  have hlen : (bits.take n).length = n := List.length_take_of_le hle
  rw [← List.take_append_drop n bits] at h
  obtain ⟨hfirst, hrest⟩ := h.split
  rw [hlen] at hrest
  have hbound := hfirst.bound
  have hbits := hfirst.bits
  rw [hlen] at hbound hbits
  refine ⟨gather buf.data buf.curBit n, ?_, ?_, hrest⟩
  · unfold readBitsSingle
    simp only [hwidth]
    rw [if_neg (by omega)]
    rfl
  · rw [gather_toNat _ _ n hn, hbits]

end MessageBuffer

namespace Prog

variable {α : Type}

/-- What each read of the program delivers, a failed one nothing. -/
def reads : Prog α → MessageBuffer → List (Option UInt32)
  | .done _, _ => []
  | .bits n next, buf =>
    (buf.readBitsSingle n).1 :: (next (buf.readBitsSingle n).1).reads (buf.readBitsSingle n).2
  | .bit next, buf => some buf.readBit.1.toUInt32 :: (next buf.readBit.1).reads buf.readBit.2
  | .bytes size length next, buf =>
    (next (buf.readBits size length).1).reads (buf.readBits size length).2

/-- A program whose reads deliver what it was fed ends as it did then. -/
theorem run_of_reads {p : Prog α} : ∀ {values : List UInt32} {fields : List (Nat × UInt32)} {a : α}
    {buf : MessageBuffer}, p.feed values = some (fields, a) →
      p.reads buf = values.map some → (p.run buf).1 = a := by
  induction p with
  | done a =>
      intro values fields a' buf hfeed _
      rcases values with _ | ⟨v, vs⟩
      · exact (Prod.mk.inj (Option.some.inj hfeed)).2
      · exact absurd hfeed (by simp [feed])
  | bits n next ih =>
      intro values fields a buf hfeed hreads
      rcases values with _ | ⟨v, vs⟩
      · exact absurd hfeed (by simp [feed])
      · obtain ⟨⟨rest, b⟩, hrest, heq⟩ := Option.map_eq_some_iff.mp hfeed
        obtain ⟨hv, htail⟩ := List.cons.inj hreads
        rw [hv] at htail
        show ((next (buf.readBitsSingle n).1).run _).1 = a
        rw [hv, ← (Prod.mk.inj heq).2]
        exact ih (some v) hrest htail
  | bit next ih =>
      intro values fields a buf hfeed hreads
      rcases values with _ | ⟨v, vs⟩
      · exact absurd hfeed (by simp [feed])
      · obtain ⟨⟨rest, b⟩, hrest, heq⟩ := Option.map_eq_some_iff.mp hfeed
        obtain ⟨hv, htail⟩ := List.cons.inj hreads
        have hbit : (v != 0) = buf.readBit.1 := by
          rw [← Option.some.inj hv]
          cases buf.readBit.1 <;> rfl
        rw [hbit] at hrest
        rw [← (Prod.mk.inj heq).2]
        exact ih _ hrest htail
  | bytes size length next ih =>
      intro values fields a buf hfeed _
      exact absurd hfeed (by simp [feed])

/-! ### A narrow reader on wide fields -/

/-- The fields from the first on that is wider than its reader takes it for. -/
def fromWide (lengthHack : Bool) (fields : List (Nat × UInt32)) : List (Nat × UInt32) :=
  fields.dropWhile fun f => fieldWidth lengthHack f.1 == f.1

/-- The fields that a reader `lag` bits behind does not see where they are. -/
def misread (lengthHack : Bool) (lag : Nat) (fields : List (Nat × UInt32)) : List (Nat × UInt32) :=
  if lag = 0 then fromWide lengthHack fields else fields

theorem le_fieldWidth (lengthHack : Bool) (n : Nat) : n ≤ fieldWidth lengthHack n := by
  unfold fieldWidth
  split
  · omega
  · exact Nat.le_refl n

/-- Narrow streams have no wide fields. -/
theorem fromWide_narrow (fields : List (Nat × UInt32)) : fromWide false fields = [] := by
  induction fields with
  | nil => rfl
  | cons f rest ih =>
      unfold fromWide at ih ⊢
      rw [List.dropWhile_cons_of_pos (by simp [fieldWidth])]
      exact ih

theorem misread_cons (lengthHack : Bool) (lag n : Nat) (v : UInt32) (rest : List (Nat × UInt32)) :
    misread lengthHack lag ((n, v) :: rest)
      = if lag + (fieldWidth lengthHack n - n) = 0 then misread lengthHack 0 rest
        else (n, v) :: misread lengthHack (lag + (fieldWidth lengthHack n - n)) rest := by
  have hwide := le_fieldWidth lengthHack n
  unfold misread fromWide
  by_cases hlag : lag = 0
  · rw [if_pos hlag, if_pos rfl]
    by_cases hsame : fieldWidth lengthHack n = n
    · rw [List.dropWhile_cons_of_pos (by simpa using hsame), if_pos (by omega)]
    · rw [List.dropWhile_cons_of_neg (by simpa using hsame), if_neg (by omega), if_neg (by omega)]
  · rw [if_neg hlag, if_neg (by omega), if_neg (by omega)]

/-- What is in front of a reader `lag` bits behind, and what is left when it still reads right. -/
theorem lagging (lag : Nat) {n width v : Nat} (hn : n ≤ width) (hv : v < 2 ^ width)
    (rest : List Bool) :
    Bits.value ((List.replicate lag false ++ (Bits.msb width v ++ rest)).take n)
        = v / 2 ^ (lag + (width - n))
      ∧ (lag + (width - n) = 0 ∨ v = 0 →
        (List.replicate lag false ++ (Bits.msb width v ++ rest)).drop n
          = List.replicate (lag + (width - n)) false ++ rest) := by
  have hlen : (List.replicate lag false ++ Bits.msb width v).length = lag + width := by
    rw [List.length_append, List.length_replicate, Bits.length_msb]
  rw [← List.append_assoc]
  constructor
  · rw [List.take_append_of_le_length (by omega), Bits.value_take, Bits.value_zeros, Bits.value_msb,
      Nat.mod_eq_of_lt hv, hlen, Nat.add_sub_assoc hn]
  · intro hright
    rw [List.drop_append_of_le_length (by omega)]
    congr 1
    rcases hright with hnone | rfl
    · rw [hnone, List.replicate_zero, List.drop_eq_nil_iff]
      omega
    · rw [Bits.msb_zero, ← List.replicate_add, List.drop_replicate, Nat.add_sub_assoc hn]

/-- A number is its own quotient only by one, or if it is zero. -/
theorem div_two_pow_eq_self {v k : Nat} : v / 2 ^ k = v ↔ k = 0 ∨ v = 0 := by
  constructor
  · intro h
    by_contra hnot
    push Not at hnot
    have hlt := Nat.div_lt_self (Nat.pos_of_ne_zero hnot.2) (Nat.one_lt_two_pow hnot.1)
    omega
  · rintro (rfl | rfl)
    · rw [pow_zero, Nat.div_one]
    · exact Nat.zero_div _

/-- One field more: it is read right where no lag has built up, or where it is zero. -/
theorem misread_iff {lengthHack : Bool} {lag n : Nat} {u v : UInt32}
    {rest : List (Nat × UInt32)} {P : Prop}
    (hu : u.toNat = v.toNat / 2 ^ (lag + (fieldWidth lengthHack n - n)))
    (hP : lag + (fieldWidth lengthHack n - n) = 0 ∨ v.toNat = 0 →
      (P ↔ ∀ f ∈ misread lengthHack (lag + (fieldWidth lengthHack n - n)) rest, f.2 = 0)) :
    (u = v ∧ P) ↔ ∀ f ∈ misread lengthHack lag ((n, v) :: rest), f.2 = 0 := by
  have hsame : u = v ↔ lag + (fieldWidth lengthHack n - n) = 0 ∨ v.toNat = 0 := by
    rw [← UInt32.toNat_inj, hu]
    exact div_two_pow_eq_self
  rw [misread_cons]
  by_cases hright : lag + (fieldWidth lengthHack n - n) = 0 ∨ v.toNat = 0
  · rw [hP hright]
    by_cases hnone : lag + (fieldWidth lengthHack n - n) = 0
    · rw [if_pos hnone, hnone]
      exact and_iff_right (hsame.mpr hright)
    · have hzero : v = 0 := UInt32.toNat_inj.mp (hright.resolve_left hnone)
      rw [if_neg hnone, List.forall_mem_cons]
      exact and_congr_left' (iff_of_true (hsame.mpr hright) hzero)
  · rw [if_neg fun h => hright (.inl h), List.forall_mem_cons]
    refine iff_of_false (fun h => hright (hsame.mp h.1)) fun h => hright (.inr ?_)
    rw [show v = 0 from h.1]
    rfl

/-- A reader `lag` bits behind, given what is still ahead of it. -/
theorem reads_behind {lengthHack : Bool} {p : Prog α} : ∀ {N lag : Nat} {values : List UInt32}
    {fields : List (Nat × UInt32)} {a : α} {buf : MessageBuffer}, p.Costs N →
      p.feed values = some (fields, a) → Fits lengthHack fields → buf.lengthHack = false →
      buf.maxBit ≤ buf.data.length * 8 →
      buf.Ahead (List.replicate lag false ++ fieldsBits lengthHack fields) →
        (p.reads buf = values.map some ↔ ∀ f ∈ misread lengthHack lag fields, f.2 = 0) := by
  induction p with
  | done a =>
      intro N lag values fields a' buf _ hfeed _ _ _ _
      rcases values with _ | ⟨v, vs⟩
      · obtain ⟨rfl, rfl⟩ := Prod.mk.inj (Option.some.inj hfeed)
        refine iff_of_true rfl ?_
        intro f hf
        unfold misread fromWide at hf
        split at hf <;> exact absurd hf (by simp)
      · exact absurd hfeed (by simp [feed])
  | bits n next ih =>
      intro N lag values fields a buf hcosts hfeed hfits hmode hsize hahead
      rcases values with _ | ⟨v, vs⟩
      · exact absurd hfeed (by simp [feed])
      · obtain ⟨⟨rest, b⟩, hrest, heq⟩ := Option.map_eq_some_iff.mp hfeed
        simp only [Prod.mk.injEq] at heq
        obtain ⟨rfl, rfl⟩ := heq
        obtain ⟨hn, -, hnext⟩ := hcosts
        have hv : v.toNat < 2 ^ fieldWidth lengthHack n := hfits (n, v) List.mem_cons_self
        have hwide := le_fieldWidth lengthHack n
        rw [fieldsBits_cons] at hahead
        obtain ⟨hvalue, hleft⟩ := lagging lag hwide hv (fieldsBits lengthHack rest)
        have hnarrow : buf.effectiveLen n = n := by
          unfold effectiveLen
          rw [hmode, if_neg (by simp)]
        obtain ⟨u, hread, hu, hrest'⟩ := hahead.number hn (by
          rw [List.length_append, List.length_append, Bits.length_msb]
          omega) hnarrow
        rw [hvalue] at hu
        show (buf.readBitsSingle n).1 :: (next (buf.readBitsSingle n).1).reads (buf.readBitsSingle n).2
            = some v :: vs.map some ↔ _
        rw [hread, List.cons.injEq, Option.some_inj]
        simp only
        have hsame : u = v → ((next (some u)).reads (buf.skipBits n) = vs.map some ↔
            (next (some v)).reads (buf.skipBits n) = vs.map some) := fun h => by rw [h]
        refine (and_congr_right hsame).trans (misread_iff hu fun hright => ?_)
        rw [hleft hright] at hrest'
        refine ih (some v) (hnext (some v) ?_) hrest
          (fun f hf => hfits f (List.mem_cons_of_mem _ hf)) hmode hsize hrest'
        intro x hx
        rw [← Option.some.inj hx]
        exact hv.trans_le (Nat.pow_le_pow_right (by decide) (fieldWidth_le lengthHack n))
  | bit next ih =>
      intro N lag values fields a buf hcosts hfeed hfits hmode hsize hahead
      rcases values with _ | ⟨v, vs⟩
      · exact absurd hfeed (by simp [feed])
      · obtain ⟨⟨rest, b⟩, hrest, heq⟩ := Option.map_eq_some_iff.mp hfeed
        simp only [Prod.mk.injEq] at heq
        obtain ⟨rfl, rfl⟩ := heq
        obtain ⟨-, hnext⟩ := hcosts
        have hone : fieldWidth lengthHack 1 = 1 := by
          unfold fieldWidth
          rw [if_neg (by simp)]
        have hv : v.toNat < 2 ^ fieldWidth lengthHack 1 := hfits (1, v) List.mem_cons_self
        rw [fieldsBits_cons] at hahead
        obtain ⟨hvalue, hleft⟩ :=
          lagging lag (le_fieldWidth lengthHack 1) hv (fieldsBits lengthHack rest)
        rcases hstream : List.replicate lag false
            ++ (Bits.msb (fieldWidth lengthHack 1) v.toNat ++ fieldsBits lengthHack rest) with _ | ⟨b, bs⟩
        · have hlen := congrArg List.length hstream
          rw [List.length_append, List.length_append, Bits.length_msb, hone] at hlen
          exact absurd hlen (by simp)
        · rw [hstream] at hahead hvalue hleft
          obtain ⟨hread, hrest'⟩ := hahead.bit hsize
          have hu : b.toUInt32.toNat = v.toNat / 2 ^ (lag + (fieldWidth lengthHack 1 - 1)) := by
            rw [← hvalue]
            cases b <;> rfl
          show some buf.readBit.1.toUInt32 :: (next buf.readBit.1).reads buf.readBit.2
              = some v :: vs.map some ↔ _
          rw [hread, List.cons.injEq, Option.some_inj]
          simp only
          have hsame : b.toUInt32 = v → ((next b).reads (buf.skipBits 1) = vs.map some ↔
              (next (v != 0)).reads (buf.skipBits 1) = vs.map some) := by
            intro h
            rw [← h]
            cases b <;> rfl
          refine (and_congr_right hsame).trans (misread_iff hu fun hright => ?_)
          rw [show bs = _ from hleft hright] at hrest'
          exact ih (v != 0) (hnext _) hrest (fun f hf => hfits f (List.mem_cons_of_mem _ hf)) hmode
            hsize hrest'
  | bytes size length next ih =>
      intro N lag values fields a buf _ hfeed _ _ _ _
      exact absurd hfeed (by simp [feed])

end Prog

/-! ### Authored fields -/

open SyncParse SyncWrite

/-- The body of a leaf written field by field, and its length in bits. -/
def leafBody (lengthHack : Bool) (fields : List (Nat × UInt32)) : List UInt8 × Nat :=
  let scratch := (BitW.fields fields ((new nodeScratchBytes).withLengthHack lengthHack)).2
  (scratch.data, scratch.curBit)

theorem leafBody_bits {lengthHack : Bool} {fields : List (Nat × UInt32)}
    (hwidths : ∀ f ∈ fields, f.1 ≤ 32)
    (hshort : (fieldsBits lengthHack fields).length ≤ nodeScratchBytes * 8) :
    bitsFrom (leafBody lengthHack fields).1 0 (leafBody lengthHack fields).2
      = fieldsBits lengthHack fields := by
  have happ := (BitW.Appends.fields hwidths ((new nodeScratchBytes).withLengthHack lengthHack) rfl
    (by simp [new, withLengthHack]) (by simpa [new, withLengthHack] using hshort)).2
  have hbits := happ.bits
  rw [show bitsFrom ((new nodeScratchBytes).withLengthHack lengthHack).data 0
    ((new nodeScratchBytes).withLengthHack lengthHack).curBit = [] from rfl, List.nil_append] at hbits
  exact hbits

/-- The decoder's view of a body. -/
def LeafBody.view (body : LeafBody) : MessageBuffer := .fromBits body.bytes body.bits

/-- Each read of the leaf's decoder delivers the value that was written, and the parser makes of
the record what these values make of it. -/
def ReadsExactly {F : Type} [Scalar F] (name : NodeName) (build : GameBuild) (i : Nat)
    (body : LeafBody) (values : List UInt32) (expected : SyncNodeData F → SyncNodeData F) : Prop :=
  ∀ out, (leafProgram name build out).prog.reads body.view = values.map some
    ∧ applyEvent build out (.leaf i name body) = expected out

/-- The parser runs a leaf's decoder, or leaves the record alone as the decoder would. -/
theorem applyEvent_view {F : Type} [Scalar F] (build : GameBuild) (out : SyncNodeData F) (i : Nat)
    (name : NodeName) (body : LeafBody) :
    applyEvent build out (.leaf i name body) = (decodeLeaf name build out body.view).1 := by
  show (if decodes name then (decodeLeaf name build out body.view).1 else out) = _
  by_cases hdecodes : decodes name = true
  · rw [if_pos hdecodes]
  · rw [if_neg hdecodes]
    cases name <;> first | exact absurd rfl hdecodes | rfl

/-- The decoder has the payload of a logged leaf ahead of it. -/
theorem view_ahead {F : Type} [Scalar F] {entityType : NetObjEntityType}
    {isCreate lengthHack : Bool} {build : GameBuild} {blob : List UInt8} {i : Nat}
    {name : NodeName} {body : LeafBody}
    (hleaf : .leaf i name body ∈ parseLog F entityType isCreate blob lengthHack build) :
    body.view.Ahead body.payload := by
  have htaken := body_of_parseLog hleaf
  have hsize := (cut_spec htaken.room).1
  rw [← htaken.bytes] at hsize
  have hbits : body.payload.length = body.bits := length_bitsFrom _ _ _
  refine ⟨?_, ?_⟩
  · show 0 + _ ≤ min body.bits (body.bytes.length * 8)
    omega
  · rw [hbits]
    rfl

/-- **A leaf is read exactly when its fields are zero from the first wide one on**, and a narrow
stream has none. -/
theorem leaf_fields_read (F : Type) [Scalar F] (entityType : NetObjEntityType)
    (isCreate lengthHack : Bool) (build : GameBuild) (nodes : AuthoredNodes) (h : Authored nodes)
    (name : NodeName) (values : List UInt32) (fields : List (Nat × UInt32))
    (expected : SyncNodeData F → SyncNodeData F)
    (hfeed : ∀ out, (leafProgram name build out).prog.feed values = some (fields, expected out))
    (hfits : Prog.Fits lengthHack fields)
    (hbody : payload nodes name = some (leafBody lengthHack fields)) (blob : List UInt8)
    (hw : writeSyncTree entityType isCreate lengthHack build nodes = some blob) (i : Nat)
    (body : LeafBody)
    (hleaf : .leaf i name body ∈ parseLog F entityType isCreate blob lengthHack build) :
    (ReadsExactly name build i body values expected
        ↔ ∀ f ∈ Prog.fromWide lengthHack fields, f.2 = 0)
      ∧ (lengthHack = false → ReadsExactly name build i body values expected) := by
  obtain ⟨hshort, hwidths⟩ := Prog.length_feed (leafProgram name build {}).costs (hfeed {}) hfits
  -- what the decoder is handed is what was written
  have hpayload : body.payload = fieldsBits lengthHack fields := by
    obtain ⟨events, hplan, -, hlog⟩ := parseLog_written F h hw
    have hmem : Event.leaf i name body.payload ∈ events := by
      rw [← hlog]
      exact List.mem_map.mpr ⟨_, hleaf, rfl⟩
    rw [((plan_leaves _).1 hplan i name body.payload hmem).payload]
    show payloadBits nodes name = _
    unfold payloadBits
    rw [hbody]
    exact leafBody_bits hwidths (hshort.trans (by decide))
  have hahead : body.view.Ahead (List.replicate 0 false ++ fieldsBits lengthHack fields) := by
    rw [List.replicate_zero, List.nil_append, ← hpayload]
    exact view_ahead hleaf
  have hview : body.view.maxBit ≤ body.view.data.length * 8 := Nat.min_le_right _ _
  have hiff : ∀ out : SyncNodeData F,
      (leafProgram name build out).prog.reads body.view = values.map some
        ↔ ∀ f ∈ Prog.fromWide lengthHack fields, f.2 = 0 := fun out =>
    Prog.reads_behind (leafProgram name build out).costs (hfeed out) hfits rfl hview hahead
  have hexact : (∀ f ∈ Prog.fromWide lengthHack fields, f.2 = 0) →
      ReadsExactly name build i body values expected := by
    intro hzero out
    have hreads := (hiff out).mpr hzero
    refine ⟨hreads, ?_⟩
    rw [applyEvent_view, ← (leafProgram name build out).run_eq]
    exact Prog.run_of_reads (hfeed out) hreads
  refine ⟨⟨fun hread => (hiff {}).mp (hread {}).1, hexact⟩, ?_⟩
  rintro rfl
  refine hexact ?_
  rw [Prog.fromWide_narrow]
  exact fun f hf => absurd hf (by simp)

/-- A ped attached to object 8, its attach node written in length-hack mode. -/
def attachedPed : AuthoredNodes :=
  [(.cPedAttachDataNode, leafBody true [(1, 1), (13, 8)])]

theorem attachedPed_authored : Authored attachedPed := by
  intro node hmem
  rw [List.mem_singleton.mp hmem]
  decide +kernel

/-- The ped is read as attached to something else. -/
theorem attach_target_shifted :
    (leafProgram .cPedAttachDataNode ⟨3095⟩ ({} : SyncNodeData Float32)).prog.feed [1, 8]
        = some ([(1, 1), (13, 8)], { attachedTo := some 8 })
      ∧ writeSyncTree .ped false true ⟨3095⟩ attachedPed = some [208, 1, 24, 0, 64, 0, 0, 0]
      ∧ (parseSyncTree .ped false [208, 1, 24, 0, 64, 0, 0, 0] true ⟨3095⟩
          : SyncNodeData Float32).attachedTo = some 1 :=
  ⟨rfl, by decide +kernel, by decide +kernel⟩

/-- Its attach node is not read exactly: the target is wide, and not zero. -/
theorem attached_ped_read :
    (ReadsExactly (F := Float32) .cPedAttachDataNode ⟨3095⟩ 17 ⟨20, 17, [128, 4, 0]⟩ [1, 8]
        (fun out => { out with attachedTo := some 8 })
      ↔ ∀ f ∈ Prog.fromWide true [(1, 1), (13, 8)], f.2 = 0)
      ∧ (true = false → ReadsExactly (F := Float32) .cPedAttachDataNode ⟨3095⟩ 17
        ⟨20, 17, [128, 4, 0]⟩ [1, 8] fun out => { out with attachedTo := some 8 }) :=
  leaf_fields_read Float32 .ped false true ⟨3095⟩ attachedPed attachedPed_authored
    .cPedAttachDataNode [1, 8] [(1, 1), (13, 8)] (fun out => { out with attachedTo := some 8 })
    (fun _ => rfl) (by unfold Prog.Fits; decide +kernel) rfl [208, 1, 24, 0, 64, 0, 0, 0]
    (by decide +kernel) 17
    ⟨20, 17, [128, 4, 0]⟩ (by decide +kernel)

end Baston.Rage
