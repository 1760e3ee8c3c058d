/-
The machine's readers do what the readers do.

Every primitive checks what it needs, so with the cursor far from the last word it runs as in
the model; and so does a program, as long as there are words for all it may read.
-/
import Baston.Rage.Machine
import Baston.Proofs.Isolation

namespace Baston.Rage

namespace Machine

/-! ### Bits -/

theorem fromBytes_eq {data : List UInt8} (h : data.length * 8 < Checked.words) :
    fromBytes data = .ok (.fromBytes data) := by
  unfold fromBytes
  rw [Checked.mul_eq h]
  rfl

theorem fromBits_eq {data : List UInt8} (h : data.length * 8 < Checked.words) (bitLen : Nat) :
    fromBits data bitLen = .ok (.fromBits data bitLen) := by
  unfold fromBits
  rw [Checked.mul_eq h]
  rfl

theorem bitAt_eq {data : List UInt8} {bit : Nat} (h : bit < data.length * 8) :
    bitAt data bit = .ok (MessageBuffer.bitAt data bit) := by
  unfold bitAt
  rw [Checked.index_eq (by omega) 0, Checked.sub_eq (by omega)]
  rfl

theorem putBit_eq {data : List UInt8} {bit : Nat} (h : bit < data.length * 8) (b : UInt8) :
    putBit data bit b = .ok (MessageBuffer.putBit data bit b) := by
  unfold putBit
  rw [Checked.index_eq (by omega) 0, Checked.sub_eq (by omega)]
  rfl

theorem gather_eq {data : List UInt8} {start length : Nat}
    (hroom : start + length ≤ data.length * 8) (hwords : start + length < Checked.words) :
    gather data start length = .ok (MessageBuffer.gather data start length) := by
  unfold gather MessageBuffer.gather
  refine Checked.foldlM_eq (P := fun _ => True) ?_ trivial
  intro value i hi _
  have hi' : i < length := List.mem_range.mp hi
  rw [Checked.add_eq (by omega), Checked.ok_bind, bitAt_eq (by omega)]
  exact ⟨rfl, trivial⟩

/-! ### Reads -/

/-- The bound of a buffer is within its bytes. -/
def Sized (buf : MessageBuffer) : Prop := buf.maxBit ≤ buf.data.length * 8

theorem readBitsSingle_eq {buf : MessageBuffer} {n : Nat} (hn : n ≤ 32) (hsize : Sized buf)
    (hwords : buf.curBit + buf.effectiveLen n < Checked.words) :
    readBitsSingle n buf = .ok (buf.readBitsSingle n) := by
  unfold readBitsSingle MessageBuffer.readBitsSingle
  simp only
  rw [Checked.ensure_eq (MessageBuffer.effectiveLen_le buf hn), Checked.ok_bind,
    Checked.add_eq hwords, Checked.ok_bind]
  by_cases hfull : buf.curBit + buf.effectiveLen n > buf.maxBit
  · rw [if_pos hfull, if_pos hfull]
    rfl
  · unfold Sized at hsize
    rw [if_neg hfull, if_neg hfull, gather_eq (by omega) hwords]
    rfl

theorem readBit_eq {buf : MessageBuffer} (hwords : buf.curBit + 1 < Checked.words) :
    readBit buf = .ok buf.readBit := by
  unfold readBit MessageBuffer.readBit
  by_cases hend : buf.curBit / 8 ≥ buf.data.length
  · rw [if_pos hend, if_pos hend, Checked.add_eq hwords]
    rfl
  · rw [if_neg hend, if_neg hend, bitAt_eq (by omega), Checked.ok_bind, Checked.add_eq hwords]
    rfl

theorem copyBits_eq {dest src : List UInt8} {length destBit srcBit : Nat}
    (hdest : destBit + length ≤ dest.length * 8) (hsrc : srcBit + length ≤ src.length * 8)
    (hdestWords : destBit + length < Checked.words) (hsrcWords : srcBit + length < Checked.words) :
    copyBits dest src length destBit srcBit
      = .ok (MessageBuffer.copyBits dest src length destBit srcBit) := by
  unfold copyBits MessageBuffer.copyBits
  by_cases haligned : destBit % 8 = 0 ∧ srcBit % 8 = 0 ∧ length % 8 = 0
  · rw [if_pos haligned, if_pos haligned, Checked.add_eq (by omega), Checked.ok_bind,
      Checked.add_eq (by omega), Checked.ok_bind, Checked.slice_eq (by omega) (by omega),
      Checked.ok_bind, Checked.slice_eq (by omega) (by omega), Checked.ok_bind,
      Checked.ensure_eq (by
        rw [List.length_take, List.length_take, List.length_drop, List.length_drop]
        omega), Checked.ok_bind, Nat.add_sub_cancel_left]
    rfl
  · rw [if_neg haligned, if_neg haligned]
    refine Checked.foldlM_eq (P := fun d => d.length = dest.length) ?_ rfl
    intro d i hi hd
    have hi' : i < length := List.mem_range.mp hi
    rw [Checked.add_eq (by omega), Checked.ok_bind, bitAt_eq (by omega), Checked.ok_bind,
      Checked.add_eq (by omega), Checked.ok_bind, putBit_eq (by omega)]
    exact ⟨rfl, by rw [MessageBuffer.length_putBit, hd]⟩

theorem readBits_eq {buf : MessageBuffer} {size length : Nat} (hlen : length ≤ size * 8)
    (hroom : size * 8 < Checked.words) (hsize : Sized buf)
    (hwords : buf.curBit + length < Checked.words) :
    readBits size length buf = .ok (buf.readBits size length) := by
  unfold readBits MessageBuffer.readBits
  by_cases hzero : length = 0
  · rw [if_pos hzero, if_pos hzero]
    rfl
  · rw [if_neg hzero, if_neg hzero, Checked.add_eq hwords, Checked.ok_bind]
    by_cases hfull : buf.curBit + length > buf.maxBit
    · rw [if_pos hfull, if_pos hfull]
      rfl
    · unfold Sized at hsize
      rw [if_neg hfull, if_neg hfull, Checked.mul_eq hroom, Checked.ok_bind,
        Checked.ensure_eq hlen, Checked.ok_bind,
        copyBits_eq (by rw [List.length_replicate]; omega) (by omega) (by omega) hwords]
      rfl

/-! ### Programs -/

/-- A program only moves the cursor, and not backwards. -/
theorem run_cursor {α : Type} (p : Prog α) : ∀ buf : MessageBuffer,
    SyncParse.SameData buf (p.run buf).2 ∧ buf.curBit ≤ (p.run buf).2.curBit := by
  induction p with
  | done a => exact fun buf => ⟨.refl buf, Nat.le_refl _⟩
  | bits n next ih =>
      intro buf
      have hfirst := SyncParse.sameData_readBitsSingle n buf
      have hcur : buf.curBit ≤ (buf.readBitsSingle n).2.curBit := by
        unfold MessageBuffer.readBitsSingle
        simp only
        split
        · exact Nat.le_add_right _ _
        · exact Nat.le_add_right _ _
      obtain ⟨hsame, hle⟩ := ih (buf.readBitsSingle n).1 (buf.readBitsSingle n).2
      exact ⟨hfirst.trans hsame, hcur.trans hle⟩
  | bit next ih =>
      intro buf
      obtain ⟨hsame, hle⟩ := ih buf.readBit.1 buf.readBit.2
      have hfirst : SyncParse.SameData buf buf.readBit.2 := ⟨rfl, rfl, rfl⟩
      exact ⟨hfirst.trans hsame, (Nat.le_succ _).trans hle⟩
  | bytes size length next ih =>
      intro buf
      have hfirst : SyncParse.SameData buf (buf.readBits size length).2
          ∧ buf.curBit ≤ (buf.readBits size length).2.curBit := by
        unfold MessageBuffer.readBits
        split
        · exact ⟨.refl buf, Nat.le_refl _⟩
        · split
          · exact ⟨.refl buf, Nat.le_refl _⟩
          · exact ⟨⟨rfl, rfl, rfl⟩, Nat.le_add_right _ _⟩
      obtain ⟨hsame, hle⟩ := ih (buf.readBits size length).1 (buf.readBits size length).2
      exact ⟨hfirst.1.trans hsame, hfirst.2.trans hle⟩

/-- **A program runs on the machine** while there are words for all it may read. -/
theorem run_eq {α : Type} {p : Prog α} : ∀ {N : Nat} {buf : MessageBuffer}, p.Costs N →
    Sized buf → buf.curBit + N < Checked.words → run p buf = .ok (p.run buf) := by
  induction p with
  | done a => exact fun _ _ _ => rfl
  | bits n next ih =>
      intro N buf hcosts hsize hwords
      obtain ⟨hn, hle, hnext⟩ := hcosts
      have hwidth := effectiveLen_le_widest buf n
      rw [run, readBitsSingle_eq hn hsize (by omega), Checked.ok_bind]
      rcases hread : buf.readBitsSingle n with ⟨v, after⟩
      have hsame := SyncParse.sameData_readBitsSingle n buf
      have hcur : (buf.readBitsSingle n).2.curBit = buf.curBit + buf.effectiveLen n := by
        unfold MessageBuffer.readBitsSingle
        simp only
        split
        · rfl
        · rfl
      rw [hread] at hsame hcur
      simp only at hcur
      have hfits : ∀ x ∈ v, x.toNat < 2 ^ widest n := by
        intro x hx
        rw [Option.mem_def] at hx
        subst hx
        exact (BitM.bits_lt hn hread).trans_le (Nat.pow_le_pow_right (by decide) hwidth)
      simp only
      rw [ih v (hnext v hfits) (by unfold Sized at *; rw [hsame.bound, hsame.data]; exact hsize)
        (by omega)]
      show _ = Except.ok ((next (buf.readBitsSingle n).1).run (buf.readBitsSingle n).2)
      rw [hread]
  | bit next ih =>
      intro N buf hcosts hsize hwords
      obtain ⟨hle, hnext⟩ := hcosts
      rw [run, readBit_eq (by omega), Checked.ok_bind]
      exact ih buf.readBit.1 (hnext _) hsize
        (show buf.curBit + 1 + (N - 1) < Checked.words by omega)
  | bytes size length next ih =>
      intro N buf hcosts hsize hwords
      obtain ⟨hlen, hle, hnext⟩ := hcosts
      rw [run, readBits_eq hlen (by omega) hsize (by omega), Checked.ok_bind]
      obtain ⟨hsize', hcur⟩ : Sized (buf.readBits size length).2
          ∧ (buf.readBits size length).2.curBit ≤ buf.curBit + length := by
        unfold MessageBuffer.readBits
        split
        · exact ⟨hsize, Nat.le_add_right _ _⟩
        · split
          · exact ⟨hsize, Nat.le_add_right _ _⟩
          · exact ⟨hsize, Nat.le_refl _⟩
      have hwords' : (buf.readBits size length).2.curBit + (N - size * 8) < Checked.words := by omega
      exact ih (buf.readBits size length).1 (hnext _) hsize' hwords'

/-! ### Records -/

/-- The record loop of both decoders, as the model runs it. -/
def records {ρ : Type} (body : UInt32 → Prog (Option ρ)) : Nat → MessageBuffer → List ρ
  | 0, _ => []
  | fuel + 1, buf =>
    if buf.isAtEnd then []
    else
      match buf.readBitsSingle 3 with
      | (none, _) => []
      | (some ty, buf) =>
        match (body ty).run buf with
        | (none, _) => []
        | (some r, buf) => r :: records body fuel buf

theorem readRecords_eq : ∀ (fuel : Nat) (buf : MessageBuffer),
    readRecords fuel buf = records (fun ty => (inboundProgram ty).prog) fuel buf := by
  intro fuel
  induction fuel with
  | zero => exact fun _ => rfl
  | succ fuel ih =>
      intro buf
      rw [readRecords, records]
      split
      · rfl
      · rcases buf.readBitsSingle 3 with ⟨_ | ty, mid⟩
        · rfl
        · simp only [Program.run_eq]
          rcases (readInbound ty).run mid with ⟨_ | r, after⟩
          · rfl
          · simp only [ih]

theorem readDownlinks_eq : ∀ (fuel : Nat) (buf : MessageBuffer),
    readDownlinks fuel buf = records (fun ty => (downlinkProgram ty).prog) fuel buf := by
  intro fuel
  induction fuel with
  | zero => exact fun _ => rfl
  | succ fuel ih =>
      intro buf
      rw [readDownlinks, records]
      split
      · rfl
      · rcases buf.readBitsSingle 3 with ⟨_ | ty, mid⟩
        · rfl
        · simp only [Program.run_eq]
          rcases (readDownlink ty).run mid with ⟨_ | r, after⟩
          · rfl
          · simp only [ih]

/-- The record loop ends, with a turn to spare for each bit, and reads what the model reads. -/
theorem recordLoop_eq {ρ : Type} {body : UInt32 → Prog (Option ρ)} {N : Nat}
    (hbody : ∀ ty, (body ty).Costs N) : ∀ (turns fuel : Nat) (buf : MessageBuffer), Sized buf →
      buf.maxBit + N + 3 < Checked.words → buf.maxBit - buf.curBit < turns →
      buf.maxBit - buf.curBit ≤ fuel → recordLoop body turns buf = .ok (records body fuel buf) := by
  intro turns
  induction turns with
  | zero =>
      intro fuel buf _ _ hturns _
      exact absurd hturns (Nat.not_lt_zero _)
  | succ turns ih =>
      intro fuel buf hsize hwords hturns hfuel
      rw [recordLoop]
      by_cases hend : buf.isAtEnd = true
      · rw [if_pos hend]
        cases fuel with
        | zero => rfl
        | succ fuel => rw [records, if_pos hend]; rfl
      · have hmore : buf.curBit < buf.maxBit := by
          simpa [MessageBuffer.isAtEnd] using hend
        obtain ⟨fuel, rfl⟩ : ∃ k, fuel = k + 1 := ⟨fuel - 1, by omega⟩
        have hthree : buf.effectiveLen 3 = 3 := MessageBuffer.effectiveLen_plain buf (by decide)
        rw [records, if_neg hend, if_neg hend, readBitsSingle_eq (by decide) hsize (by omega),
          Checked.ok_bind]
        rcases hread : buf.readBitsSingle 3 with ⟨_ | ty, mid⟩
        · rfl
        · simp only
          obtain ⟨hroom, hmid⟩ := BitM.bits_bound hread
          have hcur : mid.curBit = buf.curBit + 3 := by rw [hmid, hthree]
          have hbound : mid.maxBit = buf.maxBit := by rw [hmid]
          have hsize' : Sized mid := by
            rw [hmid]
            exact hsize
          rw [run_eq (hbody ty) hsize' (by omega), Checked.ok_bind]
          obtain ⟨hsame, hle⟩ := run_cursor (body ty) mid
          rcases hr : (body ty).run mid with ⟨_ | r, after⟩
          · rw [hr] at hle
            simp only at hle ⊢
            rw [Checked.advance_eq (by omega)]
            rfl
          · rw [hr] at hle hsame
            simp only at hle ⊢
            have hbound' := hsame.bound
            simp only at hbound'
            rw [Checked.advance_eq (by omega), Checked.ok_bind,
              ih fuel after (by unfold Sized at *; rw [hsame.bound, hsame.data]; exact hsize')
                (by omega) (by omega) (by omega)]
            rfl

/-! ### Sync trees -/

section Walk

open SyncParse

variable {F : Type} [Scalar F] {ctx : WalkContext}

theorem shouldRead_eq {ids : UInt8 × UInt8 × UInt8} {syncType objType : UInt32}
    {buf : MessageBuffer} (hwords : buf.curBit + 1 < Checked.words) :
    shouldRead ids syncType objType buf = .ok (SyncParse.shouldRead ids syncType objType buf) := by
  unfold shouldRead SyncParse.shouldRead
  split
  · rfl
  · split
    · rfl
    · split
      · exact readBit_eq hwords
      · rfl

/-- Descendants are skipped one a turn. -/
theorem skipSubtree_eq {tree : List FlatNode} (hwords : tree.length < Checked.words)
    (depth : UInt8) : ∀ (turns cursor : Nat), tree.length - cursor < turns →
      skipSubtree tree turns cursor depth = .ok (SyncParse.skipSubtree tree cursor depth) := by
  intro turns
  induction turns with
  | zero =>
      intro cursor hturns
      exact absurd hturns (Nat.not_lt_zero _)
  | succ turns ih =>
      intro cursor hturns
      rw [skipSubtree]
      unfold SyncParse.skipSubtree at ih ⊢
      by_cases hlt : cursor < tree.length
      · have hnode := List.getElem?_eq_getElem hlt
        rw [List.drop_eq_getElem_cons hlt]
        simp only [hnode]
        by_cases hdeep : tree[cursor].depth > depth
        · rw [if_pos hdeep, Checked.add_eq (by omega), Checked.ok_bind, ih _ (by omega),
            List.takeWhile_cons_of_pos (by simpa using hdeep), List.length_cons]
          congr 1
          omega
        · rw [if_neg hdeep, List.takeWhile_cons_of_neg (by simpa using hdeep)]
          rfl
      · rw [List.drop_eq_nil_of_le (by omega), List.getElem?_eq_none (by omega)]
        rfl

/-- The words a walk needs: those of the stream, and some for each node. -/
structure Far (tree : List FlatNode) (st : WalkState F) : Prop where
  size : st.buf.maxBit = st.buf.data.length * 8
  room : st.buf.data.length * 8 + 32 * tree.length + 2 ^ 18 < Checked.words
  bit : st.buf.curBit ≤ st.buf.data.length * 8 + 1 + 32 * st.cursor

theorem lengthWidth_le_sixteen (buf : MessageBuffer) : lengthWidth buf ≤ 16 := by
  unfold lengthWidth MessageBuffer.effectiveLen
  split <;> decide

theorem walkLeaf_eq {name : NodeName} {st : WalkState F}
    (hsize : st.buf.maxBit = st.buf.data.length * 8)
    (hroom : st.buf.data.length * 8 + 2 ^ 18 < Checked.words)
    (hbit : st.buf.curBit + 2 ^ 18 < Checked.words) :
    walkLeaf ctx name st = .ok (SyncParse.walkLeaf ctx name st) := by
  have hwide : st.buf.effectiveLen nodeLengthBits ≤ 16 := lengthWidth_le_sixteen st.buf
  unfold walkLeaf SyncParse.walkLeaf
  rw [readBitsSingle_eq (by decide) hsize.le (by omega), Checked.ok_bind]
  rcases hread : st.buf.readBitsSingle nodeLengthBits with ⟨_ | length, buf⟩
  · rfl
  · obtain ⟨hfit, hbuf⟩ := BitM.bits_bound hread
    have hshort : length.toNat < 2 ^ 16 :=
      (BitM.bits_lt (by decide) hread).trans_le (Nat.pow_le_pow_right (by decide) hwide)
    have hcur : buf.curBit ≤ st.buf.curBit + 16 := by
      rw [hbuf]
      exact Nat.add_le_add_left hwide _
    have hdata : buf.data = st.buf.data := by rw [hbuf]
    have hbuf' : Sized buf := by
      rw [hbuf]
      exact hsize.le
    simp only
    rw [Checked.add_eq (by omega), Checked.ok_bind, Checked.mul_eq (by rw [hdata]; omega),
      Checked.ok_bind]
    by_cases hlong : buf.curBit + length.toNat > buf.data.length * 8
    · rw [if_pos hlong, if_pos hlong]
      rfl
    · rw [if_neg hlong, if_neg hlong]
      by_cases hdecodes : decodes name = true
      · rw [if_pos hdecodes, if_pos hdecodes,
          readBits_eq (by omega) (by omega) hbuf' (by omega), Checked.ok_bind]
        rcases hbody : buf.readBits ((length.toNat + 7) / 8) length.toNat with ⟨_ | body, after⟩
        · rfl
        · have hlen : body.length = (length.toNat + 7) / 8 := by
            have hroom : buf.curBit + length.toNat ≤ buf.maxBit := by
              rw [hbuf, hsize, ← hdata]
              rw [hbuf] at hlong
              simpa [hdata] using hlong
            have hcut := readBits_cut buf hroom
            rw [hbody] at hcut
            rw [Option.some.inj hcut]
            exact (cut_spec (by omega)).1
          simp only
          rw [fromBits_eq (by omega), Checked.ok_bind,
            run_eq (leafProgram name ctx.build st.out).costs (Nat.min_le_right _ _)
              (show 0 + 8191 < Checked.words by decide), Checked.ok_bind,
            (leafProgram name ctx.build st.out).run_eq]
          rfl
      · rw [if_neg hdecodes, if_neg hdecodes]
        rfl

omit [Scalar F] in
/-- One node takes at most one bit, and a leaf its length. -/
theorem Far.step {tree : List FlatNode} {st : WalkState F} (h : Far tree st) {buf : MessageBuffer}
    {cursor : Nat} {out : SyncNodeData F} (hsame : SameData st.buf buf) (hcursor : st.cursor < cursor)
    (hbit : buf.curBit ≤ st.buf.curBit + 32 ∨ buf.curBit ≤ st.buf.data.length * 8) :
    Far tree ⟨cursor, buf, out⟩ where
  size := by
    show buf.maxBit = buf.data.length * 8
    rw [hsame.bound, hsame.data]
    exact h.size
  room := by
    show buf.data.length * 8 + _ + _ < _
    rw [hsame.data]
    exact h.room
  bit := by
    have hle := h.bit
    show buf.curBit ≤ buf.data.length * 8 + 1 + 32 * cursor
    rw [hsame.data]
    omega

/-- **The machine walks as the model does**, and has turns enough. -/
theorem walk_eq : ∀ turns : Nat,
    (∀ st : WalkState F, Far ctx.tree st → st.cursor < ctx.tree.length →
      2 * (ctx.tree.length - st.cursor) ≤ turns →
        walk ctx turns st = .ok (SyncParse.walk ctx turns st)
          ∧ Far ctx.tree (SyncParse.walk ctx turns st).2)
    ∧ ∀ (depth : UInt8) (st : WalkState F), Far ctx.tree st →
      2 * (ctx.tree.length - st.cursor) + 1 ≤ turns →
        walkChildren ctx turns depth st = .ok (SyncParse.walkChildren ctx turns depth st)
          ∧ Far ctx.tree (SyncParse.walkChildren ctx turns depth st).2 := by
  intro turns
  induction turns with
  | zero =>
      refine ⟨?_, ?_⟩
      · intro st _ hlt hturns
        omega
      · intro depth st _ hturns
        omega
  | succ turns ih =>
      obtain ⟨ihWalk, ihChildren⟩ := ih
      constructor
      · intro st hfar hlt hturns
        obtain ⟨node, hnode⟩ : ∃ node, ctx.tree[st.cursor]? = some node :=
          ⟨_, List.getElem?_eq_getElem hlt⟩
        have hroom := hfar.room
        have hbit := hfar.bit
        rcases hr : SyncParse.shouldRead node.ids ctx.syncType ctx.objType st.buf with ⟨read, buf⟩
        have hsame := sameData_shouldRead ctx node st.buf
        have hcur : buf.curBit ≤ st.buf.curBit + 1 := by
          have heq := SyncParse.shouldRead_eq ctx node st.buf
          rw [hr] at heq
          split at heq
          · rw [(Prod.mk.inj heq).2]
            exact Nat.le_succ _
          · split at heq
            · rw [show buf = st.buf.readBit.2 from congrArg Prod.snd heq]
              exact Nat.le_refl _
            · rw [(Prod.mk.inj heq).2]
              exact Nat.le_succ _
        rw [hr] at hsame
        rw [walk_step hnode hr, walk]
        simp only [hnode]
        rw [Checked.add_eq (by omega), Checked.ok_bind, shouldRead_eq (by omega), Checked.ok_bind, hr]
        simp only
        rcases hkind : node.kind with _ | ⟨name, maxBytes⟩
        · cases read with
          | true =>
              have hnext : Far ctx.tree (⟨st.cursor + 1, buf, st.out⟩ : WalkState F) :=
                hfar.step hsame (Nat.lt_succ_self _) (.inl (by omega))
              simp only [if_true]
              exact ihChildren node.depth _ hnext (by simp only; omega)
          | false =>
              have hle := (SyncWrite.skipSubtree_subtree ctx.tree (st.cursor + 1) node.depth
                (by omega)).1.le
              simp only [Bool.false_eq_true, if_false]
              rw [skipSubtree_eq (by omega) _ _ _ (by omega)]
              exact ⟨rfl, hfar.step hsame (by omega) (.inl (by omega))⟩
        · cases read with
          | true =>
              have hsize : buf.maxBit = buf.data.length * 8 := by
                rw [hsame.bound, hsame.data]
                exact hfar.size
              have hdata := hsame.data
              simp only [if_true]
              refine ⟨walkLeaf_eq hsize (by rw [hdata]; omega) (by simp only; omega), ?_⟩
              have hleaf := SyncParse.walkLeaf_eq ctx st.cursor name ⟨st.cursor + 1, buf, st.out⟩ hsize
              rw [hleaf]
              rcases hframe : frame buf with _ | body
              · have hwidth := lengthWidth_le_sixteen buf
                refine hfar.step (hsame.trans ⟨rfl, rfl, rfl⟩) (Nat.lt_succ_self _) (.inl ?_)
                show buf.curBit + lengthWidth buf ≤ _
                omega
              · have hend := ((frame_iff hsize).mp hframe).room
                rw [hdata] at hend
                exact hfar.step (hsame.trans ⟨rfl, rfl, rfl⟩) (Nat.lt_succ_self _) (.inr hend)
          | false =>
              exact ⟨rfl, hfar.step hsame (Nat.lt_succ_self _) (.inl (by omega))⟩
      · intro depth st hfar hturns
        by_cases hend : ∀ child ∈ ctx.tree[st.cursor]?, ¬ child.depth > depth
        · rw [(walkChildren_end turns hend).1, walkChildren]
          rcases hnode : ctx.tree[st.cursor]? with _ | child
          · exact ⟨rfl, hfar⟩
          · simp only
            rw [if_neg (hend child hnode)]
            exact ⟨rfl, hfar⟩
        · push Not at hend
          obtain ⟨child, hmem, hdeep⟩ := hend
          have hnode : ctx.tree[st.cursor]? = some child := hmem
          have hlt : st.cursor < ctx.tree.length := (List.getElem?_eq_some_iff.mp hnode).1
          obtain ⟨hfirst, hfar'⟩ := ihWalk st hfar hlt (by omega)
          obtain ⟨-, hmove⟩ := (walk_visits ctx turns).1 st hfar.size hlt (by omega)
          rw [walkChildren_step hnode hdeep, walkChildren]
          simp only [hnode]
          rw [if_pos hdeep, hfirst, Checked.ok_bind]
          rcases hwalk : SyncParse.walk ctx turns st with ⟨_ | _, mid⟩
          · rw [hwalk] at hmove hfar'
            simp only at hmove ⊢
            rw [Checked.advance_eq hmove]
            exact ⟨rfl, hfar'⟩
          · rw [hwalk] at hmove hfar'
            simp only at hmove ⊢
            rw [Checked.advance_eq hmove, Checked.ok_bind]
            exact ihChildren depth mid hfar' (by omega)

end Walk

end Machine

end Baston.Rage
