/-
What the sync-tree walk reads.

The walk keeps only the record it decodes.  Its log says how it got there: each presence bit
it took, and each leaf it framed with the bytes handed to the leaf's decoder.  The record is
a fold over the log, so what is shown of the log is shown of the record.
-/
import Baston.Proofs.Blobs
import Baston.Rage.SyncWrite

namespace Baston.Rage

open MessageBuffer

/-! ### Events -/

/-- One thing a traversal does at a node of the tree; `β` is what it knows of a body. -/
inductive Event (β : Type)
  | flag (node : Nat) (present : Bool)
  | leaf (node : Nat) (name : NodeName) (body : β)
  deriving DecidableEq

/-- The same event, with less known of the body. -/
def Event.map {β γ : Type} (f : β → γ) : Event β → Event γ
  | .flag node present => .flag node present
  | .leaf node name body => .leaf node name (f body)

/-- The bytes handed to a decoder, of which the first `bits` bits count, and the position in the
stream they were copied from. -/
structure LeafBody where
  start : Nat
  bits : Nat
  bytes : List UInt8
  deriving DecidableEq

/-- The bits of a body. -/
def LeafBody.payload (b : LeafBody) : List Bool := bitsFrom b.bytes 0 b.bits

namespace SyncParse

variable {F : Type} [Scalar F]

/-! ### The log of a walk -/

/-- The gates that consume no bits. -/
def closed (ctx : WalkContext) (node : FlatNode) : Bool :=
  node.ids.1.toUInt32 &&& ctx.syncType = 0
    || (node.ids.2.2.toUInt32 ≠ 0 && ctx.objType &&& node.ids.2.2.toUInt32 = 0)

/-- The node has a presence bit. -/
def flagged (ctx : WalkContext) (node : FlatNode) : Bool :=
  node.ids.2.1.toUInt32 &&& ctx.syncType ≠ 0

theorem shouldRead_eq (ctx : WalkContext) (node : FlatNode) (buf : MessageBuffer) :
    shouldRead node.ids ctx.syncType ctx.objType buf
      = if closed ctx node then (false, buf)
        else if flagged ctx node then buf.readBit
        else (true, buf) := by
  unfold shouldRead
  by_cases h1 : node.ids.1.toUInt32 &&& ctx.syncType = 0
  · have hclosed : closed ctx node = true := by simp [closed, h1]
    rw [if_pos h1, if_pos hclosed]
    rfl
  · rw [if_neg h1]
    by_cases h2 : node.ids.2.2.toUInt32 ≠ 0 ∧ ctx.objType &&& node.ids.2.2.toUInt32 = 0
    · have hclosed : closed ctx node = true := by simp [closed, h2]
      rw [if_pos h2, if_pos hclosed]
      rfl
    · have hopen : ¬ closed ctx node = true := by
        simp only [closed, h1, decide_false, Bool.false_or, Bool.and_eq_true, decide_eq_true_eq]
        exact h2
      rw [if_neg h2, if_neg hopen]
      by_cases h3 : node.ids.2.1.toUInt32 &&& ctx.syncType ≠ 0
      · rw [if_pos h3, if_pos (by simpa [flagged] using h3)]
      · rw [if_neg h3, if_neg (by simpa [flagged] using h3)]
        rfl

/-- The presence bit a node takes. -/
def flagLog (ctx : WalkContext) (i : Nat) (node : FlatNode) (buf : MessageBuffer) :
    List (Event LeafBody) :=
  if closed ctx node then [] else if flagged ctx node then [.flag i buf.readBit.1] else []

/-- The frame of a leaf: where it starts, and what is handed to its decoder. -/
def frame (buf : MessageBuffer) : Option LeafBody :=
  match buf.readBitsSingle nodeLengthBits with
  | (none, _) => none
  | (some length, buf) =>
    if buf.curBit + length.toNat > buf.data.length * 8 then none
    else
      (buf.readBits ((length.toNat + 7) / 8) length.toNat).1.map fun bytes =>
        ⟨buf.curBit, length.toNat, bytes⟩

/-- The real width of a length field. -/
def lengthWidth (buf : MessageBuffer) : Nat := buf.effectiveLen nodeLengthBits

/-- The bytes copied out of a window of the stream. -/
def cut (data : List UInt8) (start bits : Nat) : List UInt8 :=
  if bits = 0 then []
  else copyBits (List.replicate ((bits + 7) / 8) 0) data bits 0 start

/-- What is framed: a length that the stream holds, and as many bits behind it. -/
structure Framed (buf : MessageBuffer) (body : LeafBody) : Prop where
  start : body.start = buf.curBit + lengthWidth buf
  bits : body.bits = (gather buf.data buf.curBit (lengthWidth buf)).toNat
  room : body.start + body.bits ≤ buf.data.length * 8
  bytes : body.bytes = cut buf.data body.start body.bits

theorem readBits_cut (buf : MessageBuffer) {bits : Nat} (hroom : buf.curBit + bits ≤ buf.maxBit) :
    (buf.readBits ((bits + 7) / 8) bits).1 = some (cut buf.data buf.curBit bits) := by
  unfold readBits cut
  by_cases hzero : bits = 0
  · rw [if_pos hzero, if_pos hzero, hzero]
    rfl
  · rw [if_neg hzero, if_neg hzero, if_neg (by omega)]

theorem frame_iff {buf : MessageBuffer} {body : LeafBody}
    (hsize : buf.maxBit = buf.data.length * 8) : frame buf = some body ↔ Framed buf body := by
  unfold frame readBitsSingle
  simp only
  have hwidth : buf.effectiveLen nodeLengthBits = lengthWidth buf := rfl
  rw [hwidth]
  by_cases hread : buf.curBit + lengthWidth buf > buf.maxBit
  · rw [if_pos hread]
    constructor
    · intro h
      exact absurd h (by simp)
    · intro h
      have h1 := h.start
      have h2 := h.room
      omega
  · rw [if_neg hread]
    simp only
    by_cases hlong : buf.curBit + lengthWidth buf
        + (gather buf.data buf.curBit (lengthWidth buf)).toNat > buf.data.length * 8
    · rw [if_pos hlong]
      constructor
      · intro h
        exact absurd h (by simp)
      · intro h
        have h1 := h.start
        have h2 := h.bits
        have h3 := h.room
        omega
    · rw [if_neg hlong, readBits_cut { buf with curBit := _ } (by simp only; omega),
        Option.map_some, Option.some_inj]
      constructor
      · intro h
        rw [← h]
        exact ⟨rfl, rfl, by simp only; omega, rfl⟩
      · intro h
        obtain ⟨start, bits, bytes⟩ := body
        obtain ⟨hstart, hbits, -, hbytes⟩ := h
        simp only at hstart hbits hbytes
        rw [hbytes, hstart, hbits]

/-- The leaf, when its frame is whole. -/
def leafLog (i : Nat) (name : NodeName) (buf : MessageBuffer) : List (Event LeafBody) :=
  match frame buf with
  | none => []
  | some body => [.leaf i name body]

mutual

/-- What `walk` reads. -/
def walkLog (ctx : WalkContext) : Nat → WalkState F → List (Event LeafBody)
  | 0, _ => []
  | fuel + 1, st =>
    match ctx.tree[st.cursor]? with
    | none => []
    | some node =>
      let (read, buf) := shouldRead node.ids ctx.syncType ctx.objType st.buf
      flagLog ctx st.cursor node st.buf ++
        match node.kind with
        | .parent =>
          if read then walkChildrenLog ctx fuel node.depth { st with cursor := st.cursor + 1, buf }
          else []
        | .data name _ => if read then leafLog st.cursor name buf else []

/-- What `walkChildren` reads. -/
def walkChildrenLog (ctx : WalkContext) : Nat → UInt8 → WalkState F → List (Event LeafBody)
  | 0, _, _ => []
  | fuel + 1, depth, st =>
    match ctx.tree[st.cursor]? with
    | none => []
    | some child =>
      if child.depth > depth then
        walkLog ctx fuel st ++
          match walk ctx fuel st with
          | (false, _) => []
          | (true, st) => walkChildrenLog ctx fuel depth st
      else []

end

section Steps

variable {ctx : WalkContext} {fuel : Nat} {st : WalkState F} {node : FlatNode} {read : Bool}
  {buf : MessageBuffer}

/-- One node, given whether it is read. -/
theorem walk_step (hnode : ctx.tree[st.cursor]? = some node)
    (hread : shouldRead node.ids ctx.syncType ctx.objType st.buf = (read, buf)) :
    walk ctx (fuel + 1) st =
      match node.kind with
      | .parent =>
        if read then walkChildren ctx fuel node.depth ⟨st.cursor + 1, buf, st.out⟩
        else (true, ⟨skipSubtree ctx.tree (st.cursor + 1) node.depth, buf, st.out⟩)
      | .data name _ =>
        if read then walkLeaf ctx name ⟨st.cursor + 1, buf, st.out⟩
        else (true, ⟨st.cursor + 1, buf, st.out⟩) := by
  rw [walk]
  simp only [hnode]
  generalize shouldRead node.ids ctx.syncType ctx.objType st.buf = r at hread ⊢
  subst hread
  rfl

theorem walkLog_step (hnode : ctx.tree[st.cursor]? = some node)
    (hread : shouldRead node.ids ctx.syncType ctx.objType st.buf = (read, buf)) :
    walkLog ctx (fuel + 1) st = flagLog ctx st.cursor node st.buf ++
      match node.kind with
      | .parent =>
        if read then walkChildrenLog ctx fuel node.depth ⟨st.cursor + 1, buf, st.out⟩ else []
      | .data name _ => if read then leafLog st.cursor name buf else [] := by
  rw [walkLog]
  simp only [hnode]
  rw [hread]

theorem walkChildren_step {depth : UInt8} (hnode : ctx.tree[st.cursor]? = some node)
    (hdeep : node.depth > depth) :
    walkChildren ctx (fuel + 1) depth st =
      match walk ctx fuel st with
      | (false, st) => (false, st)
      | (true, st) => walkChildren ctx fuel depth st := by
  rw [walkChildren]
  simp only [hnode]
  exact if_pos hdeep

theorem walkChildrenLog_step {depth : UInt8} (hnode : ctx.tree[st.cursor]? = some node)
    (hdeep : node.depth > depth) :
    walkChildrenLog ctx (fuel + 1) depth st = walkLog ctx fuel st ++
      match walk ctx fuel st with
      | (false, _) => []
      | (true, st) => walkChildrenLog ctx fuel depth st := by
  rw [walkChildrenLog]
  simp only [hnode]
  rw [if_pos hdeep]

/-- The children end with the tree, or at the first node that is not below. -/
theorem walkChildren_end (fuel : Nat) {depth : UInt8}
    (hend : ∀ child ∈ ctx.tree[st.cursor]?, ¬ child.depth > depth) :
    walkChildren ctx (fuel + 1) depth st = (true, st)
      ∧ walkChildrenLog ctx (fuel + 1) depth st = [] := by
  rw [walkChildren, walkChildrenLog]
  rcases hnode : ctx.tree[st.cursor]? with _ | child
  · exact ⟨rfl, rfl⟩
  · simp only
    rw [if_neg (hend child hnode), if_neg (hend child hnode)]
    exact ⟨rfl, rfl⟩

end Steps

/-- One event folded into the record. -/
def applyEvent (build : GameBuild) (out : SyncNodeData F) : Event LeafBody → SyncNodeData F
  | .flag _ _ => out
  | .leaf _ name body =>
    if decodes name then (decodeLeaf name build out (.fromBits body.bytes body.bits)).1 else out

theorem foldl_flagLog (ctx : WalkContext) (i : Nat) (node : FlatNode) (buf : MessageBuffer)
    (out : SyncNodeData F) : (flagLog ctx i node buf).foldl (applyEvent ctx.build) out = out := by
  unfold flagLog
  split
  · rfl
  · split
    · rfl
    · rfl

/-- What a leaf does to the walk: without a frame the walk ends, and otherwise it resumes at the
end of the frame. -/
theorem walkLeaf_eq (ctx : WalkContext) (i : Nat) (name : NodeName) (st : WalkState F)
    (hsize : st.buf.maxBit = st.buf.data.length * 8) :
    walkLeaf ctx name st = match frame st.buf with
      | none => (false, ⟨st.cursor, st.buf.skipBits (lengthWidth st.buf), st.out⟩)
      | some body => (true, ⟨st.cursor, st.buf.setCurrentBit (body.start + body.bits),
          applyEvent ctx.build st.out (.leaf i name body)⟩) := by
  unfold walkLeaf frame
  rcases hread : st.buf.readBitsSingle nodeLengthBits with ⟨_ | length, buf⟩
  · have hbuf : buf = st.buf.skipBits (lengthWidth st.buf) := by
      have hsnd := congrArg Prod.snd hread
      unfold readBitsSingle at hsnd
      simp only at hsnd
      split at hsnd
      · exact hsnd.symm
      · exact hsnd.symm
    simp only [hbuf]
  · obtain ⟨-, rfl⟩ := BitM.bits_bound hread
    simp only
    by_cases hlong : st.buf.curBit + st.buf.effectiveLen nodeLengthBits + length.toNat
        > st.buf.data.length * 8
    · rw [if_pos hlong, if_pos hlong]
      rfl
    · rw [if_neg hlong, if_neg hlong, readBits_cut { st.buf with curBit := _ } (by simp only; omega)]
      rfl

/-- The walk only moves the cursors. -/
structure SameData (buf buf' : MessageBuffer) : Prop where
  data : buf'.data = buf.data
  bound : buf'.maxBit = buf.maxBit
  mode : buf'.lengthHack = buf.lengthHack

theorem SameData.refl (buf : MessageBuffer) : SameData buf buf := ⟨rfl, rfl, rfl⟩

theorem SameData.trans {a b c : MessageBuffer} (h1 : SameData a b) (h2 : SameData b c) :
    SameData a c :=
  ⟨h2.data.trans h1.data, h2.bound.trans h1.bound, h2.mode.trans h1.mode⟩

theorem sameData_shouldRead (ctx : WalkContext) (node : FlatNode) (buf : MessageBuffer) :
    SameData buf (shouldRead node.ids ctx.syncType ctx.objType buf).2 := by
  rw [shouldRead_eq]
  split
  · exact .refl _
  · split
    · exact ⟨rfl, rfl, rfl⟩
    · exact .refl _

theorem sameData_readBitsSingle (n : Nat) (buf : MessageBuffer) :
    SameData buf (buf.readBitsSingle n).2 := by
  unfold readBitsSingle
  simp only
  split
  · exact ⟨rfl, rfl, rfl⟩
  · exact ⟨rfl, rfl, rfl⟩

theorem sameData_walkLeaf (ctx : WalkContext) (name : NodeName) (st : WalkState F) :
    SameData st.buf (walkLeaf ctx name st).2.buf := by
  have hread := sameData_readBitsSingle nodeLengthBits st.buf
  unfold walkLeaf
  rcases h : st.buf.readBitsSingle nodeLengthBits with ⟨_ | length, buf⟩
  · rw [h] at hread
    exact hread
  · rw [h] at hread
    simp only
    split
    · exact hread
    · exact hread.trans ⟨rfl, rfl, rfl⟩

/-- The record of a walk is the fold of its log. -/
theorem walk_eq_foldl (ctx : WalkContext) : ∀ fuel : Nat,
    (∀ st : WalkState F, st.buf.maxBit = st.buf.data.length * 8 →
      SameData st.buf (walk ctx fuel st).2.buf
        ∧ (walk ctx fuel st).2.out = (walkLog ctx fuel st).foldl (applyEvent ctx.build) st.out)
    ∧ ∀ (depth : UInt8) (st : WalkState F), st.buf.maxBit = st.buf.data.length * 8 →
      SameData st.buf (walkChildren ctx fuel depth st).2.buf
        ∧ (walkChildren ctx fuel depth st).2.out
          = (walkChildrenLog ctx fuel depth st).foldl (applyEvent ctx.build) st.out := by
  intro fuel
  induction fuel with
  | zero =>
      refine ⟨fun st _ => ⟨.refl _, ?_⟩, fun depth st _ => ⟨.refl _, ?_⟩⟩
      · simp only [walk, walkLog, List.foldl_nil]
      · simp only [walkChildren, walkChildrenLog, List.foldl_nil]
  | succ fuel ih =>
      obtain ⟨ihWalk, ihChildren⟩ := ih
      constructor
      · intro st hsize
        rcases hnode : ctx.tree[st.cursor]? with _ | node
        · simp only [walk, walkLog, hnode]
          exact ⟨.refl _, rfl⟩
        · rcases hr : shouldRead node.ids ctx.syncType ctx.objType st.buf with ⟨read, buf⟩
          have hread : SameData st.buf buf := by
            have := sameData_shouldRead ctx node st.buf
            rwa [hr] at this
          have hbuf : buf.maxBit = buf.data.length * 8 := by
            rw [hread.bound, hread.data]
            exact hsize
          rw [walk_step hnode hr, walkLog_step hnode hr, List.foldl_append, foldl_flagLog]
          rcases hkind : node.kind with _ | ⟨name, maxBytes⟩
          · cases read with
            | true =>
                obtain ⟨hsame, hout⟩ := ihChildren node.depth ⟨st.cursor + 1, buf, st.out⟩ hbuf
                exact ⟨hread.trans hsame, hout⟩
            | false => exact ⟨hread, rfl⟩
          · cases read with
            | true =>
                have hsame := sameData_walkLeaf ctx name (⟨st.cursor + 1, buf, st.out⟩ : WalkState F)
                refine ⟨hread.trans hsame, ?_⟩
                have hleaf := walkLeaf_eq ctx st.cursor name ⟨st.cursor + 1, buf, st.out⟩ hbuf
                simp only [if_true, hleaf, leafLog]
                rcases frame buf with _ | body
                · rfl
                · rfl
            | false => exact ⟨hread, rfl⟩
      · intro depth st hsize
        by_cases hend : ∀ child ∈ ctx.tree[st.cursor]?, ¬ child.depth > depth
        · obtain ⟨hwalk, hlog⟩ := walkChildren_end fuel hend
          rw [hwalk, hlog]
          exact ⟨.refl _, rfl⟩
        · push Not at hend
          obtain ⟨child, hnode, hdeep⟩ := hend
          obtain ⟨hsame, hout⟩ := ihWalk st hsize
          rw [walkChildren_step hnode hdeep, walkChildrenLog_step hnode hdeep, List.foldl_append,
            ← hout]
          rcases h : walk ctx fuel st with ⟨_ | _, st'⟩
          · rw [h] at hsame
            exact ⟨hsame, rfl⟩
          · rw [h] at hsame
            have hbuf : st'.buf.maxBit = st'.buf.data.length * 8 := by
              rw [hsame.bound, hsame.data]
              exact hsize
            obtain ⟨hsame', hout'⟩ := ihChildren depth st' hbuf
            exact ⟨hsame.trans hsame', hout'⟩

end SyncParse

open SyncParse

/-! ### The log of a record -/

/-- The record kind, the object type and the buffer the walk of a record starts with. -/
def startOf (isCreate : Bool) (data : List UInt8) (lengthHack : Bool) :
    UInt32 × UInt32 × MessageBuffer :=
  let buf := (MessageBuffer.fromBytes data).withLengthHack lengthHack
  if isCreate then (1, 0, buf) else (2, buf.readBit.1.toUInt32, buf.readBit.2)

/-- What the walk of a record keeps fixed. -/
def walkContext (entityType : NetObjEntityType) (isCreate : Bool) (data : List UInt8)
    (lengthHack : Bool) (build : GameBuild) : WalkContext :=
  ⟨treeFor entityType, (startOf isCreate data lengthHack).1,
    (startOf isCreate data lengthHack).2.1, build⟩

/-- What `parseSyncTree` reads. -/
def parseLog (F : Type) [Scalar F] (entityType : NetObjEntityType) (isCreate : Bool)
    (data : List UInt8) (lengthHack : Bool) (build : GameBuild) : List (Event LeafBody) :=
  walkLog (walkContext entityType isCreate data lengthHack build) (walkFuel (treeFor entityType))
    (⟨0, (startOf isCreate data lengthHack).2.2, {}⟩ : WalkState F)

/-- The decoded record is the fold of the log. -/
theorem parseSyncTree_eq (F : Type) [Scalar F] (entityType : NetObjEntityType) (isCreate : Bool)
    (data : List UInt8) (lengthHack : Bool) (build : GameBuild) :
    (parseSyncTree entityType isCreate data lengthHack build : SyncNodeData F)
      = (parseLog F entityType isCreate data lengthHack build).foldl (applyEvent build) {} := by
  have hstart : (parseSyncTree entityType isCreate data lengthHack build : SyncNodeData F)
      = (walk (walkContext entityType isCreate data lengthHack build)
        (walkFuel (treeFor entityType)) ⟨0, (startOf isCreate data lengthHack).2.2, {}⟩).2.out := by
    cases isCreate with
    | true => rfl
    | false => rfl
  have hsize : (startOf isCreate data lengthHack).2.2.maxBit
      = (startOf isCreate data lengthHack).2.2.data.length * 8 := by
    cases isCreate with
    | true => rfl
    | false => rfl
  rw [hstart]
  exact (((walk_eq_foldl _ _).1 _ hsize).2)

end Baston.Rage
