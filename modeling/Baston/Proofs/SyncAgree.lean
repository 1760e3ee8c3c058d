/-
The sync-tree writer and the parser agree.

What the writer emits at a node depends on the tree, the gates and the authored names, not on
the buffer: `planNode` says it as a list of events.  The writer, when it succeeds, appends the
bits of the plan; the walk, with these bits ahead of it, reads the events of the plan.
-/
import Baston.Proofs.SyncWalk

namespace Baston.Rage

open MessageBuffer SyncParse

namespace SyncWrite

/-! ### What is written -/

/-- The node has a presence bit. -/
def flagged (ctx : WriteContext) (node : FlatNode) : Bool :=
  node.ids.2.1.toUInt32 &&& ctx.syncType ≠ 0

/-- Something below or at the node, whose children start at `start`, was authored. -/
def present (ctx : WriteContext) (node : FlatNode) (start : Nat) : Bool :=
  match node.kind with
  | .parent => subtreeHasPayload ctx start node.depth
  | .data name _ => contains ctx.nodes name

/-- The authored bits of a node, none for a node that was not authored. -/
def payloadBits (nodes : AuthoredNodes) (name : NodeName) : List Bool :=
  match payload nodes name with
  | some (bytes, bits) => bitsFrom bytes 0 bits
  | none => []

/-- Where the subtree of the node at `cursor` ends. -/
def past (ctx : WriteContext) (node : FlatNode) (cursor : Nat) : Nat :=
  skipSubtree ctx.tree (cursor + 1) node.depth

/-- The presence bit of a node, if it has one. -/
def flagPlan (ctx : WriteContext) (node : FlatNode) (cursor : Nat) : List (Event (List Bool)) :=
  if flagged ctx node then [.flag cursor (present ctx node (cursor + 1))] else []

mutual

/-- The events of one node and its subtree, and where to go on. -/
def planNode (ctx : WriteContext) : Nat → Nat → Option (List (Event (List Bool)) × Nat)
  | 0, _ => none
  | fuel + 1, cursor =>
    match ctx.tree[cursor]? with
    | none => none
    | some node =>
      if gated ctx node then some ([], past ctx node cursor)
      else if flagged ctx node && !present ctx node (cursor + 1) then
        some (flagPlan ctx node cursor, past ctx node cursor)
      else
        match node.kind with
        | .parent => (planChildren ctx fuel node.depth (cursor + 1)).map fun r =>
            (flagPlan ctx node cursor ++ r.1, r.2)
        | .data name _ =>
          some (flagPlan ctx node cursor ++ [.leaf cursor name (payloadBits ctx.nodes name)],
            cursor + 1)

/-- The events of the children of a node at `depth`. -/
def planChildren (ctx : WriteContext) :
    Nat → UInt8 → Nat → Option (List (Event (List Bool)) × Nat)
  | 0, _, _ => none
  | fuel + 1, depth, cursor =>
    match ctx.tree[cursor]? with
    | none => some ([], cursor)
    | some child =>
      if child.depth > depth then
        (planNode ctx fuel cursor).bind fun r =>
          (planChildren ctx fuel depth r.2).map fun r' => (r.1 ++ r'.1, r'.2)
      else some ([], cursor)

end

/-- The bits of an event: the presence bit, or the length of a leaf and its payload. -/
def eventBits (lengthHack : Bool) : Event (List Bool) → List Bool
  | .flag _ present => [present]
  | .leaf _ _ payload => Bits.msb (fieldWidth lengthHack nodeLengthBits) payload.length ++ payload

def eventsBits (lengthHack : Bool) (events : List (Event (List Bool))) : List Bool :=
  events.flatMap (eventBits lengthHack)

theorem eventsBits_append (lengthHack : Bool) (xs ys : List (Event (List Bool))) :
    eventsBits lengthHack (xs ++ ys) = eventsBits lengthHack xs ++ eventsBits lengthHack ys := by
  unfold eventsBits
  rw [List.flatMap_append]

/-- Every authored payload is shorter than 2^13 bits, and within its bytes. -/
def Authored (nodes : AuthoredNodes) : Prop :=
  ∀ node ∈ nodes, node.2.2 < 2 ^ 13 ∧ node.2.2 ≤ node.2.1.length * 8

/-- A node whose payload is short enough is authored: the scratch it is written to holds it. -/
theorem Authored.set {nodes : AuthoredNodes} (h : Authored nodes) (name : NodeName) {write : BitW}
    (hshape : BitW.KeepsShape write)
    (hshort : (write (new nodeScratchBytes)).2.curBit < 2 ^ 13) :
    Authored (set name write nodes) := by
  intro node hmem
  rcases List.mem_append.mp hmem with hmem | hmem
  · exact h node hmem
  · rw [List.mem_singleton.mp hmem]
    have hsize : (write (new nodeScratchBytes)).2.data.length = nodeScratchBytes :=
      (hshape _).2.1.trans List.length_replicate
    have hbits : 2 ^ 13 = nodeScratchBytes * 8 := by decide
    refine ⟨hshort, ?_⟩
    simp only [hsize]
    omega

theorem Authored.payload {nodes : AuthoredNodes} (h : Authored nodes) {name : NodeName}
    {bytes : List UInt8} {bits : Nat} (hp : payload nodes name = some (bytes, bits)) :
    bits < 2 ^ 13 ∧ bits ≤ bytes.length * 8 := by
  obtain ⟨node, hfind, hnode⟩ := Option.map_eq_some_iff.mp hp
  have hmem := h node (List.mem_of_find?_eq_some hfind)
  rw [hnode] at hmem
  exact hmem

theorem length_payloadBits {nodes : AuthoredNodes} (h : Authored nodes) (name : NodeName) :
    (payloadBits nodes name).length < 2 ^ 13 := by
  unfold payloadBits
  rcases hp : payload nodes name with _ | ⟨bytes, bits⟩
  · decide
  · simp only [length_bitsFrom]
    exact (h.payload hp).1

/-- What a plan says of one node: it is closed, absent, a parent, or a leaf. -/
inductive NodePlan (ctx : WriteContext) (fuel cursor : Nat) (node : FlatNode) :
    List (Event (List Bool)) → Nat → Prop
  | closed (hgate : gated ctx node = true) :
      NodePlan ctx fuel cursor node [] (past ctx node cursor)
  | absent (hopen : gated ctx node = false) (hflag : flagged ctx node = true)
      (habsent : present ctx node (cursor + 1) = false) :
      NodePlan ctx fuel cursor node [.flag cursor false] (past ctx node cursor)
  | parent {events : List (Event (List Bool))} {cursor' : Nat} (hopen : gated ctx node = false)
      (hpresent : flagged ctx node = true → present ctx node (cursor + 1) = true)
      (hkind : node.kind = .parent)
      (hchildren : planChildren ctx fuel node.depth (cursor + 1) = some (events, cursor')) :
      NodePlan ctx fuel cursor node (flagPlan ctx node cursor ++ events) cursor'
  | leaf {name : NodeName} {maxBytes : UInt16} (hopen : gated ctx node = false)
      (hpresent : flagged ctx node = true → present ctx node (cursor + 1) = true)
      (hkind : node.kind = .data name maxBytes) :
      NodePlan ctx fuel cursor node
        (flagPlan ctx node cursor ++ [.leaf cursor name (payloadBits ctx.nodes name)]) (cursor + 1)

theorem planNode_cases {ctx : WriteContext} {fuel cursor cursor' : Nat}
    {events : List (Event (List Bool))} (h : planNode ctx (fuel + 1) cursor = some (events, cursor')) :
    ∃ node, ctx.tree[cursor]? = some node ∧ NodePlan ctx fuel cursor node events cursor' := by
  rw [planNode] at h
  rcases hnode : ctx.tree[cursor]? with _ | node
  · simp only [hnode] at h
    exact absurd h (by simp)
  · refine ⟨node, rfl, ?_⟩
    simp only [hnode] at h
    by_cases hgate : gated ctx node = true
    · rw [if_pos hgate] at h
      obtain ⟨rfl, rfl⟩ := Prod.mk.inj (Option.some.inj h)
      exact .closed hgate
    · rw [if_neg hgate] at h
      have hopen : gated ctx node = false := by simpa using hgate
      by_cases habsent : (flagged ctx node && !present ctx node (cursor + 1)) = true
      · rw [if_pos habsent] at h
        obtain ⟨rfl, rfl⟩ := Prod.mk.inj (Option.some.inj h)
        obtain ⟨hflag, hnot⟩ : flagged ctx node = true ∧ present ctx node (cursor + 1) = false := by
          simpa using habsent
        rw [flagPlan, if_pos hflag, hnot]
        exact .absent hopen hflag hnot
      · rw [if_neg habsent] at h
        have hpresent : flagged ctx node = true → present ctx node (cursor + 1) = true := by
          simpa using habsent
        rcases hkind : node.kind with _ | ⟨name, maxBytes⟩
        · simp only [hkind] at h
          obtain ⟨⟨events', c⟩, hchildren, heq⟩ := Option.map_eq_some_iff.mp h
          obtain ⟨rfl, rfl⟩ := Prod.mk.inj heq
          exact .parent hopen hpresent hkind hchildren
        · simp only [hkind] at h
          obtain ⟨rfl, rfl⟩ := Prod.mk.inj (Option.some.inj h)
          exact .leaf hopen hpresent hkind

/-- The children of a plan: none, or one and the others. -/
theorem planChildren_cases {ctx : WriteContext} {fuel cursor cursor' : Nat} {depth : UInt8}
    {events : List (Event (List Bool))}
    (h : planChildren ctx (fuel + 1) depth cursor = some (events, cursor')) :
    (events = [] ∧ cursor' = cursor ∧ ∀ child ∈ ctx.tree[cursor]?, ¬ child.depth > depth) ∨
      ∃ child first mid rest, ctx.tree[cursor]? = some child ∧ child.depth > depth
        ∧ planNode ctx fuel cursor = some (first, mid)
        ∧ planChildren ctx fuel depth mid = some (rest, cursor') ∧ events = first ++ rest := by
  rw [planChildren] at h
  rcases hnode : ctx.tree[cursor]? with _ | child
  · simp only [hnode] at h
    obtain ⟨rfl, rfl⟩ := Prod.mk.inj (Option.some.inj h)
    exact .inl ⟨rfl, rfl, by simp⟩
  · simp only [hnode] at h
    by_cases hdeep : child.depth > depth
    · rw [if_pos hdeep] at h
      obtain ⟨⟨first, mid⟩, hfirst, h⟩ := Option.bind_eq_some_iff.mp h
      obtain ⟨⟨rest, c⟩, hrest, heq⟩ := Option.map_eq_some_iff.mp h
      obtain ⟨rfl, rfl⟩ := Prod.mk.inj heq
      exact .inr ⟨child, first, mid, rest, rfl, hdeep, hfirst, hrest, rfl⟩
    · rw [if_neg hdeep] at h
      obtain ⟨rfl, rfl⟩ := Prod.mk.inj (Option.some.inj h)
      refine .inl ⟨rfl, rfl, ?_⟩
      intro other hother
      rw [← Option.some.inj hother]
      exact hdeep

/-! ### The writer follows the plan -/

variable {ctx : WriteContext} {lengthHack : Bool}

theorem emits_leaf (h : Authored ctx.nodes) (i : Nat) (name : NodeName) :
    BitW.Emits lengthHack (writeLeaf ctx name)
      (eventBits lengthHack (.leaf i name (payloadBits ctx.nodes name))) := by
  unfold writeLeaf payloadBits eventBits
  rcases hp : payload ctx.nodes name with _ | ⟨bytes, bits⟩
  · simp only [List.append_nil, List.length_nil]
    exact .field (by decide) rfl 0
  · obtain ⟨hshort, hfit⟩ := h.payload hp
    have hlen : (UInt32.ofNat bits).toNat = bits := by
      rw [UInt32.toNat_ofNat']
      omega
    have hfield : BitW.Emits lengthHack (writeBitsSingle (UInt32.ofNat bits) nodeLengthBits)
        (Bits.msb (fieldWidth lengthHack nodeLengthBits) (UInt32.ofNat bits).toNat) :=
      .field (by decide) rfl _
    rw [hlen] at hfield
    simp only [length_bitsFrom]
    exact hfield.and (.blob hfit)

/-- The presence bit of a node, as it is written. -/
def writeFlag (ctx : WriteContext) (node : FlatNode) (cursor : Nat) : BitW := fun buf =>
  if flagged ctx node then buf.writeBit (present ctx node (cursor + 1)) else (true, buf)

theorem emits_flag (node : FlatNode) (cursor : Nat) :
    BitW.Emits lengthHack (writeFlag ctx node cursor)
      (eventsBits lengthHack (flagPlan ctx node cursor)) := by
  intro buf hbuf hok
  unfold writeFlag flagPlan at *
  by_cases hflag : flagged ctx node = true
  · rw [if_pos hflag] at hok ⊢
    rw [if_pos hflag]
    exact BitW.Emits.bit _ buf hbuf hok
  · rw [if_neg hflag, if_neg hflag]
    exact .refl hbuf

theorem writeNode_step {fuel cursor : Nat} {buf : MessageBuffer} {node : FlatNode}
    (hnode : ctx.tree[cursor]? = some node) :
    writeNode ctx (fuel + 1) cursor buf =
      if gated ctx node then (true, past ctx node cursor, buf)
      else if !(writeFlag ctx node cursor buf).1 then
        (false, cursor + 1, (writeFlag ctx node cursor buf).2)
      else if flagged ctx node && !present ctx node (cursor + 1) then
        (true, past ctx node cursor, (writeFlag ctx node cursor buf).2)
      else
        match node.kind with
        | .parent =>
          writeChildren ctx fuel node.depth (cursor + 1) (writeFlag ctx node cursor buf).2
        | .data name _ =>
          ((writeLeaf ctx name (writeFlag ctx node cursor buf).2).1, cursor + 1,
            (writeLeaf ctx name (writeFlag ctx node cursor buf).2).2) := by
  rw [writeNode]
  simp only [hnode, writeFlag, flagged, decide_eq_true_eq]
  rfl

theorem writeChildren_step {fuel cursor : Nat} {depth : UInt8} {buf : MessageBuffer}
    {node : FlatNode} (hnode : ctx.tree[cursor]? = some node) (hdeep : node.depth > depth) :
    writeChildren ctx (fuel + 1) depth cursor buf =
      match writeNode ctx fuel cursor buf with
      | (false, cursor, buf) => (false, cursor, buf)
      | (true, cursor, buf) => writeChildren ctx fuel depth cursor buf := by
  rw [writeChildren]
  simp only [hnode]
  exact if_pos hdeep

/-- **What the writer appends is its plan**, whenever it succeeds. -/
theorem writeNode_plan (h : Authored ctx.nodes) : ∀ fuel : Nat,
    (∀ {cursor cursor' : Nat} {buf buf' : MessageBuffer}, cursor < ctx.tree.length →
      Writable lengthHack buf → writeNode ctx fuel cursor buf = (true, cursor', buf') →
        ∃ events, planNode ctx fuel cursor = some (events, cursor')
          ∧ Held buf buf' (eventsBits lengthHack events))
    ∧ ∀ {depth : UInt8} {cursor cursor' : Nat} {buf buf' : MessageBuffer},
      Writable lengthHack buf → writeChildren ctx fuel depth cursor buf = (true, cursor', buf') →
        ∃ events, planChildren ctx fuel depth cursor = some (events, cursor')
          ∧ Held buf buf' (eventsBits lengthHack events) := by
  intro fuel
  induction fuel with
  | zero =>
      refine ⟨?_, ?_⟩
      · intro cursor cursor' buf buf' _ _ hw
        rw [writeNode] at hw
        exact absurd (congrArg Prod.fst hw) (by simp)
      · intro depth cursor cursor' buf buf' _ hw
        rw [writeChildren] at hw
        exact absurd (congrArg Prod.fst hw) (by simp)
  | succ fuel ih =>
      obtain ⟨ihNode, ihChildren⟩ := ih
      constructor
      · intro cursor cursor' buf buf' hcursor hbuf hw
        obtain ⟨node, hnode⟩ : ∃ node, ctx.tree[cursor]? = some node :=
          ⟨_, List.getElem?_eq_getElem hcursor⟩
        rw [writeNode_step hnode] at hw
        rw [planNode]
        simp only [hnode]
        by_cases hgate : gated ctx node = true
        · rw [if_pos hgate] at hw ⊢
          obtain ⟨-, rfl, rfl⟩ := Prod.mk.inj hw |>.imp_right Prod.mk.inj
          exact ⟨[], rfl, .refl hbuf⟩
        · rw [if_neg hgate] at hw ⊢
          have hflag : (writeFlag ctx node cursor buf).1 = true := by
            by_contra hno
            rw [if_pos (by simpa using hno)] at hw
            exact absurd (congrArg Prod.fst hw) (by simp)
          have happ := emits_flag node cursor buf hbuf hflag
          have hbuf' := hbuf.held happ
          rw [if_neg (by simp [hflag])] at hw
          generalize (writeFlag ctx node cursor buf).2 = mid at hw happ hbuf'
          by_cases habsent : (flagged ctx node && !present ctx node (cursor + 1)) = true
          · rw [if_pos habsent] at hw ⊢
            obtain ⟨-, rfl, rfl⟩ := Prod.mk.inj hw |>.imp_right Prod.mk.inj
            exact ⟨_, rfl, happ⟩
          · rw [if_neg habsent] at hw ⊢
            rcases hkind : node.kind with _ | ⟨name, maxBytes⟩
            · rw [hkind] at hw
              obtain ⟨events, hplan, hrest⟩ := ihChildren hbuf' hw
              refine ⟨flagPlan ctx node cursor ++ events, ?_, ?_⟩
              · simp only [hplan, Option.map_some]
              · rw [eventsBits_append]
                exact happ.trans hrest
            · rw [hkind] at hw
              obtain ⟨hok, rfl, rfl⟩ := Prod.mk.inj hw |>.imp_right Prod.mk.inj
              refine ⟨_, rfl, ?_⟩
              rw [eventsBits_append]
              have hleaf := emits_leaf h cursor name mid hbuf' hok
              refine happ.trans ?_
              simpa [eventsBits] using hleaf
      · intro depth cursor cursor' buf buf' hbuf hw
        rcases hnode : ctx.tree[cursor]? with _ | child
        · rw [writeChildren] at hw
          simp only [hnode] at hw
          obtain ⟨-, rfl, rfl⟩ := Prod.mk.inj hw |>.imp_right Prod.mk.inj
          refine ⟨[], ?_, .refl hbuf⟩
          rw [planChildren]
          simp only [hnode]
        · by_cases hdeep : child.depth > depth
          · rw [writeChildren_step hnode hdeep] at hw
            rcases hchild : writeNode ctx fuel cursor buf with ⟨_ | _, c, mid⟩
            · rw [hchild] at hw
              exact absurd (congrArg Prod.fst hw) (by simp)
            · rw [hchild] at hw
              have hcursor : cursor < ctx.tree.length := (List.getElem?_eq_some_iff.mp hnode).1
              obtain ⟨events, hplan, happ⟩ := ihNode hcursor hbuf hchild
              obtain ⟨events', hplan', happ'⟩ := ihChildren (hbuf.held happ) hw
              refine ⟨events ++ events', ?_, ?_⟩
              · rw [planChildren]
                simp only [hnode, if_pos hdeep, hplan, Option.bind_some, hplan', Option.map_some]
              · rw [eventsBits_append]
                exact happ.trans happ'
          · rw [writeChildren] at hw
            simp only [hnode, if_neg hdeep] at hw
            obtain ⟨-, rfl, rfl⟩ := Prod.mk.inj hw |>.imp_right Prod.mk.inj
            refine ⟨[], ?_, .refl hbuf⟩
            rw [planChildren]
            simp only [hnode, if_neg hdeep]

/-! ### The walk reads the plan -/

/-- The walk of what a writer wrote. -/
def WriteContext.walking (ctx : WriteContext) (build : GameBuild) : WalkContext :=
  ⟨ctx.tree, ctx.syncType, ctx.objType, build⟩

/-- No node is below a leaf. -/
def LeavesClosed (tree : List FlatNode) : Prop :=
  ∀ i node, tree[i]? = some node → node.kind ≠ .parent → skipSubtree tree (i + 1) node.depth = i + 1

/-- A leaf ahead of the walk is framed as it was written. -/
theorem frame_ahead {buf : MessageBuffer} {payload : List Bool} (hbuf : Bounded lengthHack buf)
    (hshort : payload.length < 2 ^ 13) {i : Nat} {name : NodeName}
    (hahead : buf.Ahead (eventBits lengthHack (.leaf i name payload))) :
    ∃ bytes, frame buf = some ⟨buf.curBit + fieldWidth lengthHack nodeLengthBits, payload.length, bytes⟩
      ∧ bitsFrom bytes 0 payload.length = payload := by
  have hlen : (UInt32.ofNat payload.length).toNat = payload.length := by
    rw [UInt32.toNat_ofNat']
    omega
  have hwide : 2 ^ 13 ≤ 2 ^ fieldWidth lengthHack nodeLengthBits := by
    cases lengthHack <;> decide
  have hfield : BitM.Reads lengthHack (BitM.bits nodeLengthBits)
      (Bits.msb (fieldWidth lengthHack nodeLengthBits) (UInt32.ofNat payload.length).toNat)
      (UInt32.ofNat payload.length) := .field (by decide) rfl (by omega)
  rw [hlen] at hfield
  obtain ⟨hpre, hbody⟩ := hahead.split
  have hread : buf.readBitsSingle nodeLengthBits = _ :=
    hfield buf hbuf.mode hbuf.size.le hpre
  have hbound := hbody.bound
  unfold frame
  rw [hread]
  simp only [hlen]
  have hroom : payload.length ≤ (payload.length + 7) / 8 * 8 := by omega
  have hbody' : (buf.skipBits (Bits.msb (fieldWidth lengthHack nodeLengthBits)
      payload.length).length).Ahead (payload ++ []) := by
    rw [List.append_nil]
    exact hbody
  obtain ⟨bytes, hbytes, -, hbits, -⟩ := hbody'.blob hbuf.size.le hroom
  refine ⟨bytes, ?_, hbits⟩
  have hsize := hbuf.size
  rw [if_neg (by simp only [skipBits] at hbound ⊢; omega), hbytes, Bits.length_msb]
  rfl

/-- A framed leaf is passed over. -/
theorem walkLeaf_frame {F : Type} [Scalar F] (wctx : WalkContext) (name : NodeName)
    (st : WalkState F) (hbuf : Bounded lengthHack st.buf) {body : LeafBody}
    (hframe : frame st.buf = some body) :
    ∃ out, walkLeaf wctx name st = (true,
      ⟨st.cursor, st.buf.skipBits (fieldWidth lengthHack nodeLengthBits + body.bits), out⟩) := by
  have hstart := ((frame_iff hbuf.size).mp hframe).start
  have hwidth : lengthWidth st.buf = fieldWidth lengthHack nodeLengthBits := by
    unfold lengthWidth effectiveLen fieldWidth
    rw [hbuf.mode]
  have hstop : st.buf.setCurrentBit (body.start + body.bits)
      = st.buf.skipBits (fieldWidth lengthHack nodeLengthBits + body.bits) := by
    unfold setCurrentBit skipBits
    rw [hstart, hwidth, Nat.add_assoc]
  rw [walkLeaf_eq wctx 0 name st hbuf.size, hframe, ← hstop]
  exact ⟨_, rfl⟩

/-- The presence bit of an open node is read as it was written. -/
theorem flag_ahead (build : GameBuild) {node : FlatNode} {cursor : Nat} {buf : MessageBuffer}
    (hopen : gated ctx node = false) (hbuf : Bounded lengthHack buf)
    (hahead : buf.Ahead (eventsBits lengthHack (flagPlan ctx node cursor))) :
    shouldRead node.ids (ctx.walking build).syncType (ctx.walking build).objType buf
        = (!flagged ctx node || present ctx node (cursor + 1),
          buf.skipBits (eventsBits lengthHack (flagPlan ctx node cursor)).length)
      ∧ (flagLog (ctx.walking build) cursor node buf).map (Event.map LeafBody.payload)
        = flagPlan ctx node cursor := by
  have hclosed : ¬ closed (ctx.walking build) node = true := by
    rw [show closed (ctx.walking build) node = gated ctx node from rfl, hopen]
    decide
  have hflagged : SyncParse.flagged (ctx.walking build) node = flagged ctx node := rfl
  rw [shouldRead_eq, flagLog, if_neg hclosed, if_neg hclosed, hflagged]
  unfold flagPlan at *
  by_cases hflag : flagged ctx node = true
  · rw [if_pos hflag] at hahead ⊢
    have hone : buf.Ahead (present ctx node (cursor + 1) :: []) := hahead
    obtain ⟨hbit, -⟩ := hone.bit hbuf.size.le
    rw [if_pos hflag, if_pos hflag, hbit, hflag]
    exact ⟨rfl, rfl⟩
  · rw [if_neg hflag, if_neg hflag, if_neg hflag, Bool.eq_false_iff.mpr hflag]
    exact ⟨rfl, rfl⟩

/-- Where the node is present, the walk goes on behind its bit. -/
theorem flag_taken (build : GameBuild) {node : FlatNode} {cursor : Nat} {buf : MessageBuffer}
    (hopen : gated ctx node = false)
    (hpresent : flagged ctx node = true → present ctx node (cursor + 1) = true)
    (hbuf : Bounded lengthHack buf)
    (hahead : buf.Ahead (eventsBits lengthHack (flagPlan ctx node cursor))) :
    shouldRead node.ids (ctx.walking build).syncType (ctx.walking build).objType buf
        = (true, buf.skipBits (eventsBits lengthHack (flagPlan ctx node cursor)).length)
      ∧ (flagLog (ctx.walking build) cursor node buf).map (Event.map LeafBody.payload)
        = flagPlan ctx node cursor := by
  have hthere : (!flagged ctx node || present ctx node (cursor + 1)) = true := by
    cases hflag : flagged ctx node with
    | true => simpa using hpresent hflag
    | false => rfl
  have h := flag_ahead build hopen hbuf hahead
  rwa [hthere] at h

section

variable {F : Type} [Scalar F]

/-- **The walk reads the plan**: with its bits ahead, the walk takes its presence bits, frames
its leaves, and stops behind it. -/
theorem walk_plan (h : Authored ctx.nodes) (hleaves : LeavesClosed ctx.tree) (build : GameBuild) :
    ∀ fuel : Nat,
    (∀ {st : WalkState F} {cursor' : Nat} {events : List (Event (List Bool))},
      planNode ctx fuel st.cursor = some (events, cursor') → Bounded lengthHack st.buf →
      st.buf.Ahead (eventsBits lengthHack events) →
        (∃ out, walk (ctx.walking build) fuel st
          = (true, ⟨cursor', st.buf.skipBits (eventsBits lengthHack events).length, out⟩))
        ∧ (walkLog (ctx.walking build) fuel st).map (Event.map LeafBody.payload) = events)
    ∧ ∀ {depth : UInt8} {st : WalkState F} {cursor' : Nat} {events : List (Event (List Bool))},
      planChildren ctx fuel depth st.cursor = some (events, cursor') → Bounded lengthHack st.buf →
      st.buf.Ahead (eventsBits lengthHack events) →
        (∃ out, walkChildren (ctx.walking build) fuel depth st
          = (true, ⟨cursor', st.buf.skipBits (eventsBits lengthHack events).length, out⟩))
        ∧ (walkChildrenLog (ctx.walking build) fuel depth st).map (Event.map LeafBody.payload)
          = events := by
  intro fuel
  induction fuel with
  | zero =>
      refine ⟨?_, ?_⟩
      · intro st cursor' events hplan
        rw [planNode] at hplan
        exact absurd hplan (by simp)
      · intro depth st cursor' events hplan
        rw [planChildren] at hplan
        exact absurd hplan (by simp)
  | succ fuel ih =>
      obtain ⟨ihNode, ihChildren⟩ := ih
      constructor
      · intro st cursor' events hplan hbuf hahead
        obtain ⟨node, hnode, hcase⟩ := planNode_cases hplan
        have hnode' : (ctx.walking build).tree[st.cursor]? = some node := hnode
        cases hcase with
        | closed hgate =>
            have hread := shouldRead_eq (ctx.walking build) node st.buf
            have hclosed : closed (ctx.walking build) node = true := hgate
            rw [if_pos hclosed] at hread
            rw [walk_step hnode' hread, walkLog_step hnode' hread, flagLog, if_pos hclosed]
            rcases hkind : node.kind with _ | ⟨name, maxBytes⟩
            · exact ⟨⟨st.out, rfl⟩, rfl⟩
            · have hpast := hleaves st.cursor node hnode (by rw [hkind]; simp)
              unfold past
              rw [hpast]
              exact ⟨⟨st.out, rfl⟩, rfl⟩
        | absent hopen hflag habsent =>
            have hplanned : flagPlan ctx node st.cursor = [.flag st.cursor false] := by
              rw [flagPlan, if_pos hflag, habsent]
            rw [← hplanned] at hahead ⊢
            obtain ⟨hread, hlog⟩ := flag_ahead build hopen hbuf hahead
            rw [hflag, habsent] at hread
            rw [walk_step hnode' hread, walkLog_step hnode' hread, List.map_append, hlog]
            rcases hkind : node.kind with _ | ⟨name, maxBytes⟩
            · exact ⟨⟨st.out, rfl⟩, List.append_nil _⟩
            · have hpast := hleaves st.cursor node hnode (by rw [hkind]; simp)
              unfold past
              rw [hpast]
              exact ⟨⟨st.out, rfl⟩, List.append_nil _⟩
        | @parent events _ hopen hpresent hkind hchildren =>
            rw [eventsBits_append] at hahead ⊢
            obtain ⟨hahead1, hahead2⟩ := hahead.split
            obtain ⟨hread, hlog⟩ := flag_taken build hopen hpresent hbuf hahead1
            have hbuf' : Bounded lengthHack
                (st.buf.skipBits (eventsBits lengthHack (flagPlan ctx node st.cursor)).length) :=
              ⟨hbuf.mode, hbuf.size⟩
            obtain ⟨⟨out, hwalk⟩, hlog'⟩ := @ihChildren node.depth
              ⟨st.cursor + 1, st.buf.skipBits _, st.out⟩ _ _ hchildren hbuf' hahead2
            rw [walk_step hnode' hread, walkLog_step hnode' hread, List.map_append, hlog, hkind]
            simp only [if_true]
            rw [hwalk, hlog', List.length_append, skipBits_skipBits]
            exact ⟨⟨out, rfl⟩, rfl⟩
        | @leaf name _ hopen hpresent hkind =>
            rw [eventsBits_append] at hahead ⊢
            obtain ⟨hahead1, hahead2⟩ := hahead.split
            obtain ⟨hread, hlog⟩ := flag_taken build hopen hpresent hbuf hahead1
            have hleaf : eventsBits lengthHack [.leaf st.cursor name (payloadBits ctx.nodes name)]
                = eventBits lengthHack (.leaf st.cursor name (payloadBits ctx.nodes name)) := by
              simp [eventsBits]
            rw [hleaf] at hahead2 ⊢
            have hbuf' : Bounded lengthHack
                (st.buf.skipBits (eventsBits lengthHack (flagPlan ctx node st.cursor)).length) :=
              ⟨hbuf.mode, hbuf.size⟩
            obtain ⟨bytes, hframe, hbits⟩ := frame_ahead hbuf' (length_payloadBits h name) hahead2
            obtain ⟨out, hwalk⟩ := walkLeaf_frame (ctx.walking build) name
              (⟨st.cursor + 1, st.buf.skipBits _, st.out⟩ : WalkState F) hbuf' hframe
            rw [walk_step hnode' hread, walkLog_step hnode' hread, List.map_append, hlog, hkind]
            simp only [if_true]
            rw [hwalk, leafLog, hframe]
            refine ⟨⟨out, ?_⟩, ?_⟩
            · simp only [eventBits, List.length_append, Bits.length_msb, skipBits_skipBits]
            · simp only [List.map_cons, List.map_nil, Event.map, LeafBody.payload, hbits]
      · intro depth st cursor' events hplan hbuf hahead
        rcases planChildren_cases hplan with ⟨rfl, rfl, hend⟩
          | ⟨child, first, mid, rest, hnode, hdeep, hfirst, hrest, rfl⟩
        · have hend' : ∀ child ∈ (ctx.walking build).tree[st.cursor]?, ¬ child.depth > depth := hend
          obtain ⟨hwalk, hlog⟩ := walkChildren_end fuel hend'
          rw [hwalk, hlog]
          exact ⟨⟨st.out, rfl⟩, rfl⟩
        · have hnode' : (ctx.walking build).tree[st.cursor]? = some child := hnode
          rw [eventsBits_append] at hahead ⊢
          obtain ⟨hahead1, hahead2⟩ := hahead.split
          obtain ⟨⟨out, hwalk⟩, hlog⟩ := ihNode hfirst hbuf hahead1
          have hbuf' : Bounded lengthHack (st.buf.skipBits (eventsBits lengthHack first).length) :=
            ⟨hbuf.mode, hbuf.size⟩
          obtain ⟨⟨out', hwalk'⟩, hlog'⟩ := @ihChildren depth ⟨mid, st.buf.skipBits _, out⟩ _ _
            hrest hbuf' hahead2
          rw [walkChildren_step hnode' hdeep, walkChildrenLog_step hnode' hdeep, hwalk]
          simp only
          rw [hwalk', List.map_append, hlog, hlog', List.length_append, skipBits_skipBits]
          exact ⟨⟨out', rfl⟩, rfl⟩

end

end SyncWrite

end Baston.Rage
