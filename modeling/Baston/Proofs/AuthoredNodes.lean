/-
Authored nodes and the fields they end up in.

A node is set once, under a name of its own; its payload is what its writer appends to an
empty scratch.  If the tree admits a leaf of that name and no other leaf writes a field, the
parser's record holds in that field what the leaf's decoder makes of the payload, whatever the
other nodes are.
-/
import Baston.Proofs.LeafFields
import Baston.Proofs.WriterRoom

namespace Baston.Rage

open MessageBuffer SyncParse SyncWrite

/-! ### Setting a node -/

theorem payload_append (xs ys : AuthoredNodes) (name : NodeName) :
    payload (xs ++ ys) name = (payload xs name).or (payload ys name) := by
  unfold payload
  rw [List.find?_append, Option.map_or]

theorem contains_append (xs ys : AuthoredNodes) (name : NodeName) :
    contains (xs ++ ys) name = (contains xs name || contains ys name) :=
  List.any_append

/-- A node set under a new name carries what its writer appends. -/
theorem payloadBits_set {nodes : AuthoredNodes} {name : NodeName} {w : BitW} {bits : List Bool}
    (hnew : contains nodes name = false) (happ : BitW.Appends false w bits)
    (hshort : bits.length ≤ 512) (after : AuthoredNodes) :
    payloadBits (set name w nodes ++ after) name = bits := by
  have hnone : payload nodes name = none := by
    unfold payload
    rw [Option.map_eq_none_iff, List.find?_eq_none]
    intro node hmem
    simpa using List.any_eq_false.mp hnew node hmem
  have hbits := (happ (new nodeScratchBytes) rfl (by simp [new])
    (by simp only [new, nodeScratchBytes]; omega)).2.bits
  have hpayload : payload (set name w nodes ++ after) name
      = some ((w (new nodeScratchBytes)).2.data, (w (new nodeScratchBytes)).2.curBit) := by
    unfold SyncWrite.set
    rw [payload_append, payload_append, hnone]
    simp [payload]
  unfold payloadBits
  rw [hpayload]
  exact hbits.trans (List.nil_append bits)

theorem contains_set (name other : NodeName) (w : BitW) (nodes : AuthoredNodes) :
    contains (set name w nodes) other = (contains nodes other || name == other) := by
  unfold SyncWrite.set
  rw [contains_append]
  simp [contains]

/-- A node whose writer appends few bits is short. -/
theorem mem_set {nodes : AuthoredNodes} {name : NodeName} {w : BitW} {bits : List Bool}
    (happ : BitW.Appends false w bits) (hshort : bits.length ≤ 512)
    {node : NodeName × List UInt8 × Nat} (hmem : node ∈ set name w nodes) :
    node ∈ nodes ∨ node.2.2 ≤ 512 ∧ node.2.2 ≤ node.2.1.length * 8 := by
  rcases List.mem_append.mp hmem with hmem | hmem
  · exact .inl hmem
  · obtain ⟨-, hwritten⟩ := happ (new nodeScratchBytes) rfl (by simp [new])
      (by simp only [new, nodeScratchBytes]; omega)
    have hcur : (w (new nodeScratchBytes)).2.curBit = 0 + bits.length := hwritten.cursor
    have hsize : (w (new nodeScratchBytes)).2.data.length = 1024 :=
      hwritten.size.trans List.length_replicate
    right
    rw [List.mem_singleton.mp hmem]
    simp only [hcur, hsize]
    omega

theorem short_set {nodes : AuthoredNodes} {name : NodeName} {w : BitW} {bits : List Bool}
    (h : Short nodes) (happ : BitW.Appends false w bits) (hshort : bits.length ≤ 512) :
    Short (set name w nodes) := fun node hmem =>
  (mem_set happ hshort hmem).elim (h node) id

theorem authored_set {nodes : AuthoredNodes} {name : NodeName} {w : BitW} {bits : List Bool}
    (h : Authored nodes) (happ : BitW.Appends false w bits) (hshort : bits.length ≤ 512) :
    Authored (set name w nodes) := by
  intro node hmem
  rcases mem_set happ hshort hmem with hmem | ⟨hfew, hfit⟩
  · exact h node hmem
  · exact ⟨by omega, hfit⟩

/-! ### From the tree -/

/-- The tree has a leaf of the given name that no gate closes. -/
def admittedLeaf (ctx : WriteContext) (name : NodeName) : Bool :=
  (List.range ctx.tree.length).any fun i => admits ctx i && ctx.tree[i]?.any (isLeaf name)

/-- No other leaf of the tree writes the field. -/
def soleWriter (tree : List FlatNode) (f : Field) (name : NodeName) : Bool :=
  tree.all fun node =>
    match node.kind with
    | .parent => true
    | .data other _ => other == name || !(writes other).contains f

theorem kind_of_isLeaf {name : NodeName} {node : FlatNode} (h : isLeaf name node = true) :
    ∃ maxBytes, node.kind = .data name maxBytes := by
  unfold isLeaf at h
  rcases hkind : node.kind with _ | ⟨other, maxBytes⟩
  · rw [hkind] at h
    exact absurd h (by simp)
  · rw [hkind] at h
    rw [eq_of_beq h]
    exact ⟨maxBytes, rfl⟩

/-- An admitted leaf that was authored is one of the admitted leaves. -/
theorem mem_admittedLeaves {ctx : WriteContext} {name : NodeName}
    (hauthored : contains ctx.nodes name = true) (hadmitted : admittedLeaf ctx name = true) :
    ∃ i, Event.leaf i name (payloadBits ctx.nodes name)
      ∈ admittedLeaves ctx 0 ctx.tree.length := by
  obtain ⟨i, hi, hfound⟩ := List.any_eq_true.mp hadmitted
  obtain ⟨hadmits, hleaf⟩ := Bool.and_eq_true_iff.mp hfound
  obtain ⟨node, hnode, hname⟩ := (Option.any_eq_true _ _).mp hleaf
  obtain ⟨maxBytes, hkind⟩ := kind_of_isLeaf hname
  have hlt := List.mem_range.mp hi
  refine ⟨i, ?_⟩
  unfold admittedLeaves
  refine List.mem_filterMap.mpr ⟨i, ?_, ?_⟩
  · rw [List.mem_range'_1]
    omega
  · rw [if_pos (show admitsFrom ctx 0 i = true from hadmits)]
    unfold authoredLeaf
    simp only [hnode, Option.map_some, hkind]
    exact if_pos hauthored

/-- A fold ends with what the leaves of one name set, if only they set the field. -/
theorem foldl_leaf {F : Type} [Scalar F] {build : GameBuild} {f : Field} {name : NodeName}
    {target : SyncNodeData F} : ∀ {log : List (Event LeafBody)},
    (∀ i body, .leaf i name body ∈ log → ∀ out : SyncNodeData F,
      f.Same (applyEvent build out (.leaf i name body)) target) →
    (∀ i other body, .leaf i other body ∈ log → other ≠ name → f ∉ writes other) →
    ∀ out : SyncNodeData F, f.Same (log.foldl (applyEvent build) out) target
      ∨ (∀ i body, .leaf i name body ∉ log) ∧ f.Same (log.foldl (applyEvent build) out) out := by
  intro log
  induction log with
  | nil =>
      intro _ _ out
      exact .inr ⟨fun i body => List.not_mem_nil, .refl out f⟩
  | cons e rest ih =>
      intro hset hother out
      rw [List.foldl_cons]
      have hrest := ih (fun i body hmem => hset i body (List.mem_cons_of_mem _ hmem))
        (fun i other body hmem => hother i other body (List.mem_cons_of_mem _ hmem))
        (applyEvent build out e)
      rcases hrest with hrest | ⟨hnone, hrest⟩
      · exact .inl hrest
      · cases e with
        | flag i present =>
            refine .inr ⟨?_, hrest⟩
            intro j body hmem
            exact hnone j body ((List.mem_cons.mp hmem).resolve_left (by simp))
        | leaf i other body =>
            by_cases hname : other = name
            · subst hname
              exact .inl (hrest.trans (hset i body List.mem_cons_self out))
            · refine .inr ⟨?_, hrest.trans (same_applyEvent_of_not
                (hother i other body List.mem_cons_self hname) body out)⟩
              intro j body' hmem
              refine hnone j body' ((List.mem_cons.mp hmem).resolve_left ?_)
              intro heq
              exact hname (Event.leaf.inj heq).2.1.symm

section

variable {F : Type} [Scalar F] {entityType : NetObjEntityType} {isCreate lengthHack : Bool}
  {build : GameBuild} {nodes : AuthoredNodes} {blob : List UInt8}

/-- **What is authored in one node is read from it**, whatever else the tree holds: the node is
admitted, no other leaf writes the field, and the node's decoder sets it. -/
theorem field_read (h : Authored nodes)
    (hw : writeSyncTree entityType isCreate lengthHack build nodes = some blob) {f : Field}
    {name : NodeName} {target : SyncNodeData F} (hauthored : contains nodes name = true)
    (hadmitted : admittedLeaf (writeContext entityType isCreate nodes) name = true)
    (hsole : soleWriter (treeFor entityType) f name = true)
    (hset : ∀ (out : SyncNodeData F) (view : MessageBuffer), view.lengthHack = false →
      view.maxBit ≤ view.data.length * 8 → view.Ahead (payloadBits nodes name) →
        f.Same (decodeLeaf name build out view).1 target) :
    f.Same (parseSyncTree entityType isCreate blob lengthHack build) target := by
  obtain ⟨events, hplan, -, hlog⟩ := parseLog_written F h hw
  have hleaves := (rooted_treeFor entityType).leaves
  have planned : ∀ i other body,
      .leaf i other body ∈ parseLog F entityType isCreate blob lengthHack build →
        PlannedLeaf (writeContext entityType isCreate nodes) i other body.payload := by
    intro i other body hmem
    refine (plan_leaves _).1 hplan i other body.payload ?_
    rw [← hlog]
    exact List.mem_map.mpr ⟨_, hmem, rfl⟩
  have hsets : ∀ i body, .leaf i name body ∈ parseLog F entityType isCreate blob lengthHack build →
      ∀ out : SyncNodeData F, f.Same (applyEvent build out (.leaf i name body)) target := by
    intro i body hmem out
    rw [applyEvent_view]
    refine hset out body.view rfl (Nat.min_le_right _ _) ?_
    have hpayload : body.payload = payloadBits nodes name := (planned i name body hmem).payload
    rw [← hpayload]
    exact view_ahead hmem
  have hothers : ∀ i other body,
      .leaf i other body ∈ parseLog F entityType isCreate blob lengthHack build →
        other ≠ name → f ∉ writes other := by
    intro i other body hmem hne hwrites
    obtain ⟨node, hnode, hname⟩ := (Option.any_eq_true _ _).mp (planned i other body hmem).node
    have hnot := List.all_eq_true.mp hsole node (List.mem_of_getElem? hnode)
    obtain ⟨maxBytes, hkind⟩ := kind_of_isLeaf hname
    simp [hkind, hne, hwrites] at hnot
  rw [parseSyncTree_eq]
  rcases foldl_leaf hsets hothers {} with hread | ⟨hnone, -⟩
  · exact hread
  · -- the admitted leaf is in the log
    exfalso
    have hfilter : events.filter (isAuthored nodes) = admittedLeaves
        (writeContext entityType isCreate nodes) 0 (treeFor entityType).length :=
      ((filter_plan hleaves _).1 hplan).2
    obtain ⟨i, hmem⟩ : ∃ i, Event.leaf i name (payloadBits nodes name)
        ∈ admittedLeaves (writeContext entityType isCreate nodes) 0 (treeFor entityType).length :=
      mem_admittedLeaves hauthored hadmitted
    rw [← hfilter] at hmem
    rw [← hlog] at hmem
    obtain ⟨e, he, heq⟩ := List.mem_map.mp (List.mem_filter.mp hmem).1
    cases e with
    | flag j present => exact absurd heq (by simp [Event.map])
    | leaf j other body =>
        obtain ⟨-, rfl, -⟩ := Event.leaf.inj heq
        exact hnone j body he

end

end Baston.Rage
