/-
What the spatial index holds.

Subdividing a node only moves its items around, so an insertion adds one item to the tree
and a removal takes one away, wherever they sit.
-/
import Baston.Gateway.QuadTree

namespace Baston.Gateway

open Baston.Rage Baston.Zone

variable {F : Type}

/-! ### Lists with one changed part -/

variable {ι α : Type}

theorem flatMap_congr_of_not_mem {f g : ι → List α} {i : ι} (h : ∀ j, j ≠ i → g j = f j) :
    ∀ {l : List ι}, i ∉ l → l.flatMap g = l.flatMap f := by
  intro l
  induction l with
  | nil =>
      intro _
      rfl
  | cons j rest ih =>
      intro hi
      rw [List.mem_cons, not_or] at hi
      rw [List.flatMap_cons, List.flatMap_cons, h j (fun e => hi.1 e.symm), ih hi.2]

/-- Parts that agree but for one, which has more in front, make a list with more in front. -/
theorem flatMap_perm_of_mem {f g : ι → List α} {i : ι} {extra : List α}
    (h : ∀ j, j ≠ i → g j = f j) (hi : (g i).Perm (extra ++ f i)) :
    ∀ {l : List ι}, l.Nodup → i ∈ l → (l.flatMap g).Perm (extra ++ l.flatMap f) := by
  intro l
  induction l with
  | nil =>
      intro _ hmem
      cases hmem
  | cons j rest ih =>
      intro hnodup hmem
      rw [List.nodup_cons] at hnodup
      rw [List.flatMap_cons, List.flatMap_cons]
      by_cases hj : j = i
      · subst hj
        rw [flatMap_congr_of_not_mem h hnodup.1, ← List.append_assoc]
        exact hi.append_right _
      · have hrest : i ∈ rest := by
          rcases List.mem_cons.mp hmem with rfl | hrest
          · exact absurd rfl hj
          · exact hrest
        rw [h j hj]
        refine ((ih hnodup.2 hrest).append_left _).trans ?_
        exact List.perm_append_comm_assoc _ _ _

namespace Node

variable {room : Nat}

/-- Everything stored in a node and below it. -/
def entries : {room : Nat} → Node F room → List (ZoneId × Aabb F)
  | _, .leaf _ items => items
  | _, .branch _ items children => items ++ (List.finRange 4).flatMap fun i => (children i).entries

@[simp] theorem entries_leaf (b : Aabb F) (items : List (ZoneId × Aabb F)) :
    (Node.leaf b items : Node F room).entries = items := rfl

@[simp] theorem entries_branch (b : Aabb F) (items : List (ZoneId × Aabb F))
    (children : Fin 4 → Node F room) :
    (Node.branch b items children).entries
      = items ++ (List.finRange 4).flatMap fun i => (children i).entries := rfl

/-! ### Insertion -/

theorem sink_entries [Scalar F] {insertBelow : ZoneId → Aabb F → Node F room → Node F room}
    (h : ∀ id box n, (insertBelow id box n).entries.Perm ((id, box) :: n.entries))
    (item : ZoneId × Aabb F) (n : Node F (room + 1)) :
    (sink insertBelow item n).entries.Perm (item :: n.entries) := by
  cases n with
  | leaf b items =>
      rw [sink, entries_leaf, entries_leaf]
      exact List.perm_append_singleton item items
  | branch b items children =>
      rw [sink]
      cases (List.finRange 4).find? fun i => fits item.2 (children i).bounds with
      | none =>
          simp only [entries_branch]
          rw [← List.cons_append]
          exact (List.perm_append_singleton item items).append_right _
      | some i =>
          simp only [entries_branch]
          have hbelow : ((List.finRange 4).flatMap fun j =>
              (if j = i then insertBelow item.1 item.2 (children j) else children j).entries).Perm
              ([item] ++ (List.finRange 4).flatMap fun j => (children j).entries) := by
            refine flatMap_perm_of_mem (i := i) ?_ ?_ (List.nodup_finRange 4)
              (List.mem_finRange i)
            · intro j hj
              rw [if_neg hj]
            · rw [if_pos rfl]
              exact h item.1 item.2 (children i)
          refine (hbelow.append_left items).trans ?_
          exact List.perm_append_comm_assoc items [item] _

theorem foldl_sink_entries [Scalar F]
    {insertBelow : ZoneId → Aabb F → Node F room → Node F room}
    (h : ∀ id box n, (insertBelow id box n).entries.Perm ((id, box) :: n.entries)) :
    ∀ (items : List (ZoneId × Aabb F)) (n : Node F (room + 1)),
      (items.foldl (fun n item => sink insertBelow item n) n).entries.Perm (items ++ n.entries) := by
  intro items
  induction items with
  | nil =>
      intro n
      exact List.Perm.refl _
  | cons item rest ih =>
      intro n
      rw [List.foldl_cons]
      refine (ih _).trans (((sink_entries h item n).append_left rest).trans ?_)
      exact List.perm_middle

/-- **An insertion adds its item** and moves the others around at most. -/
theorem insert_entries [Scalar F] : ∀ {room : Nat} (id : ZoneId) (box : Aabb F) (n : Node F room),
    (n.insert id box).entries.Perm ((id, box) :: n.entries) := by
  intro room
  induction room with
  | zero =>
      intro id box n
      cases n with
      | leaf b items => exact List.perm_append_singleton (id, box) items
  | succ room ih =>
      intro id box n
      cases n with
      | leaf b items =>
          rw [insert]
          split
          · refine (sink_entries ih (id, box) _).trans (List.Perm.cons _ ?_)
            have hnew : (Node.branch b [] fun i => new (quadrants b i) : Node F (room + 1)).entries
                = [] := List.flatMap_eq_nil_iff.mpr fun _ _ => rfl
            have hsunk := foldl_sink_entries ih items (.branch b [] fun i => .new (quadrants b i))
            rw [hnew, List.append_nil] at hsunk
            exact hsunk
          · exact List.perm_append_singleton (id, box) items
      | branch b items children =>
          rw [insert]
          exact sink_entries ih (id, box) _

/-! ### Removal -/

/-- An item of that name is somewhere in the node. -/
def Has (id : ZoneId) (n : Node F room) : Prop := ∃ box, (id, box) ∈ n.entries

theorem any_iff {id : ZoneId} {items : List (ZoneId × Aabb F)} :
    (items.any fun item => item.1 = id) = true ↔ ∃ box, (id, box) ∈ items := by
  rw [List.any_eq_true]
  constructor
  · rintro ⟨⟨id', box⟩, hmem, hid⟩
    obtain rfl : id' = id := by simpa using hid
    exact ⟨box, hmem⟩
  · rintro ⟨box, hmem⟩
    exact ⟨(id, box), hmem, by simp⟩

theorem has_branch_iff {id : ZoneId} {b : Aabb F} {items : List (ZoneId × Aabb F)}
    {children : Fin 4 → Node F room} :
    (Node.branch b items children).Has id
      ↔ (items.any fun item => item.1 = id) = true ∨ ∃ i, (children i).Has id := by
  rw [any_iff]
  simp only [Has, entries_branch, List.mem_append, List.mem_flatMap, List.mem_finRange, true_and]
  constructor
  · rintro ⟨box, hmem | ⟨i, hmem⟩⟩
    · exact .inl ⟨box, hmem⟩
    · exact .inr ⟨i, box, hmem⟩
  · rintro (⟨box, hmem⟩ | ⟨i, box, hmem⟩)
    · exact ⟨box, .inl hmem⟩
    · exact ⟨box, .inr ⟨i, hmem⟩⟩

theorem eraseP_perm {id : ZoneId} {items : List (ZoneId × Aabb F)}
    (h : (items.any fun item => item.1 = id) = true) :
    ∃ box, items.Perm ((id, box) :: items.eraseP fun item => item.1 = id) := by
  obtain ⟨item, hmem, hid⟩ := List.any_eq_true.mp h
  obtain ⟨a, l₁, l₂, -, ha, hl, herase⟩ :=
    List.exists_of_eraseP (p := fun item : ZoneId × Aabb F => item.1 = id) hmem hid
  have hida : a.1 = id := by simpa using ha
  refine ⟨a.2, ?_⟩
  rw [herase, hl, ← hida]
  exact List.perm_middle

/-- **A removal takes one item of that name away**, and answers whether there was one. -/
theorem remove_entries (id : ZoneId) : ∀ {room : Nat} (n : Node F room),
    (n.Has id → (n.remove id).2 = true
        ∧ ∃ box, n.entries.Perm ((id, box) :: (n.remove id).1.entries))
      ∧ (¬ n.Has id → n.remove id = (n, false)) := by
  intro room n
  induction n with
  | leaf b items =>
      unfold remove
      by_cases hany : (items.any fun item => item.1 = id) = true
      · rw [if_pos hany]
        exact ⟨fun _ => ⟨rfl, eraseP_perm hany⟩, fun hno => absurd (any_iff.mp hany) hno⟩
      · rw [if_neg hany]
        exact ⟨fun hhas => absurd (any_iff.mpr hhas) hany, fun _ => rfl⟩
  | branch b items children ih =>
      unfold remove
      by_cases hany : (items.any fun item => item.1 = id) = true
      · rw [if_pos hany]
        refine ⟨fun _ => ⟨rfl, ?_⟩, fun hno => absurd (has_branch_iff.mpr (.inl hany)) hno⟩
        obtain ⟨box, hperm⟩ := eraseP_perm hany
        exact ⟨box, hperm.append_right _⟩
      · rw [if_neg hany]
        cases hfind : (List.finRange 4).find? fun i => (remove id (children i)).2 with
        | some i =>
            have hfound : (remove id (children i)).2 = true :=
              List.find?_some (p := fun i => (remove id (children i)).2) hfind
            have hhas : (children i).Has id := by
              by_contra hno
              rw [(ih i).2 hno] at hfound
              cases hfound
            obtain ⟨-, box, hperm⟩ := (ih i).1 hhas
            refine ⟨fun _ => ⟨rfl, box, ?_⟩,
              fun hno => absurd (has_branch_iff.mpr (.inr ⟨i, hhas⟩)) hno⟩
            simp only [entries_branch]
            have hbelow : ((List.finRange 4).flatMap fun j => (children j).entries).Perm
                ([(id, box)] ++ (List.finRange 4).flatMap fun j =>
                  (if j = i then (remove id (children j)).1 else children j).entries) := by
              refine flatMap_perm_of_mem (i := i) ?_ ?_ (List.nodup_finRange 4)
                (List.mem_finRange i)
              · intro j hj
                rw [if_neg hj]
              · rw [if_pos rfl]
                exact hperm
            exact (hbelow.append_left items).trans (List.perm_append_comm_assoc items _ _)
        | none =>
            have hno : ¬ ∃ i, (children i).Has id := by
              rintro ⟨i, hhas⟩
              exact List.find?_eq_none.mp hfind i (List.mem_finRange i) ((ih i).1 hhas).1
            refine ⟨fun hhas => ?_, fun _ => rfl⟩
            rcases has_branch_iff.mp hhas with hitems | hbelow
            · exact absurd hitems hany
            · exact absurd hbelow hno

end Node

/-! ### The boxes of a zone -/

namespace QuadTree

/-- The boxes stored under a name. -/
def boxesOf (id : ZoneId) (t : QuadTree F) : List (Aabb F) :=
  (t.root.entries.filter fun item => item.1 = id).map Prod.snd

/-- No zone is stored twice. -/
def Single (t : QuadTree F) : Prop := ∀ id, (t.boxesOf id).length ≤ 1

theorem perm_eq_of_length_le_one {α : Type} {l l' : List α} (h : l.Perm l') (hl : l.length ≤ 1) :
    l = l' := by
  match l, hl with
  | [], _ => exact h.nil_eq
  | [a], _ => exact List.singleton_perm.mp h

theorem boxesOf_perm {id : ZoneId} {t : QuadTree F} {entries : List (ZoneId × Aabb F)}
    (h : t.root.entries.Perm entries) :
    (t.boxesOf id).Perm ((entries.filter fun item => item.1 = id).map Prod.snd) :=
  (h.filter _).map _

theorem boxesOf_remove {t : QuadTree F} (h : t.Single) (id k : ZoneId) :
    (t.remove id).1.boxesOf k = if k = id then [] else t.boxesOf k := by
  have hspec := Node.remove_entries id t.root
  by_cases hhas : t.root.Has id
  · obtain ⟨-, box, hperm⟩ := hspec.1 hhas
    have hk : (t.boxesOf k).Perm _ := boxesOf_perm hperm
    by_cases hkid : k = id
    · subst hkid
      rw [if_pos rfl]
      have hlen := hk.length_eq
      have hone := h k
      simp only [List.filter_cons, decide_true, if_true, List.map_cons, List.length_cons] at hlen
      rw [← List.length_eq_zero_iff]
      show (((t.root.remove k).1.entries.filter fun item => item.1 = k).map Prod.snd).length = 0
      omega
    · rw [if_neg hkid]
      have hne : ¬ id = k := fun e => hkid e.symm
      simp only [List.filter_cons, hne, decide_false, Bool.false_eq_true, if_false] at hk
      exact (perm_eq_of_length_le_one hk (h k)).symm
  · have hsame : (t.remove id).1 = t := by
      unfold remove
      rw [hspec.2 hhas]
    rw [hsame]
    by_cases hkid : k = id
    · subst hkid
      rw [if_pos rfl]
      unfold boxesOf
      rw [List.map_eq_nil_iff, List.filter_eq_nil_iff]
      rintro ⟨k', box⟩ hmem hk'
      obtain rfl : k' = k := by simpa using hk'
      exact hhas ⟨box, hmem⟩
    · rw [if_neg hkid]

theorem single_remove {t : QuadTree F} (h : t.Single) (id : ZoneId) : (t.remove id).1.Single := by
  intro k
  rw [boxesOf_remove h]
  split
  · exact Nat.zero_le _
  · exact h k

theorem boxesOf_insert [Scalar F] {t : QuadTree F} (h : t.Single) (id k : ZoneId)
    (box : Aabb F) :
    (t.insert id box).boxesOf k = if k = id then [box] else t.boxesOf k := by
  have hk : ((t.insert id box).boxesOf k).Perm _ :=
    boxesOf_perm (Node.insert_entries id box (t.remove id).1.root)
  have hgone := boxesOf_remove h id k
  unfold boxesOf at hgone
  by_cases hkid : k = id
  · subst hkid
    rw [if_pos rfl] at hgone ⊢
    simp only [List.filter_cons, decide_true, if_true, List.map_cons, hgone] at hk
    exact List.perm_singleton.mp hk
  · have hne : ¬ id = k := fun e => hkid e.symm
    rw [if_neg hkid] at hgone ⊢
    simp only [List.filter_cons, hne, decide_false, Bool.false_eq_true, if_false, hgone] at hk
    exact (perm_eq_of_length_le_one hk.symm (h k)).symm

theorem single_insert [Scalar F] {t : QuadTree F} (h : t.Single) (id : ZoneId) (box : Aabb F) :
    (t.insert id box).Single := by
  intro k
  rw [boxesOf_insert h]
  split
  · exact Nat.le_refl _
  · exact h k

end QuadTree

end Baston.Gateway
