/-
Who owns the cells of the world grid.

The table and the slices say the same.  An update gives up the cells that the client's new window
does not cover, and then claims those of the window that nobody owns.  A window is at most five
sectors wide, so its cells fit the budget of a client and the claim never stops early.
-/
import Baston.Rage.Exact
import Baston.Rage.Session

namespace Baston.Rage.WorldGrid

open Assoc

/-! ### Cells -/

theorem idx_inj {x y x' y' : UInt8} (h : idx x.toNat y.toNat = idx x'.toNat y'.toNat) :
    x = x' ∧ y = y' := by
  have hx := x.toNat_lt
  have hy := y.toNat_lt
  have hx' := x'.toNat_lt
  have hy' := y'.toNat_lt
  unfold idx WORLD_GRID_DIM at h
  constructor
  · exact UInt8.toNat_inj.mp (by omega)
  · exact UInt8.toNat_inj.mp (by omega)

theorem isAt_iff {x y : UInt8} {e : WorldGridEntry} :
    isAt x.toNat y.toNat e = true ↔ e.sectorX = x ∧ e.sectorY = y := by
  unfold isAt
  rw [decide_eq_true_iff, UInt8.toNat_inj, UInt8.toNat_inj]

/-- The cells of a list of entries. -/
def positions (cells : List WorldGridEntry) : List (UInt8 × UInt8) :=
  cells.map fun e => (e.sectorX, e.sectorY)

/-- The cell is in a list of entries. -/
abbrev Listed (cells : List WorldGridEntry) (x y : UInt8) : Prop := (x, y) ∈ positions cells

theorem listed_iff {cells : List WorldGridEntry} {x y : UInt8} :
    Listed cells x y ↔ ∃ e ∈ cells, e.sectorX = x ∧ e.sectorY = y := by
  unfold Listed positions
  rw [List.mem_map]
  simp only [Prod.mk.injEq]

theorem listed_cons {e : WorldGridEntry} {cells : List WorldGridEntry} {x y : UInt8} :
    Listed (e :: cells) x y ↔ e.sectorX = x ∧ e.sectorY = y ∨ Listed cells x y := by
  unfold Listed positions
  rw [List.map_cons, List.mem_cons, Prod.mk.injEq, @eq_comm _ x, @eq_comm _ y]

/-! ### Giving cells up -/

theorem disown_apply {netId : UInt16} (accel : Nat → UInt16) (e : WorldGridEntry) (x y : UInt8) :
    disown netId accel e (idx x.toNat y.toNat)
      = if accel (idx x.toNat y.toNat) = netId ∧ e.sectorX = x ∧ e.sectorY = y then UNOWNED
        else accel (idx x.toNat y.toNat) := by
  by_cases hown : accel (idx e.sectorX.toNat e.sectorY.toNat) = netId
  · have hdisown : disown netId accel e
        = Function.update accel (idx e.sectorX.toNat e.sectorY.toNat) UNOWNED := if_pos hown
    rw [hdisown]
    by_cases hat : e.sectorX = x ∧ e.sectorY = y
    · obtain ⟨rfl, rfl⟩ := hat
      rw [Function.update_self, if_pos ⟨hown, rfl, rfl⟩]
    · rw [if_neg fun h => hat h.2]
      refine Function.update_of_ne (fun heq => hat ?_) _ _
      obtain ⟨hx, hy⟩ := idx_inj heq
      exact ⟨hx.symm, hy.symm⟩
  · have hdisown : disown netId accel e = accel := if_neg hown
    rw [hdisown, if_neg]
    rintro ⟨hmine, rfl, rfl⟩
    exact hown hmine

/-- The cells of the list that are the client's are given up, and nothing else. -/
theorem foldl_disown {netId : UInt16} (x y : UInt8) : ∀ (cells : List WorldGridEntry)
    (accel : Nat → UInt16), cells.foldl (disown netId) accel (idx x.toNat y.toNat)
      = if accel (idx x.toNat y.toNat) = netId ∧ Listed cells x y then UNOWNED
        else accel (idx x.toNat y.toNat) := by
  intro cells
  induction cells with
  | nil =>
      intro accel
      rw [List.foldl_nil, if_neg fun h => List.not_mem_nil h.2]
  | cons e rest ih =>
      intro accel
      rw [List.foldl_cons, ih, disown_apply]
      simp only [listed_cons]
      by_cases hown : accel (idx x.toNat y.toNat) = netId
      · by_cases hat : e.sectorX = x ∧ e.sectorY = y
        · simp [hown, hat]
        · simp [hown, hat]
      · simp [hown]

/-! ### Claiming cells -/

/-- A window of cells of the grid that fit the budget. -/
structure Fits (w : Window) : Prop where
  maxX : w.maxX < WORLD_GRID_DIM
  maxY : w.maxY < WORLD_GRID_DIM
  small : w.columns.length * w.rows.length < WORLD_GRID_ENTRIES

/-- The slice of a client: its cells, each once, all inside a window. -/
structure Slice (netId : UInt16) (w : Window) (cells : List WorldGridEntry) : Prop where
  netIds : ∀ e ∈ cells, e.netId = netId
  nodup : (positions cells).Nodup
  inside : ∀ e ∈ cells, w.covers e.sectorX.toNat e.sectorY.toNat = true

/-- The table only gains cells of the client, which nobody owned. -/
def Grows (netId : UInt16) (before after : Nat → UInt16) : Prop :=
  ∀ i, after i = before i ∨ before i = UNOWNED ∧ after i = netId

theorem Grows.refl (netId : UInt16) (accel : Nat → UInt16) : Grows netId accel accel :=
  fun _ => .inl rfl

theorem Grows.trans {netId : UInt16} {a b c : Nat → UInt16} (h : Grows netId a b)
    (h' : Grows netId b c) : Grows netId a c := by
  intro i
  rcases h i with heq | ⟨hfree, hnow⟩
  · rw [← heq]
    exact h' i
  · rcases h' i with heq' | ⟨-, hnow'⟩
    · exact .inr ⟨hfree, heq'.trans hnow⟩
    · exact .inr ⟨hfree, hnow'⟩

theorem Grows.owned {netId : UInt16} {before after : Nat → UInt16} (h : Grows netId before after)
    {i : Nat} (hi : before i ≠ UNOWNED) : after i ≠ UNOWNED := by
  rcases h i with heq | ⟨hfree, -⟩
  · rw [heq]
    exact hi
  · exact absurd hfree hi

/-- What holds while cells are claimed. -/
structure Claiming (netId : UInt16) (w : Window) (s : Claim) : Prop where
  slice : Slice netId w s.2
  owned : ∀ x y : UInt8, s.1 (idx x.toNat y.toNat) = netId ↔ Listed s.2 x y

theorem mem_upTo {min max n : Nat} : n ∈ Window.upTo min max ↔ min ≤ n ∧ n ≤ max := by
  unfold Window.upTo
  rw [List.mem_range'_1]
  omega

theorem covers_iff {w : Window} {x y : Nat} :
    w.covers x y = true ↔ x ∈ w.columns ∧ y ∈ w.rows := by
  unfold Window.covers Window.columns Window.rows
  rw [mem_upTo, mem_upTo]
  simp only [Bool.and_eq_true, decide_eq_true_eq, and_assoc]

/-- The slice never gets full. -/
theorem Slice.room {netId : UInt16} {w : Window} {cells : List WorldGridEntry}
    (h : Slice netId w cells) (hfits : Fits w) : cells.length < WORLD_GRID_ENTRIES := by
  have hlen : ((positions cells).map fun p => (p.1.toNat, p.2.toNat)).length = cells.length := by
    unfold positions
    rw [List.length_map, List.length_map]
  have hnodup : ((positions cells).map fun p => (p.1.toNat, p.2.toNat)).Nodup := by
    refine h.nodup.map fun p q heq => ?_
    obtain ⟨hx, hy⟩ := Prod.mk.inj heq
    exact Prod.ext (UInt8.toNat_inj.mp hx) (UInt8.toNat_inj.mp hy)
  have hsubset : ((positions cells).map fun p => (p.1.toNat, p.2.toNat))
      ⊆ w.columns ×ˢ w.rows := by
    intro q hq
    obtain ⟨⟨x, y⟩, hp, rfl⟩ := List.mem_map.mp hq
    obtain ⟨e, he, rfl, rfl⟩ := listed_iff.mp hp
    exact List.pair_mem_product.mpr (covers_iff.mp (h.inside e he))
  have hle := (List.subperm_of_subset hnodup hsubset).length_le
  rw [hlen, List.length_product] at hle
  exact Nat.lt_of_le_of_lt hle hfits.small

/-- One cell of the window is claimed, if nobody owns it. -/
theorem claimCell_spec {netId : UInt16} {w : Window} {s : Claim} {x y : UInt8}
    (hid : netId ≠ UNOWNED) (h : Claiming netId w s)
    (hcover : w.covers x.toNat y.toNat = true) :
    Claiming netId w (claimCell netId x.toNat y.toNat s)
      ∧ Grows netId s.1 (claimCell netId x.toNat y.toNat s).1
      ∧ (claimCell netId x.toNat y.toNat s).1 (idx x.toNat y.toNat) ≠ UNOWNED := by
  obtain ⟨accel, kept⟩ := s
  have hany : kept.any (isAt x.toNat y.toNat) = true ↔ Listed kept x y := by
    rw [List.any_eq_true, listed_iff]
    simp only [isAt_iff]
  have hown := h.owned x y
  unfold claimCell
  dsimp only at hown ⊢
  by_cases hfree : accel (idx x.toNat y.toNat) = UNOWNED
  · have hnew : ¬ Listed kept x y := fun hlisted => hid ((hown.mpr hlisted).symm.trans hfree)
    rw [if_pos hfree, UInt8.ofNat_toNat, UInt8.ofNat_toNat]
    have hpositions : positions (kept ++ [⟨x, y, netId⟩]) = positions kept ++ [(x, y)] := by
      unfold positions
      rw [List.map_append]
      rfl
    refine ⟨⟨⟨?_, ?_, ?_⟩, ?_⟩, ?_, ?_⟩
    · intro e he
      rcases List.mem_append.mp he with he | he
      · exact h.slice.netIds e he
      · rw [List.mem_singleton.mp he]
    · dsimp only
      rw [hpositions, List.nodup_append']
      refine ⟨h.slice.nodup, List.nodup_singleton _, fun p hp hp' => hnew ?_⟩
      rw [List.mem_singleton.mp hp'] at hp
      exact hp
    · intro e he
      rcases List.mem_append.mp he with he | he
      · exact h.slice.inside e he
      · rw [List.mem_singleton.mp he]
        exact hcover
    · intro x' y'
      dsimp only
      unfold Listed
      rw [hpositions, List.mem_append, List.mem_singleton, Prod.mk.injEq]
      by_cases hsame : x' = x ∧ y' = y
      · obtain ⟨rfl, rfl⟩ := hsame
        rw [Function.update_self]
        simp
      · rw [Function.update_of_ne fun heq => hsame (idx_inj heq), h.owned x' y']
        simp [hsame]
    · intro i
      dsimp only
      by_cases hi : i = idx x.toNat y.toNat
      · subst hi
        exact .inr ⟨hfree, Function.update_self _ _ _⟩
      · exact .inl (Function.update_of_ne hi _ _)
    · dsimp only
      rw [Function.update_self]
      exact hid
  · rw [if_neg hfree, if_neg]
    · exact ⟨h, .refl _ _, hfree⟩
    · rintro ⟨hmine, hnot⟩
      exact hnot (hany.mpr (hown.mp hmine))

/-- The cells of a window are cells of the grid. -/
theorem Fits.cell {w : Window} (h : Fits w) {x y : Nat} (hcover : w.covers x y = true) :
    ∃ x' y' : UInt8, x'.toNat = x ∧ y'.toNat = y := by
  obtain ⟨hx, hy⟩ := covers_iff.mp hcover
  have hx' := (mem_upTo.mp hx).2.trans_lt h.maxX
  have hy' := (mem_upTo.mp hy).2.trans_lt h.maxY
  exact ⟨.ofNat x, .ofNat y, UInt8.toNat_ofNat_of_lt' hx', UInt8.toNat_ofNat_of_lt' hy'⟩

section Claims

variable {netId : UInt16} {w : Window} (hid : netId ≠ UNOWNED) (hfits : Fits w)

include hid hfits

theorem claimColumn_spec {x : Nat} : ∀ (ys : List Nat) (s : Claim),
    (∀ y ∈ ys, w.covers x y = true) → Claiming netId w s →
      Claiming netId w (claimColumn netId x ys s)
        ∧ Grows netId s.1 (claimColumn netId x ys s).1
        ∧ ∀ y ∈ ys, (claimColumn netId x ys s).1 (idx x y) ≠ UNOWNED := by
  intro ys
  induction ys with
  | nil => exact fun s _ h => ⟨h, .refl _ _, fun y hy => absurd hy List.not_mem_nil⟩
  | cons y ys ih =>
      intro s hcovers h
      have hcover := hcovers y List.mem_cons_self
      obtain ⟨x', y', rfl, rfl⟩ := hfits.cell hcover
      obtain ⟨hclaim, hgrows, howned⟩ := claimCell_spec hid h hcover
      obtain ⟨hclaims, hmore, hall⟩ :=
        ih _ (fun y hy => hcovers y (List.mem_cons_of_mem _ hy)) hclaim
      rw [claimColumn, if_neg (Nat.not_le.mpr (h.slice.room hfits))]
      refine ⟨hclaims, hgrows.trans hmore, fun y hy => ?_⟩
      rcases List.mem_cons.mp hy with rfl | hy
      · exact hmore.owned howned
      · exact hall y hy

theorem claimColumns_spec : ∀ (xs : List Nat) (s : Claim), (∀ x ∈ xs, x ∈ w.columns) →
    Claiming netId w s →
      Claiming netId w (xs.foldl (fun s x => claimColumn netId x w.rows s) s)
        ∧ Grows netId s.1 (xs.foldl (fun s x => claimColumn netId x w.rows s) s).1
        ∧ ∀ x ∈ xs, ∀ y ∈ w.rows,
          (xs.foldl (fun s x => claimColumn netId x w.rows s) s).1 (idx x y) ≠ UNOWNED := by
  intro xs
  induction xs with
  | nil => exact fun s _ h => ⟨h, .refl _ _, fun x hx => absurd hx List.not_mem_nil⟩
  | cons x xs ih =>
      intro s hxs h
      have hcolumn := hxs x List.mem_cons_self
      obtain ⟨hclaim, hgrows, howned⟩ := claimColumn_spec hid hfits w.rows s
        (fun y hy => covers_iff.mpr ⟨hcolumn, hy⟩) h
      obtain ⟨hclaims, hmore, hall⟩ :=
        ih _ (fun x hx => hxs x (List.mem_cons_of_mem _ hx)) hclaim
      refine ⟨hclaims, hgrows.trans hmore, fun x' hx y hy => ?_⟩
      rcases List.mem_cons.mp hx with rfl | hx
      · exact hmore.owned (howned y hy)
      · exact hall x' hx y hy

end Claims

/-! ### Operations -/

/-- The two tables agree about every client. -/
def Agrees (g : WorldGrid) : Prop := ∀ netId, netId ≠ UNOWNED → ∀ x y : UInt8,
  g.accel (idx x.toNat y.toNat) = netId ↔ Listed (g.ownedCells netId) x y

/-- What an update of a client's window does. -/
structure Updated (netId : UInt16) (w : Window) (g g' : WorldGrid) : Prop where
  agrees : Agrees g'
  slice : Slice netId w (g'.ownedCells netId)
  others : ∀ other, other ≠ netId → g'.ownedCells other = g.ownedCells other
  covered : ∀ x y, w.covers x y = true → g'.accel (idx x y) ≠ UNOWNED

theorem listed_filter {cells : List WorldGridEntry} {p : Nat → Nat → Bool} {x y : UInt8} :
    Listed (cells.filter fun e => p e.sectorX.toNat e.sectorY.toNat) x y
      ↔ Listed cells x y ∧ p x.toNat y.toNat = true := by
  rw [listed_iff, listed_iff]
  constructor
  · rintro ⟨e, he, rfl, rfl⟩
    obtain ⟨hin, hp⟩ := List.mem_filter.mp he
    exact ⟨⟨e, hin, rfl, rfl⟩, hp⟩
  · rintro ⟨⟨e, hin, rfl, rfl⟩, hp⟩
    exact ⟨e, List.mem_filter.mpr ⟨hin, hp⟩, rfl, rfl⟩

theorem Slice.filter {netId : UInt16} {w before : Window} {cells : List WorldGridEntry}
    (h : Slice netId before cells) :
    Slice netId w (cells.filter fun e => w.covers e.sectorX.toNat e.sectorY.toNat) :=
  ⟨fun e he => h.netIds e (List.mem_filter.mp he).1,
    h.nodup.sublist (List.filter_sublist.map _), fun _ he => (List.mem_filter.mp he).2⟩

/-- The table once the cells outside a window are given up. -/
def released (netId : UInt16) (w : Window) (g : WorldGrid) : Nat → UInt16 :=
  ((g.ownedCells netId).filter fun e => !w.covers e.sectorX.toNat e.sectorY.toNat).foldl
    (disown netId) g.accel

/-- The slice at that moment. -/
def keptCells (netId : UInt16) (w : Window) (g : WorldGrid) : List WorldGridEntry :=
  (g.ownedCells netId).filter fun e => w.covers e.sectorX.toNat e.sectorY.toNat

theorem released_apply (netId : UInt16) (w : Window) (g : WorldGrid) (x y : UInt8) :
    released netId w g (idx x.toNat y.toNat)
      = if g.accel (idx x.toNat y.toNat) = netId
          ∧ Listed (g.ownedCells netId) x y ∧ w.covers x.toNat y.toNat = false then UNOWNED
        else g.accel (idx x.toNat y.toNat) := by
  have hlisted : Listed ((g.ownedCells netId).filter
      fun e => !w.covers e.sectorX.toNat e.sectorY.toNat) x y
        ↔ Listed (g.ownedCells netId) x y ∧ w.covers x.toNat y.toNat = false := by
    rw [listed_filter (p := fun x y => !w.covers x y), Bool.not_eq_true']
  unfold released
  rw [foldl_disown]
  simp only [hlisted]

theorem claiming_released {netId : UInt16} {w before : Window} {g : WorldGrid}
    (hid : netId ≠ UNOWNED) (h : Agrees g) (hslice : Slice netId before (g.ownedCells netId)) :
    Claiming netId w (released netId w g, keptCells netId w g) := by
  refine ⟨hslice.filter, fun x y => ?_⟩
  dsimp only
  have hown := h netId hid x y
  rw [released_apply, keptCells, listed_filter (p := w.covers)]
  by_cases hmine : g.accel (idx x.toNat y.toNat) = netId
  · have hlisted := hown.mp hmine
    cases hcover : w.covers x.toNat y.toNat with
    | true =>
        rw [if_neg fun hc => by cases hc.2.2]
        exact ⟨fun _ => ⟨hlisted, rfl⟩, fun _ => hmine⟩
    | false =>
        rw [if_pos ⟨hmine, hlisted, rfl⟩]
        exact iff_of_false (Ne.symm hid) fun hc => by cases hc.2
  · rw [if_neg fun hc => hmine hc.1]
    exact iff_of_false hmine fun hc => hmine (hown.mpr hc.1)

/-- A cell of another client stays with it. -/
theorem released_other {netId other : UInt16} {w : Window} {g : WorldGrid} (hne : other ≠ netId)
    (hid : other ≠ UNOWNED) (x y : UInt8) : released netId w g (idx x.toNat y.toNat) = other
      ↔ g.accel (idx x.toNat y.toNat) = other := by
  rw [released_apply]
  split
  · rename_i hmine
    rw [hmine.1]
    exact iff_of_false (Ne.symm hid) (Ne.symm hne)
  · rfl

theorem Grows.other {netId other : UInt16} {before after : Nat → UInt16}
    (h : Grows netId before after) (hne : other ≠ netId) (hid : other ≠ UNOWNED) (i : Nat) :
    after i = other ↔ before i = other := by
  rcases h i with heq | ⟨hfree, hmine⟩
  · rw [heq]
  · rw [hfree, hmine]
    exact iff_of_false (Ne.symm hne) (Ne.symm hid)

theorem updateWindow_spec {netId : UInt16} {w before : Window} {g : WorldGrid}
    (hid : netId ≠ UNOWNED) (hfits : Fits w) (h : Agrees g)
    (hslice : Slice netId before (g.ownedCells netId)) :
    Updated netId w g (g.updateWindow netId w).2 := by
  obtain ⟨hclaims, hgrows, hall⟩ := claimColumns_spec hid hfits w.columns _ (fun x hx => hx)
    (claiming_released hid h hslice)
  have hupdate : (g.updateWindow netId w).2
      = ⟨(claimAll netId w (released netId w g, keptCells netId w g)).1,
        g.slices.insert netId (claimAll netId w (released netId w g, keptCells netId w g)).2⟩ := rfl
  rw [hupdate]
  have hself : ∀ accel cells, WorldGrid.ownedCells netId ⟨accel, g.slices.insert netId cells⟩
      = cells := by
    intro accel cells
    unfold ownedCells
    rw [AList.lookup_insert]
    rfl
  have hothers : ∀ accel cells other, other ≠ netId →
      WorldGrid.ownedCells other ⟨accel, g.slices.insert netId cells⟩ = g.ownedCells other := by
    intro accel cells other hne
    unfold ownedCells
    rw [AList.lookup_insert_ne hne]
  refine ⟨fun other hother x y => ?_, ?_, hothers _ _, fun x y hcover => ?_⟩
  · by_cases hsame : other = netId
    · subst hsame
      rw [hself]
      exact hclaims.owned x y
    · rw [hothers _ _ _ hsame]
      exact (hgrows.other hsame hother _).trans
        ((released_other hsame hother x y).trans (h other hother x y))
  · rw [hself]
    exact hclaims.slice
  · obtain ⟨hx, hy⟩ := covers_iff.mp hcover
    exact hall x hx y hy

/-- What an update never does: take a cell from another client. -/
theorem updateWindow_other {netId other : UInt16} {w before : Window} {g : WorldGrid}
    (hid : netId ≠ UNOWNED) (hfits : Fits w) (h : Agrees g)
    (hslice : Slice netId before (g.ownedCells netId)) (hne : other ≠ netId)
    (hother : other ≠ UNOWNED) (x y : UInt8) :
    (g.updateWindow netId w).2.accel (idx x.toNat y.toNat) = other
      ↔ g.accel (idx x.toNat y.toNat) = other := by
  have hupdated := updateWindow_spec hid hfits h hslice
  rw [hupdated.agrees other hother, hupdated.others other hne, h other hother]

/-- A client that leaves gives up its cells. -/
theorem removeClient_accel {netId : UInt16} {g : WorldGrid} (hid : netId ≠ UNOWNED)
    (h : Agrees g) (x y : UInt8) : (g.removeClient netId).accel (idx x.toNat y.toNat)
      = if g.accel (idx x.toNat y.toNat) = netId then UNOWNED
        else g.accel (idx x.toNat y.toNat) := by
  have hown := h netId hid x y
  unfold ownedCells at hown
  unfold removeClient
  cases hslice : g.slices.lookup netId with
  | none =>
      rw [hslice] at hown
      rw [if_neg fun hmine => List.not_mem_nil (hown.mp hmine)]
  | some cells =>
      rw [hslice, Option.getD_some] at hown
      dsimp only
      rw [foldl_disown]
      by_cases hmine : g.accel (idx x.toNat y.toNat) = netId
      · rw [if_pos ⟨hmine, hown.mp hmine⟩, if_pos hmine]
      · rw [if_neg fun hc => hmine hc.1, if_neg hmine]

theorem removeClient_cells (netId other : UInt16) (g : WorldGrid) :
    (g.removeClient netId).ownedCells other = if other = netId then [] else g.ownedCells other := by
  unfold removeClient
  cases hslice : g.slices.lookup netId with
  | none =>
      dsimp only
      split
      · rename_i hsame
        rw [hsame, ownedCells, hslice]
        rfl
      · rfl
  | some cells =>
      unfold ownedCells
      dsimp only
      rw [Map.lookup_erase_of]
      split
      · rfl
      · rfl

theorem Agrees.removeClient {netId : UInt16} {g : WorldGrid} (hid : netId ≠ UNOWNED)
    (h : Agrees g) : Agrees (g.removeClient netId) := by
  intro other hother x y
  rw [removeClient_accel hid h, removeClient_cells]
  by_cases hsame : other = netId
  · subst hsame
    rw [if_pos rfl]
    refine iff_of_false ?_ List.not_mem_nil
    split
    · exact Ne.symm hid
    · rename_i hne
      exact hne
  · rw [if_neg hsame, ← h other hother x y]
    split
    · rename_i hmine
      rw [hmine]
      exact iff_of_false (Ne.symm hother) (Ne.symm hsame)
    · rfl

/-! ### Windows over exact coordinates -/

theorem toNat_saturateU32 {n : Int} (h : 0 ≤ n) :
    (saturateU32 n).toNat = min n.toNat 4294967295 := by
  unfold saturateU32
  rw [if_neg (by omega)]
  split
  · rw [Nat.min_eq_right (by omega)]
    rfl
  · rw [UInt32.toNat_ofNat_of_lt' (by unfold UInt32.size; omega), Nat.min_eq_left (by omega)]

theorem sectorIndex_eq (coord : ℝ) :
    sectorIndex coord = min ⌊max (coord + 8192) 0 / 150⌋.toNat 255 := by
  have hoffset : (WORLD_OFFSET : ℝ) = 8192 := by
    show (8192.0 : ℝ) = 8192
    norm_num
  have hcell : (WORLD_GRID_CELL : ℝ) = 150 := by
    show (150.0 : ℝ) = 150
    norm_num
  have hzero : (0.0 : ℝ) = 0 := by norm_num
  have hpos : 0 ≤ ⌊max (coord + 8192) 0 / 150⌋ := by positivity
  have hindex : sectorIndex coord
      = min (saturateU32 ⌊max (coord + WORLD_OFFSET) 0.0 / WORLD_GRID_CELL⌋).toNat 255 := rfl
  rw [hindex, hoffset, hcell, hzero, toNat_saturateU32 hpos]
  omega

/-- A window reaches over five sectors at most. -/
theorem claimRange_small (coord : ℝ) :
    (claimRange coord).2 < WORLD_GRID_DIM ∧ (claimRange coord).2 ≤ (claimRange coord).1 + 4 := by
  have hradius : (WORLD_GRID_CLAIM_RADIUS : ℝ) = 299 := by
    show (299.0 : ℝ) = 299
    norm_num
  have hnear : max (coord + 299 + 8192) 0 / 150 ≤ max (coord - 299 + 8192) 0 / 150 + 4 := by
    have hleft := le_max_left (coord - 299 + 8192) 0
    have hright := le_max_right (coord - 299 + 8192) 0
    have hmax : max (coord + 299 + 8192) 0 ≤ max (coord - 299 + 8192) 0 + 600 :=
      max_le (by linarith) (by linarith)
    linarith
  have hfloor := Int.floor_le_floor hnear
  rw [show (4 : ℝ) = ((4 : ℤ) : ℝ) by norm_num, Int.floor_add_intCast] at hfloor
  unfold claimRange
  dsimp only
  rw [hradius, sectorIndex_eq, sectorIndex_eq]
  unfold WORLD_GRID_DIM
  constructor
  · omega
  · omega

theorem fits_around (focusX focusY : ℝ) : Fits (.around focusX focusY) := by
  obtain ⟨hx, hwideX⟩ := claimRange_small focusX
  obtain ⟨hy, hwideY⟩ := claimRange_small focusY
  refine ⟨hx, hy, ?_⟩
  have hcolumns : (Window.around focusX focusY).columns.length ≤ 5 := by
    unfold Window.columns Window.upTo Window.around
    rw [List.length_range']
    dsimp only
    omega
  have hrows : (Window.around focusX focusY).rows.length ≤ 5 := by
    unfold Window.rows Window.upTo Window.around
    rw [List.length_range']
    dsimp only
    omega
  calc (Window.around focusX focusY).columns.length * (Window.around focusX focusY).rows.length
      ≤ 5 * 5 := Nat.mul_le_mul hcolumns hrows
    _ < WORLD_GRID_ENTRIES := by decide

/-! ### Runs -/

/-- A net id of a client. -/
abbrev ClientId := { netId : UInt16 // netId ≠ UNOWNED }

inductive GridOp
  | focus (client : ClientId) (x y : ℝ)
  | remove (client : ClientId)

/-- The grid, and the last focus of every client. -/
structure Watched where
  grid : WorldGrid
  focus : UInt16 → Option (ℝ × ℝ)

noncomputable def Watched.apply (s : Watched) : GridOp → Watched
  | .focus client x y => ⟨(s.grid.updateFocus client.1 x y).2,
      Function.update s.focus client.1 (some (x, y))⟩
  | .remove client => ⟨s.grid.removeClient client.1, s.focus⟩

/-- The grid after a run. -/
noncomputable def watch (ops : List GridOp) : Watched :=
  ops.foldl Watched.apply ⟨new, fun _ => none⟩

/-- The two tables say the same, and every slice is a client's within its window. -/
structure Coherent (s : Watched) : Prop where
  agrees : Agrees s.grid
  nobody : s.grid.ownedCells UNOWNED = []
  slices : ∀ netId, s.grid.ownedCells netId = [] ∨ ∃ x y, s.focus netId = some (x, y)
    ∧ Slice netId (.around x y) (s.grid.ownedCells netId)

theorem Coherent.slice {s : Watched} (h : Coherent s) (netId : UInt16) :
    ∃ w, Fits w ∧ Slice netId w (s.grid.ownedCells netId) := by
  rcases h.slices netId with hnone | ⟨x, y, -, hslice⟩
  · refine ⟨.around 0 0, fits_around 0 0, ?_⟩
    rw [hnone]
    exact ⟨fun e he => absurd he List.not_mem_nil, List.nodup_nil,
      fun e he => absurd he List.not_mem_nil⟩
  · exact ⟨_, fits_around x y, hslice⟩

theorem coherent_new : Coherent ⟨new, fun _ => none⟩ :=
  ⟨fun _ hid _ _ => iff_of_false (Ne.symm hid) List.not_mem_nil, rfl, fun _ => .inl rfl⟩

theorem Coherent.apply {s : Watched} (h : Coherent s) (op : GridOp) : Coherent (s.apply op) := by
  cases op with
  | focus client x y =>
      obtain ⟨w, -, hslice⟩ := h.slice client.1
      have hupdated := updateWindow_spec client.2 (fits_around x y) h.agrees hslice
      refine ⟨hupdated.agrees, ?_, fun netId => ?_⟩
      · exact (hupdated.others UNOWNED (Ne.symm client.2)).trans h.nobody
      · by_cases hsame : netId = client.1
        · subst hsame
          exact .inr ⟨x, y, Function.update_self _ _ _, hupdated.slice⟩
        · have hothers := hupdated.others netId hsame
          have hfocus : (s.apply (.focus client x y)).focus netId = s.focus netId :=
            Function.update_of_ne hsame _ _
          have hcells : (s.apply (.focus client x y)).grid.ownedCells netId
              = s.grid.ownedCells netId := hothers
          rw [hcells, hfocus]
          exact h.slices netId
  | remove client =>
      have hcells : ∀ netId, (s.apply (.remove client)).grid.ownedCells netId
          = if netId = client.1 then [] else s.grid.ownedCells netId :=
        fun netId => removeClient_cells client.1 netId s.grid
      refine ⟨h.agrees.removeClient client.2, ?_, fun netId => ?_⟩
      · rw [hcells, if_neg (Ne.symm client.2)]
        exact h.nobody
      · rw [hcells]
        split
        · exact .inl rfl
        · exact h.slices netId

theorem coherent_watch (ops : List GridOp) : Coherent (watch ops) :=
  List.foldlRecOn ops Watched.apply coherent_new fun _ h op _ => h.apply op

/-! ### Ownership -/

theorem ownerOf_eq_some {g : WorldGrid} {netId : UInt16} (hid : netId ≠ UNOWNED) (x y : Nat) :
    g.ownerOf x y = some netId ↔ g.accel (idx x y) = netId := by
  unfold ownerOf
  split
  · rename_i hfree
    rw [hfree]
    exact iff_of_false (fun h => by cases h) (Ne.symm hid)
  · exact Option.some_inj

theorem ownerOf_eq_none {g : WorldGrid} (x y : Nat) :
    g.ownerOf x y = none ↔ g.accel (idx x y) = UNOWNED := by
  unfold ownerOf
  split
  · rename_i hfree
    exact iff_of_true rfl hfree
  · rename_i howned
    exact iff_of_false (fun h => by cases h) howned

theorem Slice.entry_eq {netId : UInt16} {w : Window} {cells : List WorldGridEntry}
    (h : Slice netId w cells) {e e' : WorldGridEntry} (he : e ∈ cells) (he' : e' ∈ cells)
    (hx : e.sectorX = e'.sectorX) (hy : e.sectorY = e'.sectorY) : e = e' := by
  obtain ⟨x, y, n⟩ := e
  obtain ⟨x', y', n'⟩ := e'
  obtain rfl := h.netIds _ he
  obtain rfl := h.netIds _ he'
  dsimp only at hx hy
  rw [hx, hy]

/-- **Ownership of the world grid.**  After any run a cell has an owner exactly when it is in that
client's slice, and in no other slice and no second time; a slice has at most 32 cells, all of them
in the window around the client's last focus.  An update leaves the cells of the others alone and
leaves no cell of the window without an owner, and a client that leaves frees its own cells. -/
theorem world_grid_owned (ops : List GridOp) :
    (∀ netId, netId ≠ UNOWNED → ∀ x y : UInt8,
      (watch ops).grid.ownerOf x.toNat y.toNat = some netId
        ↔ ∃ e ∈ (watch ops).grid.ownedCells netId, e.sectorX = x ∧ e.sectorY = y)
    ∧ (∀ netId netId' e e', e ∈ (watch ops).grid.ownedCells netId →
      e' ∈ (watch ops).grid.ownedCells netId' → e.sectorX = e'.sectorX →
        e.sectorY = e'.sectorY → netId = netId' ∧ e = e')
    ∧ (∀ netId, ((watch ops).grid.ownedCells netId).Nodup
      ∧ ((watch ops).grid.ownedCells netId).length ≤ WORLD_GRID_ENTRIES
      ∧ ∀ e ∈ (watch ops).grid.ownedCells netId, ∃ x y,
        (watch ops).focus netId = some (x, y)
          ∧ (Window.around x y).covers e.sectorX.toNat e.sectorY.toNat = true)
    ∧ (∀ (client : ClientId) (focusX focusY : ℝ),
      (∀ other, other ≠ client.1 → ∀ x y : UInt8,
        (watch ops).grid.ownerOf x.toNat y.toNat = some other →
          ((watch ops).grid.updateFocus client.1 focusX focusY).2.ownerOf x.toNat y.toNat
            = some other)
      ∧ ∀ x y, (Window.around focusX focusY).covers x y = true →
        ((watch ops).grid.updateFocus client.1 focusX focusY).2.ownerOf x y ≠ none)
    ∧ ∀ (client : ClientId) (x y : UInt8),
      ((watch ops).grid.removeClient client.1).ownerOf x.toNat y.toNat
        = if (watch ops).grid.ownerOf x.toNat y.toNat = some client.1 then none
          else (watch ops).grid.ownerOf x.toNat y.toNat := by
  have h := coherent_watch ops
  refine ⟨fun netId hid x y => ?_, fun netId netId' e e' he he' hx hy => ?_, fun netId => ?_,
    fun client focusX focusY => ⟨fun other hne x y howner => ?_, fun x y hcover => ?_⟩,
    fun client x y => ?_⟩
  · rw [ownerOf_eq_some hid, ← listed_iff]
    exact h.agrees netId hid x y
  · have hclient : ∀ netId e, e ∈ (watch ops).grid.ownedCells netId → netId ≠ UNOWNED := by
      intro netId e he heq
      rw [heq, h.nobody] at he
      exact List.not_mem_nil he
    have howner := (h.agrees netId (hclient netId e he) e.sectorX e.sectorY).mpr
      (listed_iff.mpr ⟨e, he, rfl, rfl⟩)
    have howner' := (h.agrees netId' (hclient netId' e' he') e.sectorX e.sectorY).mpr
      (listed_iff.mpr ⟨e', he', hx.symm, hy.symm⟩)
    obtain rfl := howner.symm.trans howner'
    obtain ⟨w, -, hslice⟩ := h.slice netId
    exact ⟨rfl, hslice.entry_eq he he' hx hy⟩
  · obtain ⟨w, hfits, hslice⟩ := h.slice netId
    refine ⟨hslice.nodup.of_map _, (hslice.room hfits).le, fun e he => ?_⟩
    rcases h.slices netId with hnone | ⟨x, y, hfocus, hwindow⟩
    · rw [hnone] at he
      exact absurd he List.not_mem_nil
    · exact ⟨x, y, hfocus, hwindow.inside e he⟩
  · have hother : other ≠ UNOWNED := by
      intro heq
      unfold ownerOf at howner
      split at howner
      · cases howner
      · rename_i howned
        exact howned ((Option.some.inj howner).trans heq)
    obtain ⟨w, -, hslice⟩ := h.slice client.1
    rw [ownerOf_eq_some hother] at howner ⊢
    exact (updateWindow_other client.2 (fits_around focusX focusY) h.agrees hslice hne hother
      x y).mpr howner
  · obtain ⟨w, -, hslice⟩ := h.slice client.1
    have hupdated := updateWindow_spec client.2 (fits_around focusX focusY) h.agrees hslice
    exact fun hnone => hupdated.covered x y hcover ((ownerOf_eq_none x y).mp hnone)
  · have howner := ownerOf_eq_some (g := (watch ops).grid) client.2 x.toNat y.toNat
    have haccel := removeClient_accel client.2 h.agrees x y
    by_cases hmine : (watch ops).grid.accel (idx x.toNat y.toNat) = client.1
    · rw [if_pos hmine] at haccel
      rw [if_pos (howner.mpr hmine)]
      exact (ownerOf_eq_none _ _).mpr haccel
    · rw [if_neg hmine] at haccel
      rw [if_neg fun hc => hmine (howner.mp hc)]
      unfold ownerOf
      rw [haccel]

end Baston.Rage.WorldGrid
