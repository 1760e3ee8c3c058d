/-
The slots of the game, one to each source.

The two tables of the allocator are each the inverse of the other: an assignment links a source
that has no slot to a slot that nobody has, and a release unlinks the two.
-/
import Baston.Lib.Inverse
import Baston.Rage.Session

namespace Baston.Rage.SlotAllocator

open Assoc

/-! ### The search for a slot -/

/-- A slot that may be handed out. -/
def Usable (slot : UInt8) : Prop := slot.toNat < GAME_PLAYER_CAP ∧ slot ≠ RESERVED_LOCAL_SLOT

theorem mem_candidates {slot : UInt8} : slot ∈ candidates ↔ slot.toNat < GAME_PLAYER_CAP := by
  unfold candidates
  rw [List.mem_map]
  constructor
  · rintro ⟨n, hn, rfl⟩
    rw [List.mem_range] at hn
    rw [UInt8.toNat_ofNat_of_lt' (hn.trans (by decide))]
    exact hn
  · intro h
    exact ⟨slot.toNat, List.mem_range.mpr h, UInt8.ofNat_toNat⟩

theorem candidates_sorted : candidates.Pairwise (· < ·) := by
  unfold candidates
  rw [List.pairwise_map]
  refine List.pairwise_lt_range.imp_of_mem fun {m n} hm hn hlt => ?_
  have hcap : GAME_PLAYER_CAP < UInt8.size := by decide
  rw [List.mem_range] at hm hn
  rw [UInt8.lt_iff_toNat_lt, UInt8.toNat_ofNat_of_lt' (hm.trans hcap),
    UInt8.toNat_ofNat_of_lt' (hn.trans hcap)]
  exact hlt

theorem firstFree_eq_some {s : SlotAllocator} {slot : UInt8} : s.firstFree = some slot
    ↔ Usable slot ∧ slot ∉ s.slots ∧ ∀ lower, lower < slot → Usable lower → lower ∈ s.slots := by
  unfold firstFree
  rw [List.find?_eq_some_iff_append]
  constructor
  · rintro ⟨hfree, before, behind, hsplit, hbefore⟩
    rw [decide_eq_true_iff] at hfree
    have hin : slot ∈ candidates := by
      rw [hsplit]
      exact List.mem_append_right _ List.mem_cons_self
    refine ⟨⟨mem_candidates.mp hin, hfree.1⟩, hfree.2, fun lower hlt hlower => ?_⟩
    have hmem := mem_candidates.mpr hlower.1
    have hsorted := candidates_sorted
    rw [hsplit] at hmem hsorted
    obtain ⟨-, hbehind, -⟩ := List.pairwise_append.mp hsorted
    rcases List.mem_append.mp hmem with hlow | hhigh
    · have htaken := hbefore lower hlow
      simp only [Bool.not_eq_true', decide_eq_false_iff_not, not_and, not_not] at htaken
      exact htaken hlower.2
    · rcases List.mem_cons.mp hhigh with rfl | hlater
      · exact absurd hlt (UInt8.lt_irrefl _)
      · exact absurd hlt (UInt8.lt_asymm ((List.pairwise_cons.mp hbehind).1 lower hlater))
  · rintro ⟨hslot, hfree, hlowest⟩
    obtain ⟨before, behind, hsplit⟩ := List.append_of_mem (mem_candidates.mpr hslot.1)
    refine ⟨by rw [decide_eq_true_iff]; exact ⟨hslot.2, hfree⟩, before, behind, hsplit, ?_⟩
    intro lower hlow
    simp only [Bool.not_eq_true', decide_eq_false_iff_not, not_and, not_not]
    intro hne
    have hsorted := candidates_sorted
    rw [hsplit] at hsorted
    have hlt := (List.pairwise_append.mp hsorted).2.2 lower hlow slot List.mem_cons_self
    have hin : lower ∈ candidates := by
      rw [hsplit]
      exact List.mem_append_left _ hlow
    exact hlowest lower hlt ⟨mem_candidates.mp hin, hne⟩

/-- Sources and slots belong together one to one. -/
structure Paired (s : SlotAllocator) : Prop where
  inverse : Inverse s.byNet s.slots
  usable : ∀ slot, slot ∈ s.slots → Usable slot

theorem Paired.assign {s : SlotAllocator} (h : Paired s) (netId : UInt32) :
    Paired (assign netId s).2 := by
  unfold SlotAllocator.assign
  cases hnet : s.byNet.lookup netId with
  | some existing => exact h
  | none =>
      cases hfree : s.firstFree with
      | none => exact h
      | some slot =>
          obtain ⟨hslot, hvacant, -⟩ := firstFree_eq_some.mp hfree
          refine ⟨h.inverse.link hnet (AList.lookup_eq_none.mpr hvacant), fun slot' hin => ?_⟩
          rcases (AList.mem_insert _).mp hin with rfl | hin
          · exact hslot
          · exact h.usable slot' hin

theorem Paired.release {s : SlotAllocator} (h : Paired s) (netId : UInt32) :
    Paired (release netId s).2 := by
  unfold SlotAllocator.release
  cases hnet : s.byNet.lookup netId with
  | none => exact h
  | some slot =>
      exact ⟨h.inverse.unlink hnet, fun slot' hin => h.usable slot' (AList.mem_erase.mp hin).2⟩

inductive SlotOp
  | assign (netId : UInt32)
  | release (netId : UInt32)

def apply (s : SlotAllocator) : SlotOp → SlotAllocator
  | .assign netId => (s.assign netId).2
  | .release netId => (s.release netId).2

/-- The allocator after a run. -/
def run (ops : List SlotOp) : SlotAllocator := ops.foldl apply new

end Baston.Rage.SlotAllocator
