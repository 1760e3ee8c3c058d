/-
Orders that respect a dependency.

A list respects a relation if whatever an element depends on stands before it.  Such a list is
possible for a finite set that depends on nothing else exactly when no element depends on itself
over however many steps.
-/
import Mathlib.Data.Fintype.Card
import Mathlib.Data.Set.Finite.Basic
import Mathlib.Logic.Relation
import Mathlib.Order.WellFounded
import Baston.Lib.Trace

namespace Precedence

variable {K : Type} {R : K → K → Prop}

/-- Nothing depends on itself. -/
def Acyclic (R : K → K → Prop) : Prop := ∀ x, ¬ Relation.TransGen R x x

/-- What an element depends on stands before it. -/
def Respects (R : K → K → Prop) (l : List K) : Prop :=
  ∀ before x after, l = before ++ x :: after → ∀ d, R x d → d ∈ before

theorem respects_nil : Respects R [] := fun before x after h => by simp at h

/-- The next element has all it depends on before it. -/
theorem Respects.snoc {l : List K} (h : Respects R l) {x : K} (hx : ∀ d, R x d → d ∈ l) :
    Respects R (l ++ [x]) := by
  intro before y after hsplit
  rcases Trace.cut_concat hsplit with ⟨-, rfl, rfl⟩ | ⟨front, -, hfront⟩
  · exact hx
  · exact h before y front hfront

/-- Whatever an element depends on over some steps stands before it. -/
theorem Respects.transGen {l before after : List K} {x y : K} (h : Respects R l)
    (hsplit : l = before ++ x :: after) (hxy : Relation.TransGen R x y) : y ∈ before := by
  induction hxy with
  | single hstep => exact h before x after hsplit _ hstep
  | tail _ hstep ih =>
      obtain ⟨front, back, rfl⟩ := List.append_of_mem ih
      rw [List.append_assoc, List.cons_append] at hsplit
      exact List.mem_append_left _ (h front _ _ hsplit _ hstep)

theorem Respects.acyclic {l : List K} (h : Respects R l) (hnodup : l.Nodup)
    (hall : ∀ x d, R x d → x ∈ l) : Acyclic R := by
  intro x hcycle
  have hin : x ∈ l := by
    obtain ⟨d, hstep, -⟩ := Relation.TransGen.head'_iff.mp hcycle
    exact hall x d hstep
  obtain ⟨before, after, rfl⟩ := List.append_of_mem hin
  have hbefore := h.transGen rfl hcycle
  exact (List.nodup_append'.mp hnodup).2.2 hbefore List.mem_cons_self

/-- **A finite set that leads on and on leads back.** -/
theorem not_acyclic_of_closed {l : List K} {P : K → Prop} (hfinite : ∀ x, P x → x ∈ l)
    (hstep : ∀ x, P x → ∃ d, R x d ∧ P d) (hsome : ∃ x, P x) : ¬ Acyclic R := by
  intro hacyclic
  let S := { x : K // x ∈ l }
  have : Finite S := List.finite_toSet l
  let below : S → S → Prop := fun d x => Relation.TransGen R x.1 d.1
  have : IsTrans S below := ⟨fun _ _ _ hab hbc => hbc.trans hab⟩
  have : Std.Irrefl below := ⟨fun x h => hacyclic x.1 h⟩
  have hwf : WellFounded below := Finite.wellFounded_of_trans_of_irrefl below
  obtain ⟨x, hx⟩ := hsome
  obtain ⟨least, hleast, hmin⟩ := hwf.has_min { y : S | P y.1 } ⟨⟨x, hfinite x hx⟩, hx⟩
  obtain ⟨d, hd, hPd⟩ := hstep least.1 hleast
  exact hmin ⟨d, hfinite d hPd⟩ hPd (.single hd)

end Precedence
