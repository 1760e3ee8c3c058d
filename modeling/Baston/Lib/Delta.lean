/-
Copies that are kept up to date by deltas.

A source state takes deltas, and only the last one is kept for the copies of it.  A copy
that has seen everything before the last delta can still catch up, and one that was not
sent an earlier delta can only do so when the last one covers it.
-/
import Mathlib.Logic.Basic

namespace Delta

variable {X D : Type} {absorb : X → D → X}

/-- After `d'` it does not show whether `d` came before. -/
def Covers (absorb : X → D → X) (d d' : D) : Prop :=
  ∀ x, absorb (absorb x d) d' = absorb x d'

/-- A copy of `x` that lacks at most the last delta `d`, and not even that one when it is
taken for `current`. -/
structure Follows (absorb : X → D → X) (current : Prop) (copy x : X) (d : D) : Prop where
  behind : absorb copy d = x
  upToDate : current → copy = x

namespace Follows

variable {current current' : Prop} {copy x : X} {d d' : D}

/-- A fresh copy of a source that the last delta does not change any more. -/
theorem fresh (settled : absorb x d = x) : Follows absorb current x x d :=
  ⟨settled, fun _ => rfl⟩

theorem weaken (h : Follows absorb current copy x d) (himp : current' → current) :
    Follows absorb current' copy x d :=
  ⟨h.behind, fun hc => h.upToDate (himp hc)⟩

/-- Sending the last delta brings a copy up to date. -/
theorem sent (idem : Covers absorb d d) (h : Follows absorb current copy x d) :
    Follows absorb current' (absorb copy d) x d := by
  have hx : absorb x d = x := by
    rw [← h.behind]
    exact idem copy
  rw [h.behind]
  exact .fresh hx

/-- **A new delta loses nothing** for a copy that is up to date, or that lacked only what the
new delta covers. -/
theorem update (h : Follows absorb current copy x d) (hlast : current ∨ Covers absorb d d')
    (hnow : current' → copy = absorb x d') : Follows absorb current' copy (absorb x d') d' := by
  refine ⟨?_, hnow⟩
  rcases hlast with hcurrent | hcovers
  · rw [h.upToDate hcurrent]
  · rw [← h.behind, hcovers copy]

end Follows

end Delta
