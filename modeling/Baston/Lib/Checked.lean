/-
Computations on a machine that checks them.

Words are 64 bits wide, and an operation whose result does not fit, an index that is not there
and an assertion that does not hold are faults.  So is a loop that makes no progress: a loop is
given as many turns as it may take, and runs out of them at most by a fault.
-/
import Mathlib.Data.List.Basic
import Mathlib.Algebra.Group.Nat.Defs

/-- What ends a computation other than its result. -/
inductive Fault
  | overflow | bounds | assertion | stuck
  deriving DecidableEq

/-- A computation that ends in a fault or in its result. -/
abbrev Checked := Except Fault

namespace Checked

variable {α β : Type}

/-- The number of words. -/
def words : Nat := 2 ^ 64

/-- `a + b`. -/
def add (a b : Nat) : Checked Nat := if a + b < words then .ok (a + b) else .error .overflow

/-- `a - b`. -/
def sub (a b : Nat) : Checked Nat := if b ≤ a then .ok (a - b) else .error .overflow

/-- `a * b`. -/
def mul (a b : Nat) : Checked Nat := if a * b < words then .ok (a * b) else .error .overflow

/-- `xs[i]`. -/
def index (xs : List α) (i : Nat) : Checked α :=
  match xs[i]? with
  | some x => .ok x
  | none => .error .bounds

/-- `&xs[start..stop]`. -/
def slice (xs : List α) (start stop : Nat) : Checked (List α) :=
  if start ≤ stop ∧ stop ≤ xs.length then .ok ((xs.drop start).take (stop - start))
  else .error .bounds

/-- `xs.get(start..stop)`, which answers instead of failing. -/
def get (xs : List α) (start stop : Nat) : Option (List α) :=
  if start ≤ stop ∧ stop ≤ xs.length then some ((xs.drop start).take (stop - start)) else none

/-- `assert!(c)`. -/
def ensure (c : Prop) [Decidable c] : Checked Unit :=
  if c then .ok () else .error .assertion

/-- A turn of a loop has to get further. -/
def advance (before after : Nat) : Checked Unit :=
  if before < after then .ok () else .error .stuck

theorem add_eq {a b : Nat} (h : a + b < words) : add a b = .ok (a + b) := if_pos h

theorem sub_eq {a b : Nat} (h : b ≤ a) : sub a b = .ok (a - b) := if_pos h

theorem mul_eq {a b : Nat} (h : a * b < words) : mul a b = .ok (a * b) := if_pos h

theorem index_eq {xs : List α} {i : Nat} (h : i < xs.length) (d : α) :
    index xs i = .ok (xs.getD i d) := by
  unfold index
  rw [List.getD_eq_getElem?_getD, List.getElem?_eq_getElem h, Option.getD_some]

theorem slice_eq {xs : List α} {start stop : Nat} (h : start ≤ stop) (hstop : stop ≤ xs.length) :
    slice xs start stop = .ok ((xs.drop start).take (stop - start)) := if_pos ⟨h, hstop⟩

/-- A part of a list by its place. -/
theorem get_append (front part more : List α) :
    get (front ++ (part ++ more)) front.length (front.length + part.length) = some part := by
  unfold get
  rw [if_pos (by simp), List.drop_left, Nat.add_sub_cancel_left, List.take_left]

theorem ensure_eq {c : Prop} [Decidable c] (h : c) : ensure c = .ok () := if_pos h

theorem advance_eq {before after : Nat} (h : before < after) : advance before after = .ok () :=
  if_pos h

/-- A result is handed on. -/
@[simp] theorem ok_bind (a : α) (f : α → Checked β) : (Except.ok a : Checked α) >>= f = f a := rfl

/-- A fold whose every step is fine, is fine. -/
theorem foldlM_eq {f : β → α → Checked β} {g : β → α → β} : ∀ {l : List α} {P : β → Prop} {b : β},
    (∀ b a, a ∈ l → P b → f b a = .ok (g b a) ∧ P (g b a)) → P b →
      l.foldlM f b = .ok (l.foldl g b) := by
  intro l
  induction l with
  | nil =>
      intro P b _ _
      rfl
  | cons a rest ih =>
      intro P b hstep hb
      obtain ⟨hfirst, hb'⟩ := hstep b a List.mem_cons_self hb
      rw [List.foldlM_cons, hfirst, ok_bind, List.foldl_cons]
      exact ih (fun b x hx => hstep b x (List.mem_cons_of_mem a hx)) hb'

end Checked
