/-
Readers written out.

A reader is a Lean function on buffers, of which one can only ask what it returns.  Here it is
written out as a program, a tree of single reads: what a program reads can be bounded, fed with
given values, and run read by read.
-/
import Baston.Proofs.Blobs

namespace Baston.Rage

open MessageBuffer

/-- A reader as the reads it makes, each with what is done next. -/
inductive Prog (α : Type)
  | done (a : α)
  | bits (n : Nat) (next : Option UInt32 → Prog α)
  | bit (next : Bool → Prog α)
  | bytes (size length : Nat) (next : Option (List UInt8) → Prog α)

/-- The most that a field of nominally `n` bits takes. -/
def widest (n : Nat) : Nat := if n = 13 then 16 else n

theorem fieldWidth_le (lengthHack : Bool) (n : Nat) : fieldWidth lengthHack n ≤ widest n := by
  unfold fieldWidth widest
  by_cases hn : n = 13
  · rw [if_pos hn]
    split <;> omega
  · rw [if_neg (by simp [hn]), if_neg hn]

theorem effectiveLen_le_widest (buf : MessageBuffer) (n : Nat) : buf.effectiveLen n ≤ widest n :=
  fieldWidth_le buf.lengthHack n

/-- What a field of a checked width takes fits a word. -/
theorem widest_fits {n : Nat} (hn : ¬ (n = 0 ∨ n > 32)) : widest n ≤ 32 := by
  unfold widest
  split <;> omega

namespace Prog

variable {α β : Type}

/-- What the program makes of a buffer. -/
def run : Prog α → StateM MessageBuffer α
  | .done a => fun buf => (a, buf)
  | .bits n next => fun buf => (next (buf.readBitsSingle n).1).run (buf.readBitsSingle n).2
  | .bit next => fun buf => (next buf.readBit.1).run buf.readBit.2
  | .bytes size length next => fun buf =>
    (next (buf.readBits size length).1).run (buf.readBits size length).2

/-- One program, then another. -/
def bind : Prog α → (α → Prog β) → Prog β
  | .done a, k => k a
  | .bits n next, k => .bits n fun v => (next v).bind k
  | .bit next, k => .bit fun b => (next b).bind k
  | .bytes size length next, k => .bytes size length fun bs => (next bs).bind k

/-- On every path the program keeps the limits of the primitives and reads at most `N` bits. -/
def Costs : Prog α → Nat → Prop
  | .done _, _ => True
  | .bits n next, N => n ≤ 32 ∧ widest n ≤ N ∧
    ∀ v : Option UInt32, (∀ x ∈ v, x.toNat < 2 ^ widest n) → (next v).Costs (N - widest n)
  | .bit next, N => 1 ≤ N ∧ ∀ b, (next b).Costs (N - 1)
  | .bytes size length next, N => length ≤ size * 8 ∧ size * 8 ≤ N ∧
    ∀ bs, (next bs).Costs (N - size * 8)

theorem run_bind (p : Prog α) (k : α → Prog β) :
    (p.bind k).run = p.run >>= fun a => (k a).run := by
  induction p with
  | done a => rfl
  | bits n next ih =>
      funext buf
      exact congrFun (ih (buf.readBitsSingle n).1) (buf.readBitsSingle n).2
  | bit next ih =>
      funext buf
      exact congrFun (ih buf.readBit.1) buf.readBit.2
  | bytes size length next ih =>
      funext buf
      exact congrFun (ih (buf.readBits size length).1) (buf.readBits size length).2

theorem Costs.mono {p : Prog α} : ∀ {N M : Nat}, p.Costs N → N ≤ M → p.Costs M := by
  induction p with
  | done a => exact fun _ _ => trivial
  | bits n next ih =>
      intro N M h hNM
      obtain ⟨hn, hle, hnext⟩ := h
      exact ⟨hn, by omega, fun v hv => ih v (hnext v hv) (by omega)⟩
  | bit next ih =>
      intro N M h hNM
      obtain ⟨hle, hnext⟩ := h
      exact ⟨by omega, fun b => ih b (hnext b) (by omega)⟩
  | bytes size length next ih =>
      intro N M h hNM
      obtain ⟨hsize, hle, hnext⟩ := h
      exact ⟨hsize, by omega, fun bs => ih bs (hnext bs) (by omega)⟩

theorem Costs.bind {p : Prog α} {k : α → Prog β} {N : Nat} (hk : ∀ a, (k a).Costs N) :
    ∀ {M : Nat}, p.Costs M → (p.bind k).Costs (M + N) := by
  induction p with
  | done a => exact fun _ => (hk a).mono (by omega)
  | bits n next ih =>
      intro M h
      obtain ⟨hn, hle, hnext⟩ := h
      exact ⟨hn, by omega, fun v hv => (ih v (hnext v hv)).mono (by omega)⟩
  | bit next ih =>
      intro M h
      obtain ⟨hle, hnext⟩ := h
      exact ⟨by omega, fun b => (ih b (hnext b)).mono (by omega)⟩
  | bytes size length next ih =>
      intro M h
      obtain ⟨hsize, hle, hnext⟩ := h
      exact ⟨hsize, by omega, fun bs => (ih bs (hnext bs)).mono (by omega)⟩

/-! ### Feeding values -/

/-- The program given a value for each of its reads, all used up: the fields it takes them for,
and its result. -/
def feed : Prog α → List UInt32 → Option (List (Nat × UInt32) × α)
  | .done a, [] => some ([], a)
  | .bits n next, v :: vs => ((next (some v)).feed vs).map fun r => ((n, v) :: r.1, r.2)
  | .bit next, v :: vs => ((next (v != 0)).feed vs).map fun r => ((1, v) :: r.1, r.2)
  | _, _ => none

/-- Every field fits its width. -/
def Fits (lengthHack : Bool) (fields : List (Nat × UInt32)) : Prop :=
  ∀ f ∈ fields, f.2.toNat < 2 ^ fieldWidth lengthHack f.1

theorem fieldsBits_cons (lengthHack : Bool) (n : Nat) (v : UInt32) (rest : List (Nat × UInt32)) :
    fieldsBits lengthHack ((n, v) :: rest)
      = Bits.msb (fieldWidth lengthHack n) v.toNat ++ fieldsBits lengthHack rest := rfl

/-- The fields that are fed take no more bits than the program may read. -/
theorem length_feed {lengthHack : Bool} {p : Prog α} : ∀ {N : Nat} {values : List UInt32}
    {fields : List (Nat × UInt32)} {a : α}, p.Costs N → p.feed values = some (fields, a) →
      Fits lengthHack fields →
        (fieldsBits lengthHack fields).length ≤ N ∧ ∀ f ∈ fields, f.1 ≤ 32 := by
  induction p with
  | done a =>
      intro N values fields a' _ hfeed _
      rcases values with _ | ⟨v, vs⟩
      · obtain ⟨rfl, rfl⟩ := Prod.mk.inj (Option.some.inj hfeed)
        exact ⟨Nat.zero_le _, fun f hf => absurd hf (by simp)⟩
      · exact absurd hfeed (by simp [feed])
  | bits n next ih =>
      intro N values fields a hcosts hfeed hfits
      rcases values with _ | ⟨v, vs⟩
      · exact absurd hfeed (by simp [feed])
      · obtain ⟨⟨rest, b⟩, hrest, heq⟩ := Option.map_eq_some_iff.mp hfeed
        simp only [Prod.mk.injEq] at heq
        obtain ⟨rfl, rfl⟩ := heq
        obtain ⟨hn, hle, hnext⟩ := hcosts
        have hv : v.toNat < 2 ^ fieldWidth lengthHack n := hfits (n, v) List.mem_cons_self
        have hwide := fieldWidth_le lengthHack n
        obtain ⟨hlen, hall⟩ := ih (some v) (hnext (some v) (by
          intro x hx
          rw [← Option.some.inj hx]
          exact hv.trans_le (Nat.pow_le_pow_right (by decide) hwide))) hrest
          (fun f hf => hfits f (List.mem_cons_of_mem _ hf))
        refine ⟨?_, List.forall_mem_cons.mpr ⟨hn, hall⟩⟩
        rw [fieldsBits_cons, List.length_append, Bits.length_msb]
        omega
  | bit next ih =>
      intro N values fields a hcosts hfeed hfits
      rcases values with _ | ⟨v, vs⟩
      · exact absurd hfeed (by simp [feed])
      · obtain ⟨⟨rest, b⟩, hrest, heq⟩ := Option.map_eq_some_iff.mp hfeed
        simp only [Prod.mk.injEq] at heq
        obtain ⟨rfl, rfl⟩ := heq
        obtain ⟨hle, hnext⟩ := hcosts
        have hwide := fieldWidth_le lengthHack 1
        obtain ⟨hlen, hall⟩ := ih (v != 0) (hnext _) hrest
          (fun f hf => hfits f (List.mem_cons_of_mem _ hf))
        refine ⟨?_, List.forall_mem_cons.mpr ⟨by simp, hall⟩⟩
        rw [fieldsBits_cons, List.length_append, Bits.length_msb]
        have hone : widest 1 = 1 := rfl
        omega
  | bytes size length next ih =>
      intro N values fields a _ hfeed _
      exact absurd hfeed (by simp [feed])

end Prog

/-! ### Writing a reader out -/

/-- A reader written out as a program of at most `N` bits. -/
structure Program {α : Type} (m : StateM MessageBuffer α) (N : Nat) where
  prog : Prog α
  run_eq : prog.run = m
  costs : prog.Costs N

namespace Program

variable {α β : Type} {M N B : Nat}

def weaken {m : StateM MessageBuffer α} (h : Program m N) (hle : N ≤ M) : Program m M :=
  ⟨h.prog, h.run_eq, h.costs.mono hle⟩

/-- The same reader under another name. -/
def cast {m m' : StateM MessageBuffer α} (h : Program m N) (heq : m = m') : Program m' N :=
  ⟨h.prog, h.run_eq.trans heq, h.costs⟩

def pure (a : α) : Program (Pure.pure a) B := ⟨.done a, rfl, trivial⟩

/-- A reader, and what follows it within the bits that are left. -/
def bind {m : StateM MessageBuffer α} {k : α → StateM MessageBuffer β} (h : Program m M)
    (hle : M ≤ B) (f : ∀ a, Program (k a) (B - M)) : Program (m >>= k) B where
  prog := h.prog.bind fun a => (f a).prog
  run_eq := by
    rw [Prog.run_bind, h.run_eq]
    congr 1
    funext a
    exact (f a).run_eq
  costs := (Prog.Costs.bind (fun a => (f a).costs) h.costs).mono (by omega)

/-- What is already known costs nothing. -/
def sret {a : α} {k : α → StateM MessageBuffer β} (h : Program (k a) B) :
    Program (Pure.pure a >>= k) B :=
  h.cast (by rw [pure_bind])

def ite {c : Prop} [Decidable c] {m m' : StateM MessageBuffer α} (h : Program m B)
    (h' : Program m' B) : Program (if c then m else m') B where
  prog := if c then h.prog else h'.prog
  run_eq := by
    split
    · exact h.run_eq
    · exact h'.run_eq
  costs := by
    split
    · exact h.costs
    · exact h'.costs

def readBit : Program MessageBuffer.readBit 1 :=
  ⟨.bit .done, rfl, Nat.le_refl _, fun _ => trivial⟩

/-! ### Readers that may fail -/

def bits (n : Nat) (hn : n ≤ 32) : Program (BitM.bits n).run (widest n) :=
  ⟨.bits n .done, rfl, hn, Nat.le_refl _, fun _ _ => trivial⟩

def flag : Program (BitM.bits 1).run (widest 1) := bits 1 (by decide)

/-- The id of an object. -/
def ident : Program (BitM.bits 13).run (widest 13) := bits 13 (by decide)

def short : Program (BitM.bits 16).run (widest 16) := bits 16 (by decide)

def word : Program (BitM.bits 32).run (widest 32) := bits 32 (by decide)

def bit : Program BitM.bit.run 1 :=
  ⟨.bit fun b => .done (some b), rfl, Nat.le_refl _, fun _ => trivial⟩

def bytes (size length : Nat) (hlen : length ≤ size * 8) :
    Program (BitM.bytes size length).run (size * 8) :=
  ⟨.bytes size length .done, rfl, hlen, Nat.le_refl _, fun _ => trivial⟩

def opure (a : α) : Program (Pure.pure a : BitM α).run B := ⟨.done (some a), rfl, trivial⟩

def fail : Program (failure : BitM α).run B := ⟨.done none, rfl, trivial⟩

/-- A failure ends the program, a value goes on. -/
def orElse (f : α → Prog (Option β)) : Option α → Prog (Option β)
  | none => .done none
  | some a => f a

def obind {m : BitM α} {k : α → BitM β} (h : Program m.run M)
    (hle : M ≤ B) (f : ∀ a, Program (k a).run (B - M)) : Program (m >>= k).run B where
  prog := h.prog.bind (orElse fun a => (f a).prog)
  run_eq := by
    funext buf
    rw [Prog.run_bind, h.run_eq, BitM.run_bind]
    show ((orElse fun a => (f a).prog) (m.run buf).1).run (m.run buf).2 = _
    rcases m.run buf with ⟨_ | a, mid⟩
    · rfl
    · exact congrFun (f a).run_eq mid
  costs := by
    have hk : ∀ a, (orElse (fun a => (f a).prog) a).Costs (B - M) := by
      intro a
      rcases a with _ | a
      · exact trivial
      · exact (f a).costs
    exact (Prog.Costs.bind hk h.costs).mono (by omega)

/-- What is already known costs nothing. -/
def ret {a : α} {k : α → BitM β} (h : Program (k a).run B) : Program (Pure.pure a >>= k).run B :=
  h.cast (by rw [pure_bind])

/-- A field whose value bounds what follows: no other value comes out of its bits. -/
def bitsBind (n : Nat) (hn : n ≤ 32) {k : UInt32 → BitM β}
    (hle : widest n ≤ B)
    (f : ∀ v : UInt32, v.toNat < 2 ^ widest n → Program (k v).run (B - widest n)) :
    Program (BitM.bits n >>= k).run B where
  prog := .bits n (orElse fun v =>
    if hv : v.toNat < 2 ^ widest n then (f v hv).prog else .done none)
  run_eq := by
    funext buf
    rw [BitM.run_bind]
    have hread : (BitM.bits n).run buf = readBitsSingle n buf := rfl
    show ((orElse _) (readBitsSingle n buf).1).run (readBitsSingle n buf).2 = _
    rw [hread]
    rcases hv : readBitsSingle n buf with ⟨_ | v, mid⟩
    · rfl
    · have hlt : v.toNat < 2 ^ widest n :=
        (BitM.bits_lt hn hv).trans_le (Nat.pow_le_pow_right (by decide) (effectiveLen_le_widest buf n))
      simp only [orElse, dif_pos hlt]
      exact congrFun (f v hlt).run_eq mid
  costs := by
    refine ⟨hn, hle, ?_⟩
    intro v hv
    rcases v with _ | v
    · exact trivial
    · simp only [orElse, dif_pos (hv v rfl)]
      exact (f v (hv v rfl)).costs

def oite {c : Prop} [Decidable c] {m m' : BitM α} (h : Program m.run B) (h' : Program m'.run B) :
    Program (if c then m else m').run B where
  prog := if c then h.prog else h'.prog
  run_eq := by
    split
    · exact h.run_eq
    · exact h'.run_eq
  costs := by
    split
    · exact h.costs
    · exact h'.costs

def forEach {f : α → BitM β} (h : ∀ a, Program (f a).run N) :
    ∀ l : List α, Program (BitM.forEach f l).run (l.length * N)
  | [] => opure []
  | a :: rest => by
    refine obind (h a) ?_ fun b => obind ((forEach h rest).weaken ?_) (Nat.le_refl _) fun bs => opure _
    · rw [List.length_cons, Nat.succ_mul]
      omega
    · rw [List.length_cons, Nat.succ_mul]
      omega

def skip (n : Nat) {m : BitM α} (h : Program m.run N) : Program (BitM.skip n m).run (n * N) :=
  obind (forEach (fun _ => h) (List.range n)) (by rw [List.length_range]) fun _ => opure ()

def when (c : Bool) {m : BitM α} (h : Program m.run N) : Program (BitM.when c m).run N :=
  oite (obind h (Nat.le_refl _) fun _ => opure ()) (opure ())

def signed (n : Nat) (hn : ¬ (n = 0 ∨ n > 32)) :
    Program (BitM.signed n).run (1 + widest (n - 1)) :=
  (obind flag (Nat.le_add_right _ _) fun _ =>
    obind (bits (n - 1) (by omega)) (by simp [widest]) fun _ => opure _).cast (by
      unfold BitM.signed
      rw [if_neg hn])

variable {F : Type} [Scalar F]

def float (n : Nat) (divisor : F) (hn : ¬ (n = 0 ∨ n > 32)) :
    Program (BitM.float n divisor).run (widest n) :=
  (obind (bits n (by omega)) (Nat.le_refl _) fun _ => opure _).cast (by
    unfold BitM.float
    rw [if_neg hn])

def signedFloat (n : Nat) (divisor : F) (hn : ¬ (n = 0 ∨ n > 32)) :
    Program (BitM.signedFloat n divisor).run (1 + widest (n - 1)) :=
  obind (signed n hn) (Nat.le_refl _) fun _ => opure _

end Program

end Baston.Rage
