/-
Runs of a system that takes one operation after another.

A system is a function `step` from an operation and a state to the next state and an
answer, or to `none` when it breaks.  A run is kept as its history, newest entry
first, because what a property says about a state is usually about what happened
before it.
-/
import Mathlib.Data.List.Basic

namespace Trace

variable {σ ι ο : Type}

/-- One step of a history. -/
structure Entry (σ ι ο : Type) where
  pre : σ
  op : ι
  answer : ο
  post : σ

/-- `Run step init past s`: from `init` the operations of `past`, oldest last, lead to `s`. -/
inductive Run (step : ι → σ → Option (σ × ο)) (init : σ) : List (Entry σ ι ο) → σ → Prop
  | nil : Run step init [] init
  | snoc {past : List (Entry σ ι ο)} {s s' : σ} {op : ι} {a : ο} :
      Run step init past s → step op s = some (s', a) →
        Run step init (⟨s, op, a, s'⟩ :: past) s'

/-- A condition on every entry of a history, in the light of what came before it. -/
def Along (P : List (Entry σ ι ο) → Entry σ ι ο → Prop) : List (Entry σ ι ο) → Prop
  | [] => True
  | e :: past => P past e ∧ Along P past

instance Along.decidable {P : List (Entry σ ι ο) → Entry σ ι ο → Prop}
    [∀ past e, Decidable (P past e)] : ∀ past, Decidable (Along P past)
  | [] => isTrue trivial
  | e :: past =>
    have := Along.decidable (P := P) past
    inferInstanceAs (Decidable (P past e ∧ Along P past))

/-- The operations of `ops` in turn; `none` as soon as one breaks. -/
def exec (step : ι → σ → Option (σ × ο)) : List ι → σ → Option σ
  | [], s => some s
  | op :: rest, s => (step op s).bind fun r => exec step rest r.1

/-- The history of `ops` from `s`, on top of `past`, with the state it ends in. -/
def history (step : ι → σ → Option (σ × ο)) :
    List (Entry σ ι ο) → List ι → σ → Option (List (Entry σ ι ο) × σ)
  | past, [], s => some (past, s)
  | past, op :: rest, s =>
    (step op s).bind fun r => history step (⟨s, op, r.2, r.1⟩ :: past) rest r.1

variable {step : ι → σ → Option (σ × ο)} {init : σ}

/-- **The invariant rule.**  What holds at the start and is kept by every step that meets
its condition holds after every run whose steps all met theirs. -/
theorem Run.invariant {I : List (Entry σ ι ο) → σ → Prop}
    {P : List (Entry σ ι ο) → Entry σ ι ο → Prop} (h0 : I [] init)
    (hstep : ∀ {past s op a s'}, Run step init past s → I past s →
      step op s = some (s', a) → P past ⟨s, op, a, s'⟩ → I (⟨s, op, a, s'⟩ :: past) s') :
    ∀ {past s}, Run step init past s → Along P past → I past s := by
  intro past s run
  induction run with
  | nil =>
      intro _
      exact h0
  | snoc run h ih =>
      intro along
      exact hstep run (ih along.2) h along.1

/-- A run can be cut at any point of its history. -/
theorem Run.split : ∀ {later past : List (Entry σ ι ο)} {s : σ},
    Run step init (later ++ past) s → ∃ mid, Run step init past mid ∧ Run step mid later s := by
  intro later
  induction later with
  | nil =>
      intro past s run
      exact ⟨s, run, .nil⟩
  | cons e later ih =>
      intro past s run
      cases run with
      | snoc run h =>
          obtain ⟨mid, hpast, hlater⟩ := ih run
          exact ⟨mid, hpast, hlater.snoc h⟩

/-- What holds along a history holds at each of its entries. -/
theorem along_append {P : List (Entry σ ι ο) → Entry σ ι ο → Prop} :
    ∀ {later past : List (Entry σ ι ο)} {e : Entry σ ι ο}, Along P (later ++ e :: past) →
      P past e := by
  intro later
  induction later with
  | nil =>
      intro past e h
      exact h.1
  | cons a later ih =>
      intro past e h
      exact ih h.2

/-- What holds along a history holds along what came before any point of it. -/
theorem along_suffix {P : List (Entry σ ι ο) → Entry σ ι ο → Prop} :
    ∀ {later before : List (Entry σ ι ο)}, Along P (later ++ before) → Along P before := by
  intro later
  induction later with
  | nil =>
      intro before h
      exact h
  | cons e later ih =>
      intro before h
      exact ih h.2

/-- A history around its entry number `n`. -/
theorem cut_at {tr : List (Entry σ ι ο)} {n : Nat} {x : Entry σ ι ο} (h : tr[n]? = some x) :
    tr = tr.take n ++ x :: tr.drop (n + 1) := by
  obtain ⟨hn, rfl⟩ := List.getElem?_eq_some_iff.mp h
  rw [List.getElem_cons_drop, List.take_append_drop]

/-- A cut of a list with one more element is before that element, or a cut of the list. -/
theorem cut_concat {α : Type} {l before after : List α} {x y : α}
    (h : l ++ [x] = before ++ y :: after) :
    (after = [] ∧ before = l ∧ y = x) ∨ ∃ rest, after = rest ++ [x] ∧ l = before ++ y :: rest := by
  rcases List.eq_nil_or_concat after with rfl | ⟨rest, last, rfl⟩
  · obtain ⟨hbefore, hlast⟩ := List.append_inj' h rfl
    exact .inl ⟨rfl, hbefore.symm, (List.singleton_inj.mp hlast).symm⟩
  · rw [List.concat_eq_append, ← List.cons_append, ← List.append_assoc] at h
    obtain ⟨hl, hlast⟩ := List.append_inj' h rfl
    obtain rfl := List.singleton_inj.mp hlast
    exact .inr ⟨rest, List.concat_eq_append, hl⟩

/-- A condition that does not look back is a condition on each entry. -/
theorem along_of_forall {P : Entry σ ι ο → Prop} : ∀ {past : List (Entry σ ι ο)},
    (∀ e ∈ past, P e) → Along (fun _ e => P e) past := by
  intro past
  induction past with
  | nil =>
      intro _
      trivial
  | cons e past ih =>
      intro h
      exact ⟨h e List.mem_cons_self, ih fun x hx => h x (List.mem_cons_of_mem _ hx)⟩

/-- The rule for a property of the state alone, kept by every step. -/
theorem Run.safe {I : σ → Prop} (h0 : I init)
    (hstep : ∀ {s op a s'}, I s → step op s = some (s', a) → I s') :
    ∀ {past s}, Run step init past s → I s := by
  intro past s run
  induction run with
  | nil => exact h0
  | snoc _ h ih => exact hstep ih h

/-- **The delivery rule.**  When every step that is fine (`K`) either sends (`S`) what is due
(`D`), or has no room for it (`R`) and leaves it due, a run with room somewhere sends it. -/
theorem Run.delivers {D : σ → Prop} {K S R : Entry σ ι ο → Prop}
    (hstep : ∀ {s op a s'}, D s → step op s = some (s', a) → K ⟨s, op, a, s'⟩ →
      S ⟨s, op, a, s'⟩ ∨ (¬ R ⟨s, op, a, s'⟩ ∧ D s')) :
    ∀ {tr s}, Run step init tr s → D init → (∀ y ∈ tr, K y) → (∃ y ∈ tr, R y) →
      ∃ z ∈ tr, S z := by
  intro tr s run hdue hfine hroom
  have inv := run.invariant (I := fun tr s => (∃ z ∈ tr, S z) ∨ ((∀ y ∈ tr, ¬ R y) ∧ D s))
    (P := fun _ y => K y) (.inr ⟨by simp, hdue⟩)
    (by
      rintro tr s op a s' - (⟨z, hz, hsent⟩ | ⟨hnone, hdue⟩) h hP
      · exact .inl ⟨z, List.mem_cons_of_mem _ hz, hsent⟩
      · rcases hstep hdue h hP with hsent | ⟨hno, hdue'⟩
        · exact .inl ⟨_, List.mem_cons_self, hsent⟩
        · exact .inr ⟨List.forall_mem_cons.mpr ⟨hno, hnone⟩, hdue'⟩)
    (along_of_forall hfine)
  rcases inv with hsent | ⟨hnone, -⟩
  · exact hsent
  · obtain ⟨y, hy, hy'⟩ := hroom
    exact absurd hy' (hnone y hy)

/-- A system that cannot break from a state with the invariant runs to the end. -/
theorem exec_total {I : σ → Prop}
    (hstep : ∀ {s} op, I s → ∃ r, step op s = some r ∧ I r.1) :
    ∀ (ops : List ι) {s : σ}, I s → ∃ s', exec step ops s = some s' ∧ I s' := by
  intro ops
  induction ops with
  | nil =>
      intro s hs
      exact ⟨s, rfl, hs⟩
  | cons op rest ih =>
      intro s hs
      obtain ⟨r, hr, hI⟩ := hstep op hs
      obtain ⟨s', hs', hI'⟩ := ih hI
      exact ⟨s', by simp only [exec, hr, Option.bind_some, hs'], hI'⟩

/-- What `history` computes is a run. -/
theorem run_of_history : ∀ (ops : List ι) {past past' : List (Entry σ ι ο)} {s s' : σ},
    Run step init past s → history step past ops s = some (past', s') →
      Run step init past' s' := by
  intro ops
  induction ops with
  | nil =>
      intro past past' s s' run h
      obtain ⟨rfl, rfl⟩ := Prod.mk.inj (Option.some.inj h)
      exact run
  | cons op rest ih =>
      intro past past' s s' run h
      simp only [history] at h
      obtain ⟨⟨t, a⟩, hr, h⟩ := Option.bind_eq_some_iff.mp h
      exact ih (run.snoc hr) h

/-- The run a list of operations computes to. -/
theorem run_of_ops (step : ι → σ → Option (σ × ο)) (init : σ) (ops : List ι)
    {past : List (Entry σ ι ο)} {s : σ} (h : history step [] ops init = some (past, s)) :
    Run step init past s :=
  run_of_history ops .nil h

/-- A run found by computing it. -/
theorem exists_run (step : ι → σ → Option (σ × ο)) (init : σ) (ops : List ι)
    (check : List (Entry σ ι ο) → σ → Bool)
    (h : ((history step [] ops init).any fun r => check r.1 r.2) = true) :
    ∃ past s, Run step init past s ∧ check past s = true := by
  obtain ⟨⟨past, s⟩, hr, hc⟩ := (Option.any_eq_true _ _).mp h
  exact ⟨past, s, run_of_history ops .nil hr, hc⟩

/-- **The exact rule.**  When a run whose steps all met a condition makes something true, and
nothing else does at its last step, it is true at every point of a run exactly if every step met
the condition. -/
theorem Run.always_iff_along {I : List (Entry σ ι ο) → σ → Prop}
    {P : List (Entry σ ι ο) → Entry σ ι ο → Prop}
    (hsound : ∀ {past s}, Run step init past s → Along P past → I past s)
    (hexact : ∀ {past s op a s'}, Run step init past s → Along P past →
      step op s = some (s', a) → I (⟨s, op, a, s'⟩ :: past) s' → P past ⟨s, op, a, s'⟩) :
    ∀ {past s}, Run step init past s →
      ((∀ later before s', past = later ++ before → Run step init before s' → I before s')
        ↔ Along P past) := by
  intro past s run
  constructor
  · induction run with
    | nil => exact fun _ => trivial
    | snoc run h ih =>
        intro hall
        have hbefore := ih fun later before s' hcut run' =>
          hall (_ :: later) before s' (by rw [hcut]; rfl) run'
        exact ⟨hexact run hbefore h (hall [] _ _ rfl (run.snoc h)), hbefore⟩
  · intro along later before s' hcut run'
    exact hsound run' (along_suffix (hcut ▸ along))

/-- The exact rule, step by step: a step keeps what holds exactly if it meets its condition. -/
theorem Run.always_iff {I : List (Entry σ ι ο) → σ → Prop}
    {P : List (Entry σ ι ο) → Entry σ ι ο → Prop} (h0 : I [] init)
    (hstep : ∀ {past s op a s'}, Run step init past s → Along P past → I past s →
      step op s = some (s', a) → (I (⟨s, op, a, s'⟩ :: past) s' ↔ P past ⟨s, op, a, s'⟩)) :
    ∀ {past s}, Run step init past s →
      ((∀ later before s', past = later ++ before → Run step init before s' → I before s')
        ↔ Along P past) := by
  have hsound : ∀ {past s}, Run step init past s → Along P past → I past s := by
    intro past s run
    induction run with
    | nil => exact fun _ => h0
    | snoc run h ih =>
        intro along
        exact (hstep run along.2 (ih along.2) h).mpr along.1
  intro past s run
  refine Run.always_iff_along hsound ?_ run
  intro past s op a s' run along h hnow
  exact (hstep run along (hsound run along) h).mp hnow

/-! ### Loops that may break -/

variable {α : Type}

/-- What every turn of a loop keeps, the loop keeps. -/
theorem foldlM_keeps {f : σ → α → Option σ} {I : σ → Prop} : ∀ {l : List α} {s s' : σ},
    (∀ a ∈ l, ∀ {t t'}, I t → f t a = some t' → I t') → I s → l.foldlM f s = some s' → I s' := by
  intro l
  induction l with
  | nil =>
      intro s s' _ hs h
      rw [List.foldlM_nil] at h
      rw [← Option.some.inj h]
      exact hs
  | cons a rest ih =>
      intro s s' hturn hs h
      rw [List.foldlM_cons] at h
      obtain ⟨t, ht, h⟩ := Option.bind_eq_some_iff.mp h
      exact ih (fun b hb => hturn b (List.mem_cons_of_mem _ hb))
        (hturn a List.mem_cons_self hs ht) h

/-- A loop none of whose turns can break runs to its end. -/
theorem foldlM_total {f : σ → α → Option σ} {I : σ → Prop} : ∀ {l : List α} {s : σ},
    (∀ a ∈ l, ∀ {t}, I t → ∃ t', f t a = some t' ∧ I t') → I s →
      ∃ s', l.foldlM f s = some s' ∧ I s' := by
  intro l
  induction l with
  | nil =>
      intro s _ hs
      exact ⟨s, rfl, hs⟩
  | cons a rest ih =>
      intro s hturn hs
      obtain ⟨t, ht, hI⟩ := hturn a List.mem_cons_self hs
      obtain ⟨s', hs', hI'⟩ := ih (fun b hb => hturn b (List.mem_cons_of_mem _ hb)) hI
      exact ⟨s', by rw [List.foldlM_cons, ht]; exact hs', hI'⟩

end Trace
