/-
The start order of resources.

A resource becomes ready when the last of its dependencies is taken, and what becomes ready in one
turn is sorted.  So the order does not depend on how a hash map is visited: it is that of a
schedule which looks at nothing but the dependencies.
-/
import Baston.Lib.Precedence
import Baston.Zone.Topo

namespace Baston.Zone.Topo

open Assoc Precedence

variable {K : Type} [LinearOrder K]

/-! ### Sorting -/

theorem mem_sortUnstable {names : List K} {x : K} : x ∈ sortUnstable names ↔ x ∈ names :=
  List.mem_insertionSort _

theorem nodup_sortUnstable {names : List K} : (sortUnstable names).Nodup ↔ names.Nodup :=
  (List.perm_insertionSort _ names).nodup_iff

/-- Sorting forgets the order. -/
theorem sortUnstable_congr {names names' : List K} (h : names.Nodup) (h' : names'.Nodup)
    (hmem : ∀ x, x ∈ names ↔ x ∈ names') : sortUnstable names = sortUnstable names' := by
  have hperm : names.Perm names' := (List.perm_ext_iff_of_nodup h h').mpr hmem
  unfold sortUnstable
  refine List.Perm.eq_of_pairwise (fun a b _ _ hab hba => le_antisymm hab hba)
    (List.pairwise_insertionSort _ _) (List.pairwise_insertionSort _ _) ?_
  exact (List.perm_insertionSort _ _).trans (hperm.trans (List.perm_insertionSort _ _).symm)

/-! ### The tables -/

/-- What a resource depends on. -/
def depsOf (resources : Map K (List K)) (name : K) : List K := (resources.lookup name).getD []

def DependsOn (resources : Map K (List K)) (name dep : K) : Prop := dep ∈ depsOf resources name

theorem dependsOn_mem {resources : Map K (List K)} {name dep : K}
    (h : DependsOn resources name dep) : name ∈ resources.keys := by
  unfold DependsOn depsOf at h
  cases hname : resources.lookup name with
  | none =>
      rw [hname] at h
      exact absurd h List.not_mem_nil
  | some deps => exact AList.lookup_isSome.mp (by rw [hname]; rfl)

theorem depsOf_visited (resourceOrder : IterOrder K) (resources : Map K (List K)) (x : K) :
    (∃ deps, (x, deps) ∈ resources.visit resourceOrder ∧ depsOf resources x = deps
        ∧ resources.lookup x = some deps)
      ∨ x ∉ (resources.visit resourceOrder).map Prod.fst ∧ depsOf resources x = []
        ∧ resources.lookup x = none := by
  unfold depsOf
  cases hname : resources.lookup x with
  | some deps => exact .inl ⟨deps, Map.mem_visit.mpr hname, rfl, rfl⟩
  | none =>
      refine .inr ⟨fun hin => ?_, rfl, rfl⟩
      obtain ⟨⟨y, deps⟩, hvisit, rfl⟩ := List.mem_map.mp hin
      have hsome := Map.mem_visit.mp hvisit
      rw [hname] at hsome
      cases hsome

/-- Who waits for a name, among the resources that are visited. -/
def waiting (visited : List (K × List K)) (name : K) : List K :=
  ((visited.flatMap fun r => r.2.map fun dep => (dep, r.1)).filter fun e => e.1 = name).map
    Prod.snd

theorem waiting_cons (r : K × List K) (rest : List (K × List K)) (name x : K) :
    (waiting (r :: rest) name).count x
      = (if r.1 = x then r.2.count name else 0) + (waiting rest name).count x := by
  have hhead : ∀ deps : List K, (((deps.map fun dep => (dep, r.1)).filter fun e => e.1 = name).map
      Prod.snd).count x = if r.1 = x then deps.count name else 0 := by
    intro deps
    induction deps with
    | nil => simp
    | cons dep deps ih =>
        by_cases hdep : dep = name
        · by_cases hx : r.1 = x
          · simp only [hx, if_true] at ih
            simp [hdep, hx, ih]
          · simp only [hx, if_false] at ih
            simp [hdep, hx, ih]
        · simp [hdep, ih]
  unfold waiting
  rw [List.flatMap_cons, List.filter_append, List.map_append, List.count_append, hhead]

theorem count_waiting (name x : K) : ∀ {visited : List (K × List K)},
    (visited.map Prod.fst).Nodup →
      (∀ deps, (x, deps) ∈ visited → (waiting visited name).count x = deps.count name)
        ∧ (x ∉ visited.map Prod.fst → (waiting visited name).count x = 0) := by
  intro visited
  induction visited with
  | nil => exact fun _ => ⟨fun deps h => absurd h List.not_mem_nil, fun _ => rfl⟩
  | cons r rest ih =>
      intro hnodup
      rw [List.map_cons, List.nodup_cons] at hnodup
      obtain ⟨hfresh, hrest⟩ := hnodup
      obtain ⟨hin, hout⟩ := ih hrest
      refine ⟨fun deps h => ?_, fun h => ?_⟩
      · rw [waiting_cons]
        rcases List.mem_cons.mp h with rfl | h
        · rw [if_pos rfl, hout hfresh, Nat.add_zero]
        · have hne : r.1 ≠ x := fun heq => hfresh (heq ▸ List.mem_map_of_mem h)
          rw [if_neg hne, hin deps h, Nat.zero_add]
      · rw [List.map_cons, List.mem_cons, not_or] at h
        rw [waiting_cons, if_neg (Ne.symm h.1), hout h.2]

/-- Who waits for a name: every resource as often as it names it. -/
theorem count_dependentsOf (resourceOrder : IterOrder K) (resources : Map K (List K))
    (name x : K) :
    (((dependentsOf (resources.visit resourceOrder)).lookup name).getD []).count x
      = (depsOf resources x).count name := by
  unfold dependentsOf
  rw [Map.lookup_group, AList.lookup_empty, Option.getD_none, List.nil_append]
  obtain ⟨hin, hout⟩ := count_waiting name x
    (Map.nodup_visit resourceOrder resources)
  rcases depsOf_visited resourceOrder resources x with
    ⟨deps, hvisit, hdeps, -⟩ | ⟨hnot, hdeps, -⟩
  · rw [hdeps]
    exact hin deps hvisit
  · rw [hdeps]
    exact hout hnot

/-- One resource is counted. -/
theorem lookup_countDeps {name x : K} : ∀ (deps : List K) (m : Map K Nat) (v : Nat),
    m.lookup name = some v →
      (deps.foldl (fun m _ => m.insert name ((m.lookup name).getD 0 + 1)) m).lookup x
        = if x = name then some (v + deps.length) else m.lookup x := by
  intro deps
  induction deps with
  | nil =>
      intro m v hv
      by_cases hx : x = name
      · rw [List.foldl_nil, if_pos hx, hx, hv]
        rfl
      · rw [List.foldl_nil, if_neg hx]
  | cons dep deps ih =>
      intro m v hv
      rw [List.foldl_cons, ih _ (v + 1) (by rw [AList.lookup_insert, hv]; rfl),
        Map.lookup_insert_of, List.length_cons]
      by_cases hx : x = name
      · rw [if_pos hx, if_pos hx, Nat.add_assoc, Nat.add_comm 1]
      · rw [if_neg hx, if_neg hx, if_neg hx]

theorem lookup_countAll {x : K} : ∀ {visited : List (K × List K)} (m : Map K Nat),
    (visited.map Prod.fst).Nodup →
      (∀ deps, (x, deps) ∈ visited → m.lookup x = none → (visited.foldl (fun m r =>
        r.2.foldl (fun m _ => m.insert r.1 ((m.lookup r.1).getD 0 + 1)) (m.entryOrInsert r.1 0))
          m).lookup x = some deps.length)
      ∧ (x ∉ visited.map Prod.fst → (visited.foldl (fun m r =>
        r.2.foldl (fun m _ => m.insert r.1 ((m.lookup r.1).getD 0 + 1)) (m.entryOrInsert r.1 0))
          m).lookup x = m.lookup x) := by
  intro visited
  induction visited with
  | nil => exact fun m _ => ⟨fun deps h => absurd h List.not_mem_nil, fun _ => rfl⟩
  | cons r rest ih =>
      intro m hnodup
      rw [List.map_cons, List.nodup_cons] at hnodup
      obtain ⟨hfresh, hrest⟩ := hnodup
      obtain ⟨hin, hout⟩ := ih (r.2.foldl (fun m _ => m.insert r.1 ((m.lookup r.1).getD 0 + 1))
        (m.entryOrInsert r.1 0)) hrest
      have hcount := lookup_countDeps (x := x) r.2 (m.entryOrInsert r.1 0)
        ((m.lookup r.1).getD 0) (by rw [Map.lookup_entryOrInsert, if_pos rfl])
      rw [Map.lookup_entryOrInsert] at hcount
      rw [List.foldl_cons]
      refine ⟨fun deps h hnone => ?_, fun h => ?_⟩
      · rcases List.mem_cons.mp h with rfl | h
        · rw [hout hfresh, hcount, if_pos rfl, hnone, Option.getD_none, Nat.zero_add]
        · have hne : x ≠ r.1 := fun heq => hfresh (heq ▸ List.mem_map_of_mem h)
          rw [if_neg hne, if_neg hne, hnone] at hcount
          exact hin deps h hcount
      · rw [List.map_cons, List.mem_cons, not_or] at h
        rw [hout h.2, hcount, if_neg h.1, if_neg h.1]

/-- Every resource waits for all it names. -/
theorem lookup_inDegrees (resourceOrder : IterOrder K) (resources : Map K (List K)) (x : K) :
    (inDegrees (resources.visit resourceOrder)).lookup x
      = (resources.lookup x).map List.length := by
  obtain ⟨hin, hout⟩ := lookup_countAll (x := x) ∅ (Map.nodup_visit resourceOrder resources)
  unfold inDegrees
  rcases depsOf_visited resourceOrder resources x with
    ⟨deps, hvisit, -, hlookup⟩ | ⟨hnot, -, hlookup⟩
  · rw [hin deps hvisit (AList.lookup_empty x), hlookup]
    rfl
  · rw [hout hnot, hlookup, AList.lookup_empty]
    rfl

/-! ### One turn -/

/-- Dependents that wait often enough are released. -/
theorem release_spec : ∀ {dependents : List K} {inDegree : Map K Nat},
    (∀ x ∈ dependents, ∃ deg, inDegree.lookup x = some deg ∧ dependents.count x ≤ deg) →
      ∃ inDegree' fresh, release inDegree dependents = some (inDegree', fresh)
        ∧ (∀ x, inDegree'.lookup x = (inDegree.lookup x).map fun deg => deg - dependents.count x)
        ∧ fresh.Nodup
        ∧ ∀ x, x ∈ fresh ↔ x ∈ dependents ∧ inDegree.lookup x = some (dependents.count x) := by
  intro dependents
  induction dependents with
  | nil => exact fun _ => ⟨_, [], rfl, fun x => by simp, List.nodup_nil, fun x => by simp⟩
  | cons y rest ih =>
      intro inDegree h
      obtain ⟨deg, hdeg, hle⟩ := h y List.mem_cons_self
      rw [List.count_cons_self] at hle
      obtain ⟨left, rfl⟩ : ∃ left, deg = left + 1 := ⟨deg - 1, by omega⟩
      have hrest : ∀ x ∈ rest, ∃ deg, (inDegree.insert y left).lookup x = some deg
          ∧ rest.count x ≤ deg := by
        intro x hx
        rw [Map.lookup_insert_of]
        by_cases hxy : x = y
        · rw [if_pos hxy, hxy]
          exact ⟨left, rfl, by omega⟩
        · obtain ⟨deg, hdeg', hle'⟩ := h x (List.mem_cons_of_mem _ hx)
          rw [List.count_cons_of_ne (Ne.symm hxy)] at hle'
          rw [if_neg hxy]
          exact ⟨deg, hdeg', hle'⟩
      obtain ⟨inDegree', fresh, hrelease, hlookup, hnodup, hmem⟩ := ih hrest
      refine ⟨inDegree', if left = 0 then y :: fresh else fresh, ?_, fun x => ?_, ?_, fun x => ?_⟩
      · rw [release, hdeg]
        dsimp only
        rw [hrelease]
        rfl
      · rw [hlookup, Map.lookup_insert_of]
        by_cases hxy : x = y
        · subst hxy
          rw [if_pos rfl, hdeg, List.count_cons_self]
          simp
        · rw [if_neg hxy, List.count_cons_of_ne (Ne.symm hxy)]
      · split
        · rename_i hzero
          refine List.nodup_cons.mpr ⟨fun hin => ?_, hnodup⟩
          have hrest := ((hmem y).mp hin).1
          have := List.count_pos_iff.mpr hrest
          omega
        · exact hnodup
      · have hfresh := hmem x
        rw [Map.lookup_insert_of] at hfresh
        by_cases hxy : x = y
        · subst hxy
          rw [if_pos rfl] at hfresh
          rw [hdeg, List.count_cons_self]
          by_cases hzero : left = 0
          · have hcount : rest.count x = 0 := by omega
            simp [hzero, hcount]
          · rw [if_neg hzero, hfresh]
            simp only [Option.some.injEq, List.mem_cons, true_or, true_and, Nat.add_right_cancel_iff,
              and_iff_right_iff_imp]
            intro hleft
            exact List.count_pos_iff.mp (by omega)
        · rw [if_neg hxy] at hfresh
          rw [List.count_cons_of_ne (Ne.symm hxy), List.mem_cons]
          split
          · rw [List.mem_cons, hfresh]
            simp [hxy]
          · rw [hfresh]
            simp [hxy]

/-- What holds after every turn. -/
structure Kahn (resources : Map K (List K)) (s : Sorting K) : Prop where
  degree : ∀ x, s.inDegree.lookup x
    = (resources.lookup x).map fun deps => deps.countP fun d => d ∉ s.ordered
  nodup : (s.ordered ++ s.ready).Nodup
  listed : ∀ x, x ∈ s.ordered ++ s.ready
    ↔ x ∈ resources.keys ∧ ∀ d ∈ depsOf resources x, d ∈ s.ordered
  respects : Respects (DependsOn resources) s.ordered

/-- What becomes ready when `name` is taken. -/
def freed (resources : Map K (List K)) (ordered : List K) (name : K) : List K :=
  resources.keys.filter fun x =>
    name ∈ depsOf resources x ∧ ∀ d ∈ depsOf resources x, d ∈ ordered ++ [name]

/-- A resource that is taken is one less to wait for. -/
theorem countP_taken {ordered : List K} {name : K} (hnew : name ∉ ordered) (deps : List K) :
    deps.countP (fun d => d ∉ ordered)
      = deps.countP (fun d => d ∉ ordered ++ [name]) + deps.count name := by
  induction deps with
  | nil => rfl
  | cons dep rest ih =>
      rw [List.countP_cons, List.countP_cons, List.count_cons, ih]
      by_cases hname : dep = name
      · subst hname
        simp [hnew]
        omega
      · by_cases hin : dep ∈ ordered
        · simp [hin, hname]
        · simp [hin, hname]
          omega

theorem depsOf_eq {resources : Map K (List K)} {x : K} {deps : List K}
    (h : resources.lookup x = some deps) : depsOf resources x = deps := by
  unfold depsOf
  rw [h]
  rfl

/-- **One turn** takes a name, and appends what it frees. -/
theorem turn_spec (resourceOrder : IterOrder K) {resources : Map K (List K)}
    {inDegree : Map K Nat} {name : K} {ready ordered : List K}
    (h : Kahn resources ⟨inDegree, name :: ready, ordered⟩) :
    ∃ s, turn (dependentsOf (resources.visit resourceOrder)) inDegree name ready ordered = some s
      ∧ s.ready = ready ++ sortUnstable (freed resources ordered name)
      ∧ s.ordered = ordered ++ [name] ∧ Kahn resources s := by
  have hcount := count_dependentsOf resourceOrder resources name
  obtain ⟨dependents, hdependents⟩ : ∃ dependents, dependents
      = ((dependentsOf (resources.visit resourceOrder)).lookup name).getD [] := ⟨_, rfl⟩
  rw [← hdependents] at hcount
  have hnew : name ∉ ordered := fun hin =>
    (List.nodup_append'.mp h.nodup).2.2 hin List.mem_cons_self
  have hdegree := h.degree
  dsimp only at hdegree
  have hmem : ∀ x, x ∈ dependents ↔ name ∈ depsOf resources x := by
    intro x
    rw [← List.count_pos_iff, hcount, List.count_pos_iff]
  have hsome : ∀ x, x ∈ dependents → ∃ deps, resources.lookup x = some deps := by
    intro x hx
    exact Option.isSome_iff_exists.mp (AList.lookup_isSome.mpr
      (dependsOn_mem (show DependsOn resources x name from (hmem x).mp hx)))
  have hwait : ∀ x ∈ dependents, ∃ deg, inDegree.lookup x = some deg
      ∧ dependents.count x ≤ deg := by
    intro x hx
    obtain ⟨deps, hdeps⟩ := hsome x hx
    refine ⟨deps.countP fun d => d ∉ ordered, by rw [hdegree, hdeps]; rfl, ?_⟩
    rw [hcount, depsOf_eq hdeps, countP_taken hnew]
    omega
  obtain ⟨inDegree', fresh, hrelease, hlookup, hnodup, hfresh⟩ := release_spec hwait
  have hfreed : sortUnstable fresh = sortUnstable (freed resources ordered name) := by
    refine sortUnstable_congr hnodup (resources.keys_nodup.filter _) fun x => ?_
    unfold freed
    rw [hfresh, hmem, List.mem_filter, decide_eq_true_iff]
    cases hdeps : resources.lookup x with
    | none =>
        have hnot : x ∉ resources.keys := fun hin => by
          have := AList.lookup_isSome.mpr (AList.mem_keys.mpr hin)
          rw [hdeps] at this
          cases this
        refine iff_of_false (fun hc => ?_) fun hc => hnot hc.1
        exact hnot (dependsOn_mem hc.1)
    | some deps =>
        have hin : x ∈ resources.keys :=
          AList.mem_keys.mp (AList.lookup_isSome.mp (by rw [hdeps]; rfl))
        rw [hdegree, hdeps, hcount, depsOf_eq hdeps, Option.map_some, Option.some_inj,
          countP_taken hnew]
        have hzero : deps.countP (fun d => d ∉ ordered ++ [name]) = 0
            ↔ ∀ d ∈ deps, d ∈ ordered ++ [name] := by
          rw [List.countP_eq_zero]
          simp only [decide_eq_true_iff, not_not]
        rw [← hzero]
        refine ⟨fun hc => ⟨hin, hc.1, by omega⟩, fun hc => ⟨hc.2.1, by omega⟩⟩
  refine ⟨⟨inDegree', ready ++ sortUnstable fresh, ordered ++ [name]⟩, ?_, by rw [hfreed], rfl, ?_⟩
  · unfold turn
    rw [← hdependents, hrelease]
    rfl
  · have hmemFreed : ∀ x, x ∈ freed resources ordered name ↔ x ∈ resources.keys
        ∧ name ∈ depsOf resources x ∧ ∀ d ∈ depsOf resources x, d ∈ ordered ++ [name] := by
      intro x
      unfold freed
      rw [List.mem_filter, decide_eq_true_iff]
    have hmove : ordered ++ [name] ++ (ready ++ sortUnstable fresh)
        = (ordered ++ name :: ready) ++ sortUnstable fresh := by simp
    have hbefore := h.listed name
    refine ⟨fun x => ?_, ?_, fun x => ?_, h.respects.snoc fun d hd => ?_⟩
    · rw [hlookup, hdegree, Option.map_map]
      cases hdeps : resources.lookup x with
      | none => rfl
      | some deps =>
          rw [Option.map_some, Option.map_some, Function.comp_apply, hcount, depsOf_eq hdeps,
            countP_taken hnew, Nat.add_sub_cancel]
    · dsimp only
      rw [hmove, hfreed, List.nodup_append']
      refine ⟨h.nodup, nodup_sortUnstable.mpr (resources.keys_nodup.filter _), ?_⟩
      intro x hx hx'
      have hwaits := ((hmemFreed x).mp (mem_sortUnstable.mp hx')).2.1
      exact hnew (((h.listed x).mp hx).2 name hwaits)
    · dsimp only
      rw [hmove, hfreed, List.mem_append, mem_sortUnstable, hmemFreed]
      have hlisted := h.listed x
      dsimp only at hlisted
      rw [hlisted]
      constructor
      · rintro (⟨hin, hall⟩ | ⟨hin, -, hall⟩)
        · exact ⟨hin, fun d hd => List.mem_append_left _ (hall d hd)⟩
        · exact ⟨hin, hall⟩
      · rintro ⟨hin, hall⟩
        by_cases hwaits : name ∈ depsOf resources x
        · exact .inr ⟨hin, hwaits, hall⟩
        · refine .inl ⟨hin, fun d hd => ?_⟩
          rcases List.mem_append.mp (hall d hd) with hd' | hd'
          · exact hd'
          · rw [List.mem_singleton.mp hd'] at hd
            exact absurd hd hwaits
    · exact (hbefore.mp (List.mem_append_right _ List.mem_cons_self)).2 d hd

/-! ### The loop -/

/-- The schedule, which looks at nothing but the dependencies. -/
def schedule (resources : Map K (List K)) : Nat → List K → List K → List K
  | 0, _, ordered => ordered
  | _ + 1, [], ordered => ordered
  | turns + 1, name :: ready, ordered =>
    schedule resources turns (ready ++ sortUnstable (freed resources ordered name))
      (ordered ++ [name])

theorem Kahn.length_le {resources : Map K (List K)} {s : Sorting K} (h : Kahn resources s) :
    s.ordered.length + s.ready.length ≤ resources.keys.length := by
  rw [← List.length_append]
  exact (List.subperm_of_subset h.nodup fun x hx => ((h.listed x).mp hx).1).length_le

/-- The loop ends, with nothing ready, where the schedule does. -/
theorem kahnLoop_spec (resourceOrder : IterOrder K) {resources : Map K (List K)} :
    ∀ (turns : Nat) {s : Sorting K}, Kahn resources s →
      resources.keys.length ≤ turns + s.ordered.length →
        ∃ s', kahnLoop (dependentsOf (resources.visit resourceOrder)) turns s = some s'
          ∧ Kahn resources s' ∧ s'.ready = []
          ∧ s'.ordered = schedule resources turns s.ready s.ordered := by
  intro turns
  induction turns with
  | zero =>
      intro s h hturns
      have hlength := h.length_le
      have hready : s.ready = [] := List.length_eq_zero_iff.mp (by omega)
      refine ⟨s, ?_, h, hready, rfl⟩
      rw [kahnLoop]
      exact hready
  | succ turns ih =>
      intro s h hturns
      obtain ⟨inDegree, ready, ordered⟩ := s
      cases ready with
      | nil => exact ⟨_, rfl, h, rfl, rfl⟩
      | cons name ready =>
          obtain ⟨s', hturn, hready, hordered, hnext⟩ := turn_spec resourceOrder h
          dsimp only at hturns
          obtain ⟨s'', hloop, hlast, hdone, hschedule⟩ := ih hnext (by
            rw [hordered, List.length_append, List.length_singleton]
            omega)
          refine ⟨s'', ?_, hlast, hdone, ?_⟩
          · have hstep : kahnLoop (dependentsOf (resources.visit resourceOrder)) (turns + 1)
                ⟨inDegree, name :: ready, ordered⟩
                  = (turn (dependentsOf (resources.visit resourceOrder)) inDegree name ready
                    ordered).bind (kahnLoop (dependentsOf (resources.visit resourceOrder)) turns) :=
              rfl
            rw [hstep, hturn]
            exact hloop
          · rw [hschedule, hready, hordered]
            rfl

/-! ### The start, and the end -/

/-- What is ready from the start. -/
def independent (resources : Map K (List K)) : List K :=
  resources.keys.filter fun x => depsOf resources x = []

theorem kahn_start (resourceOrder degreeOrder : IterOrder K) (resources : Map K (List K)) :
    sortUnstable (((inDegrees (resources.visit resourceOrder)).visit degreeOrder).filterMap
        fun e => if e.2 = 0 then some e.1 else none) = sortUnstable (independent resources)
      ∧ Kahn resources ⟨inDegrees (resources.visit resourceOrder),
        sortUnstable (independent resources), []⟩ := by
  have hdegree := lookup_inDegrees resourceOrder resources
  have hmem : ∀ x, x ∈ independent resources
      ↔ x ∈ resources.keys ∧ depsOf resources x = [] := by
    intro x
    unfold independent
    rw [List.mem_filter, decide_eq_true_iff]
  have hkey : ∀ x, x ∈ resources.keys ↔ ∃ deps, resources.lookup x = some deps := by
    intro x
    rw [← AList.mem_keys, ← AList.lookup_isSome, Option.isSome_iff_exists]
  constructor
  · refine sortUnstable_congr ?_ (resources.keys_nodup.filter _) fun x => ?_
    · have hsplit : ((inDegrees (resources.visit resourceOrder)).visit degreeOrder).filterMap
          (fun e => if e.2 = 0 then some e.1 else none)
            = (((inDegrees (resources.visit resourceOrder)).visit degreeOrder).filter
              fun e => e.2 = 0).map Prod.fst := by
        rw [← List.filterMap_eq_map, ← List.filterMap_eq_filter, List.filterMap_filterMap]
        congr 1
        funext e
        by_cases he : e.2 = 0
        · simp [he, Option.guard]
        · simp [he, Option.guard]
      rw [hsplit]
      exact (Map.nodup_visit degreeOrder _).sublist (List.filter_sublist.map _)
    · rw [hmem, hkey, List.mem_filterMap]
      constructor
      · rintro ⟨⟨y, deg⟩, hvisit, hzero⟩
        split at hzero
        · rename_i hdeg
          obtain rfl := Option.some.inj hzero
          have hlookup := Map.mem_visit.mp hvisit
          rw [hdegree] at hlookup
          obtain ⟨deps, hdeps, hlen⟩ := Option.map_eq_some_iff.mp hlookup
          refine ⟨⟨deps, hdeps⟩, ?_⟩
          rw [depsOf_eq hdeps]
          exact List.length_eq_zero_iff.mp (hlen.trans hdeg)
        · cases hzero
      · rintro ⟨⟨deps, hdeps⟩, hempty⟩
        rw [depsOf_eq hdeps] at hempty
        refine ⟨(x, 0), Map.mem_visit.mpr ?_, rfl⟩
        rw [hdegree, hdeps, hempty]
        rfl
  · refine ⟨fun x => ?_, ?_, fun x => ?_, respects_nil⟩
    · rw [hdegree]
      cases resources.lookup x with
      | none => rfl
      | some deps => simp
    · dsimp only
      rw [List.nil_append, nodup_sortUnstable]
      exact resources.keys_nodup.filter _
    · dsimp only
      rw [List.nil_append, mem_sortUnstable, hmem, List.eq_nil_iff_forall_not_mem]
      simp

/-- Every dependency is a resource. -/
def Known (resources : Map K (List K)) : Prop :=
  ∀ name dep, DependsOn resources name dep → dep ∈ resources.keys

theorem firstUnknown_eq_none {resourceOrder : IterOrder K} {resources : Map K (List K)} :
    firstUnknown resources (resources.visit resourceOrder) = none ↔ Known resources := by
  unfold firstUnknown Known
  rw [List.findSome?_eq_none_iff]
  simp only [Option.map_eq_none_iff, List.find?_eq_none, decide_eq_true_iff, not_not]
  constructor
  · intro h name dep hdep
    rcases depsOf_visited resourceOrder resources name with
      ⟨deps, hvisit, hdeps, -⟩ | ⟨-, hdeps, -⟩
    · unfold DependsOn at hdep
      rw [hdeps] at hdep
      exact AList.mem_keys.mp (h (name, deps) hvisit dep hdep)
    · unfold DependsOn at hdep
      rw [hdeps] at hdep
      exact absurd hdep List.not_mem_nil
  · intro h r hvisit dep hdep
    refine AList.mem_keys.mpr (h r.1 dep ?_)
    unfold DependsOn
    rw [depsOf_eq (Map.mem_visit.mp hvisit)]
    exact hdep

/-- Nothing is ready and nothing is missing. -/
theorem Kahn.complete {resources : Map K (List K)} {s : Sorting K} (h : Kahn resources s)
    (hdone : s.ready = []) (hknown : Known resources) (hacyclic : Acyclic (DependsOn resources)) :
    s.ordered.Perm resources.keys := by
  have hlisted := h.listed
  have hnodup := h.nodup
  rw [hdone, List.append_nil] at hnodup
  simp only [hdone, List.append_nil] at hlisted
  refine (List.perm_ext_iff_of_nodup hnodup resources.keys_nodup).mpr fun x =>
    ⟨fun hx => ((hlisted x).mp hx).1, fun hx => ?_⟩
  by_contra hnot
  -- What is not in the order waits for something that is not in it either.
  refine not_acyclic_of_closed (l := resources.keys)
    (P := fun y => y ∈ resources.keys ∧ y ∉ s.ordered) (fun y hy => hy.1) (fun y hy => ?_)
    ⟨x, hx, hnot⟩ hacyclic
  have hwaits : ¬ ∀ d ∈ depsOf resources y, d ∈ s.ordered := fun hall =>
    hy.2 ((hlisted y).mpr ⟨hy.1, hall⟩)
  simp only [not_forall] at hwaits
  obtain ⟨d, hd, hmissing⟩ := hwaits
  exact ⟨d, hd, hknown y d hd, hmissing⟩

/-- Either way: it is an order of all resources, or some wait for each other. -/
theorem topoSort_of_known (resourceOrder degreeOrder : IterOrder K) {resources : Map K (List K)}
    (hknown : Known resources) : ∃ s, Kahn resources s ∧ s.ready = []
      ∧ s.ordered = schedule resources resources.keys.length
        (sortUnstable (independent resources)) []
      ∧ topoSort resourceOrder degreeOrder resources
        = some (if s.ordered.length ≠ resources.keys.length then
            .error (.cyclicDependency (sortUnstable ((s.inDegree.visit degreeOrder).filterMap
              fun e => if e.2 > 0 then some e.1 else none)))
          else .ok s.ordered) := by
  obtain ⟨hready, hstart⟩ := kahn_start resourceOrder degreeOrder resources
  obtain ⟨s, hloop, hkahn, hdone, hschedule⟩ :=
    kahnLoop_spec resourceOrder resources.keys.length hstart (Nat.le_add_right _ _)
  refine ⟨s, hkahn, hdone, hschedule, ?_⟩
  unfold topoSort
  dsimp only
  rw [firstUnknown_eq_none.mpr hknown, hready]
  dsimp only
  rw [hloop]
  dsimp only [bind, Option.bind, pure]
  split
  · rfl
  · rfl

/-- A success is the schedule, with every resource in it. -/
theorem topoSort_ok {resourceOrder degreeOrder : IterOrder K} {resources : Map K (List K)}
    {order : List K} (h : topoSort resourceOrder degreeOrder resources = some (.ok order)) :
    Known resources ∧ order = schedule resources resources.keys.length
        (sortUnstable (independent resources)) []
      ∧ order.Perm resources.keys ∧ Respects (DependsOn resources) order := by
  by_cases hknown : Known resources
  · obtain ⟨s, hkahn, hdone, hschedule, hsort⟩ :=
      topoSort_of_known resourceOrder degreeOrder hknown
    rw [hsort] at h
    split at h
    · cases Option.some.inj h
    · rename_i hlength
      obtain rfl := Except.ok.inj (Option.some.inj h)
      have hnodup := hkahn.nodup
      have hlisted := hkahn.listed
      rw [hdone, List.append_nil] at hnodup
      simp only [hdone, List.append_nil] at hlisted
      have hsubperm : s.ordered.Subperm resources.keys :=
        List.subperm_of_subset hnodup fun x hx => ((hlisted x).mp hx).1
      exact ⟨hknown, hschedule, hsubperm.perm_of_length_le (not_not.mp hlength).ge, hkahn.respects⟩
  · unfold topoSort at h
    dsimp only at h
    split at h
    · cases Option.some.inj h
    · rename_i hnone
      exact absurd (firstUnknown_eq_none.mp hnone) hknown

/-- A schedule with every resource in it is a success. -/
theorem topoSort_of_perm (resourceOrder degreeOrder : IterOrder K) {resources : Map K (List K)}
    (hknown : Known resources)
    (hperm : (schedule resources resources.keys.length (sortUnstable (independent resources))
      []).Perm resources.keys) : topoSort resourceOrder degreeOrder resources
        = some (.ok (schedule resources resources.keys.length
          (sortUnstable (independent resources)) [])) := by
  obtain ⟨s, -, -, hschedule, hsort⟩ := topoSort_of_known resourceOrder degreeOrder hknown
  rw [hsort, hschedule, if_neg (not_not.mpr hperm.length_eq)]

/-- **The start order.**  Sorting always ends without a panic.  It succeeds exactly when every
dependency is a resource and none depends on itself, over however many steps; what comes out then
is all the resources, each behind what it depends on, and the same for whatever orders the hash
maps are visited in. -/
theorem topo_sort_correct (resourceOrder degreeOrder : IterOrder K)
    (resources : Map K (List K)) :
    (∃ result, topoSort resourceOrder degreeOrder resources = some result)
    ∧ ((∃ order, topoSort resourceOrder degreeOrder resources = some (.ok order))
      ↔ Known resources ∧ Acyclic (DependsOn resources))
    ∧ ∀ order, topoSort resourceOrder degreeOrder resources = some (.ok order) →
      order.Perm resources.keys ∧ Respects (DependsOn resources) order
        ∧ ∀ resourceOrder' degreeOrder',
          topoSort resourceOrder' degreeOrder' resources = some (.ok order) := by
  refine ⟨?_, ⟨?_, ?_⟩, fun order h => ?_⟩
  · by_cases hknown : Known resources
    · obtain ⟨s, -, -, -, hsort⟩ := topoSort_of_known resourceOrder degreeOrder hknown
      exact ⟨_, hsort⟩
    · unfold topoSort
      dsimp only
      split
      · exact ⟨_, rfl⟩
      · rename_i hnone
        exact absurd (firstUnknown_eq_none.mp hnone) hknown
  · rintro ⟨order, h⟩
    obtain ⟨hknown, -, hperm, hrespects⟩ := topoSort_ok h
    exact ⟨hknown, hrespects.acyclic (hperm.nodup_iff.mpr resources.keys_nodup)
      fun x d hxd => hperm.mem_iff.mpr (dependsOn_mem hxd)⟩
  · rintro ⟨hknown, hacyclic⟩
    obtain ⟨s, hkahn, hdone, hschedule, hsort⟩ :=
      topoSort_of_known resourceOrder degreeOrder hknown
    have hperm := hkahn.complete hdone hknown hacyclic
    exact ⟨s.ordered, by rw [hsort, if_neg (not_not.mpr hperm.length_eq)]⟩
  · obtain ⟨hknown, rfl, hperm, hrespects⟩ := topoSort_ok h
    exact ⟨hperm, hrespects, fun resourceOrder' degreeOrder' =>
      topoSort_of_perm resourceOrder' degreeOrder' hknown hperm⟩

end Baston.Zone.Topo
