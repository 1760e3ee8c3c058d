/-
Last write wins in the state bags, when the writes arrive in the order of their versions.

The store keeps what arrived last and so does the replication queue, while the greatest
version is what a write is known by.  The two agree exactly as long as nothing arrives
after a newer write to its key.  Under a key, what was drained and what is still queued is
then the replicated writes with some of them left out, never the last one.
-/
import Baston.Lib.WriteLog
import Baston.Scripting.StateBag

namespace Baston.Scripting

open Assoc Trace

variable {V : Type}

abbrev BagEntry (V : Type) := Entry (BagCalls V) (BagOp V) (BagAnswer V)

/-- The change a step of a run has written, if it wrote one. -/
def wrote (e : BagEntry V) : Option (StateBagChange V) :=
  match e.answer with
  | .set c => some c
  | _ => none

/-- Every write of a run, the last one first. -/
def written (past : List (BagEntry V)) : List (StateBagChange V) := past.filterMap wrote

/-- Every change a run has drained for replication, in order. -/
def drained : List (BagEntry V) → List (StateBagChange V)
  | [] => []
  | e :: past =>
    drained past ++ match e.answer with
      | .replicated changes => changes
      | _ => []

/-- The changes about one key. -/
def about (bag key : String) (l : List (StateBagChange V)) : List (StateBagChange V) :=
  l.filter fun c => c.bag = bag && c.key = key

/-- What was drained for replication, and after it what is still queued. -/
def stream (past : List (BagEntry V)) (s : BagCalls V) : List (StateBagChange V) :=
  drained past ++ s.store.inner.replicated

/-- A copy that takes over every drained change. -/
def copyOf (past : List (BagEntry V)) : Map (String × String) (V × UInt64) :=
  WriteLog.replay ∅ ((drained past).map fun c => ⟨(c.bag, c.key), some (c.value, c.version)⟩)

/-- A copy that keeps the greatest version of the drained changes about a key. -/
def greatestOf (past : List (BagEntry V)) (bag key : String) : Option (StateBagChange V) :=
  (about bag key (drained past)).foldl (Coalesce.keepGreatest (·.version)) none

/-- Last write wins. -/
structure LastWriteWins (past : List (BagEntry V)) (s : BagCalls V) : Prop where
  /-- What is stored under a key is the write with the greatest version. -/
  stored : ∀ bag key, match s.store.inner.entry bag key with
    | none => about bag key (written past) = []
    | some (value, version) => ∃ w ∈ about bag key (written past), w.value = value
      ∧ w.version = version ∧ ∀ other ∈ about bag key (written past), other.version ≤ version
  /-- The versions a key is drained with increase. -/
  increasing : ∀ bag key, (about bag key (stream past s)).Pairwise fun a b => a.version < b.version
  /-- What is drained and queued of a key ends with the newest replicated write. -/
  newest : ∀ bag key, ∀ w ∈ about bag key (written past), w.replicated = true →
    ∃ last ∈ about bag key (written past), (about bag key (stream past s)).getLast? = some last
      ∧ last.replicated = true ∧ w.version ≤ last.version
  /-- A copy agrees with the store once everything is drained, if everything is replicated. -/
  copied : s.store.inner.replicated = [] → (∀ w ∈ written past, w.replicated = true) →
    ∀ bag key, (copyOf past).lookup (bag, key) = s.store.inner.entry bag key
      ∧ (greatestOf past bag key).map (fun c => (c.value, c.version))
        = s.store.inner.entry bag key

/-- The replication queue has room for what the step writes. -/
def NoOverflow (_past : List (BagEntry V)) (e : BagEntry V) : Prop :=
  ∀ c, wrote e = some c → c.replicated = true →
    e.pre.store.inner.replicated.any c.sameKey = true
      ∨ e.pre.store.inner.replicated.length < maxReplicatedChanges

/-- What the step writes is newer than all that was written to its key. -/
def InOrder (past : List (BagEntry V)) (e : BagEntry V) : Prop :=
  ∀ c, wrote e = some c → ∀ w ∈ about c.bag c.key (written past), w.version < c.version

instance (past : List (BagEntry V)) (e : BagEntry V) : Decidable (NoOverflow past e) :=
  inferInstanceAs (Decidable (∀ c ∈ wrote e, c.replicated = true → _ ∨ _))

instance (past : List (BagEntry V)) (e : BagEntry V) : Decidable (InOrder past e) :=
  inferInstanceAs (Decidable (∀ c ∈ wrote e, ∀ w ∈ about c.bag c.key (written past), _ < _))

/-! ### One step -/

theorem about_append (bag key : String) (l l' : List (StateBagChange V)) :
    about bag key (l ++ l') = about bag key l ++ about bag key l' := List.filter_append _ _

theorem mem_about {bag key : String} {l : List (StateBagChange V)} {c : StateBagChange V} :
    c ∈ about bag key l ↔ c ∈ l ∧ c.bag = bag ∧ c.key = key := by
  unfold about
  rw [List.mem_filter, Bool.and_eq_true, decide_eq_true_eq, decide_eq_true_eq]

theorem entry_store (ord : IterOrder UInt32) (inner : StateBagInner V) (c : StateBagChange V)
    (bag key : String) : (inner.store ord c).entry bag key
      = if c.bag = bag ∧ c.key = key then some (c.value, c.version)
        else inner.entry bag key := by
  unfold StateBagInner.store StateBagInner.entry
  simp only [Map.lookup_insert_of]
  by_cases hbag : bag = c.bag
  · rw [if_pos hbag, Option.bind_some, Map.lookup_insert_of]
    by_cases hkey : key = c.key
    · rw [if_pos hkey, if_pos ⟨hbag.symm, hkey.symm⟩]
    · rw [if_neg hkey, if_neg fun h => hkey h.2.symm, hbag]
      cases inner.bags.lookup c.bag with
      | none => rfl
      | some values => rfl
  · rw [if_neg hbag, if_neg fun h => hbag h.1.symm]

/-- What a change does to the queue, key by key. -/
theorem about_queueReplicated {queue : List (StateBagChange V)} {c : StateBagChange V}
    (hroom : queue.any c.sameKey = true ∨ queue.length < maxReplicatedChanges) (bag key : String) :
    about bag key (StateBagInner.queueReplicated queue c)
      = if c.bag = bag ∧ c.key = key then (about bag key queue).dropLast ++ [c]
        else about bag key queue := by
  unfold StateBagInner.queueReplicated
  simp only [about_append]
  by_cases hkey : c.bag = bag ∧ c.key = key
  · obtain ⟨rfl, rfl⟩ := hkey
    have hself : about c.bag c.key [c] = [c] := by
      unfold about
      exact List.filter_cons_of_pos (by simp)
    rw [if_pos (⟨rfl, rfl⟩ : c.bag = c.bag ∧ c.key = c.key), hself]
    congr 1
    by_cases hany : queue.any c.sameKey = true
    · rw [if_pos hany]
      exact Coalesce.filter_removeLast_self c.sameKey queue
    · have hnone : about c.bag c.key queue = [] := by
        unfold about
        rw [List.filter_eq_nil_iff]
        intro a ha hsame
        exact hany (List.any_eq_true.mpr ⟨a, ha, hsame⟩)
      rw [if_neg hany, if_neg (Nat.not_le_of_lt (hroom.resolve_left hany)), hnone]
      rfl
  · have hother : about bag key [c] = [] := by
      unfold about
      exact List.filter_cons_of_neg (by simpa using hkey)
    rw [if_neg hkey, hother, List.append_nil]
    by_cases hany : queue.any c.sameKey = true
    · rw [if_pos hany]
      refine Coalesce.filter_removeLast_other ?_ queue
      intro a ha
      unfold StateBagChange.sameKey
      rw [Bool.and_eq_true, decide_eq_true_eq, decide_eq_true_eq] at ha
      rw [ha.1, ha.2]
      simp only [Bool.and_eq_false_iff, decide_eq_false_iff_not]
      by_cases hbag : bag = c.bag
      · exact .inr fun h => hkey ⟨hbag.symm, h.symm⟩
      · exact .inl hbag
    · rw [if_neg hany, if_neg (Nat.not_le_of_lt (hroom.resolve_left hany))]

/-- What a step writes, and what it does to the stored values and to the stream. -/
inductive BagEffect (past : List (BagEntry V)) (e : BagEntry V) : Prop
  /-- A write. -/
  | writes (c : StateBagChange V) (hwrote : wrote e = some c)
      (entries : ∀ bag key, e.post.store.inner.entry bag key
        = if c.bag = bag ∧ c.key = key then some (c.value, c.version)
          else e.pre.store.inner.entry bag key)
      (hstream : ∀ bag key, about bag key (stream (e :: past) e.post)
        = if c.replicated = true ∧ c.bag = bag ∧ c.key = key then
            about bag key (drained past)
              ++ ((about bag key e.pre.store.inner.replicated).dropLast ++ [c])
          else about bag key (stream past e.pre))
  /-- Anything else. -/
  | other (hwrote : wrote e = none)
      (entries : ∀ bag key, e.post.store.inner.entry bag key = e.pre.store.inner.entry bag key)
      (hstream : stream (e :: past) e.post = stream past e.pre)

theorem bag_effect {past : List (BagEntry V)} {op : BagOp V} {s s' : BagCalls V}
    {a : BagAnswer V} (h : BagCalls.step op s = some (s', a))
    (hroom : NoOverflow past ⟨s, op, a, s'⟩) : BagEffect past ⟨s, op, a, s'⟩ := by
  cases op with
  | call bag key value replicated source =>
      obtain ⟨rfl, rfl⟩ := Prod.mk.inj (Option.some.inj h)
      exact .other rfl (fun _ _ => rfl) (by simp [stream, drained])
  | store i ord =>
      obtain ⟨c, hc, h⟩ := Option.bind_eq_some_iff.mp h
      obtain ⟨rfl, rfl⟩ := Prod.mk.inj (Option.some.inj h)
      refine .writes c rfl (entry_store ord s.store.inner c) ?_
      intro bag key
      have hroom := hroom c rfl
      unfold stream
      simp only [drained, List.append_nil, about_append, StateBagInner.store]
      by_cases hrep : c.replicated = true
      · simp only [hrep, if_true, true_and]
        rw [about_queueReplicated (hroom hrep)]
        split
        · rfl
        · rfl
      · rw [if_neg hrep, if_neg fun h => hrep h.1]
  | drainReplicated limit =>
      obtain ⟨rfl, rfl⟩ := Prod.mk.inj (Option.some.inj h)
      refine .other rfl (fun _ _ => rfl) ?_
      unfold stream
      simp only [drained, List.append_assoc, List.take_append_drop]
  | drainDeliveries resource limit =>
      obtain ⟨rfl, rfl⟩ := Prod.mk.inj (Option.some.inj h)
      have hframe : (s.store.inner.drainDeliveries resource limit).1.bags = s.store.inner.bags
          ∧ (s.store.inner.drainDeliveries resource limit).1.replicated
            = s.store.inner.replicated := by
        unfold StateBagInner.drainDeliveries
        split
        · exact ⟨rfl, rfl⟩
        · exact ⟨rfl, rfl⟩
      refine .other rfl (fun bag key => ?_) ?_
      · show (s.store.inner.drainDeliveries resource limit).1.entry bag key = _
        unfold StateBagInner.entry
        rw [hframe.1]
      · show drained past ++ [] ++ (s.store.inner.drainDeliveries resource limit).1.replicated = _
        rw [hframe.2, List.append_nil]
        rfl
  | addHandler resource keyFilter bagFilter callbackId =>
      obtain ⟨rfl, rfl⟩ := Prod.mk.inj (Option.some.inj h)
      exact .other rfl (fun _ _ => rfl) (by simp [stream, drained, StateBagStore.addHandler])
  | removeHandler resource cookie =>
      obtain ⟨rfl, rfl⟩ := Prod.mk.inj (Option.some.inj h)
      have hframe : (s.store.removeHandler resource cookie).inner.bags = s.store.inner.bags
          ∧ (s.store.removeHandler resource cookie).inner.replicated
            = s.store.inner.replicated := by
        unfold StateBagStore.removeHandler
        split
        · exact ⟨rfl, rfl⟩
        · exact ⟨rfl, rfl⟩
      refine .other rfl (fun bag key => ?_) ?_
      · show (s.store.removeHandler resource cookie).inner.entry bag key = _
        unfold StateBagInner.entry
        rw [hframe.1]
      · show drained past ++ [] ++ (s.store.removeHandler resource cookie).inner.replicated = _
        rw [hframe.2, List.append_nil]
        rfl

/-! ### Runs -/

/-- What a run in order keeps, key by key. -/
structure Kept (past : List (BagEntry V)) (s : BagCalls V) : Prop where
  /-- The last write to a key is stored. -/
  entry : ∀ bag key, s.store.inner.entry bag key
    = (about bag key (written past)).head?.map fun c => (c.value, c.version)
  ordered : ∀ bag key, (about bag key (written past)).Pairwise fun a b => b.version < a.version
  mem : ∀ bag key, ∀ c ∈ about bag key (stream past s), c ∈ about bag key (written past)
  increasing : ∀ bag key, (about bag key (stream past s)).Pairwise fun a b => a.version < b.version
  /-- The last replicated write is the last to be drained. -/
  last : ∀ bag key, (about bag key (stream past s)).getLast?
    = ((about bag key (written past)).filter (·.replicated)).head?

theorem written_cons {past : List (BagEntry V)} {e : BagEntry V} {c : StateBagChange V}
    (h : wrote e = some c) : written (e :: past) = c :: written past :=
  List.filterMap_cons_some h

theorem about_cons (bag key : String) (c : StateBagChange V) (l : List (StateBagChange V)) :
    about bag key (c :: l)
      = if c.bag = bag ∧ c.key = key then c :: about bag key l else about bag key l := by
  unfold about
  rw [List.filter_cons]
  simp only [Bool.and_eq_true, decide_eq_true_eq]

theorem kept_init : Kept [] ({} : BagCalls V) := by
  refine ⟨fun bag key => rfl, fun bag key => .nil, ?_, fun bag key => .nil, fun bag key => rfl⟩
  intro bag key c hc
  exact absurd hc List.not_mem_nil

theorem Kept.step {past : List (BagEntry V)} {e : BagEntry V} (h : Kept past e.pre)
    (heffect : BagEffect past e) (horder : InOrder past e) : Kept (e :: past) e.post := by
  cases heffect with
  | other hwrote entries hstream =>
      have hwritten : written (e :: past) = written past := List.filterMap_cons_none hwrote
      refine ⟨fun bag key => ?_, fun bag key => ?_, fun bag key => ?_, fun bag key => ?_,
        fun bag key => ?_⟩
      · rw [entries, hwritten]
        exact h.entry bag key
      · rw [hwritten]
        exact h.ordered bag key
      · rw [hwritten, hstream]
        exact h.mem bag key
      · rw [hstream]
        exact h.increasing bag key
      · rw [hwritten, hstream]
        exact h.last bag key
  | writes c hwrote entries hstream =>
      have hnewer := horder c hwrote
      have hwritten : ∀ bag key, about bag key (written (e :: past))
          = if c.bag = bag ∧ c.key = key then c :: about bag key (written past)
            else about bag key (written past) := by
        intro bag key
        rw [written_cons hwrote, about_cons]
      -- a change that is queued goes behind what is left of the stream
      have hqueued : (about c.bag c.key (drained past)
          ++ (about c.bag c.key e.pre.store.inner.replicated).dropLast).Sublist
            (about c.bag c.key (stream past e.pre)) := by
        unfold stream
        rw [about_append]
        exact (List.Sublist.refl _).append (List.dropLast_sublist _)
      refine ⟨fun bag key => ?_, fun bag key => ?_, fun bag key => ?_, fun bag key => ?_,
        fun bag key => ?_⟩
      · rw [entries, hwritten]
        split
        · rfl
        · exact h.entry bag key
      · rw [hwritten]
        split
        · next hkey =>
            obtain ⟨rfl, rfl⟩ := hkey
            exact List.pairwise_cons.mpr ⟨hnewer, h.ordered c.bag c.key⟩
        · exact h.ordered bag key
      · intro a ha
        have hkept : a ∈ about bag key (stream past e.pre) →
            a ∈ about bag key (written (e :: past)) := by
          intro ha
          rw [hwritten]
          split
          · exact List.mem_cons_of_mem _ (h.mem bag key a ha)
          · exact h.mem bag key a ha
        rw [hstream] at ha
        split at ha
        · next hkey =>
            obtain ⟨-, rfl, rfl⟩ := hkey
            rw [← List.append_assoc, List.mem_append, List.mem_singleton] at ha
            rcases ha with ha | rfl
            · exact hkept (hqueued.subset ha)
            · rw [hwritten, if_pos ⟨rfl, rfl⟩]
              exact List.mem_cons_self
        · exact hkept ha
      · rw [hstream]
        split
        · next hkey =>
            obtain ⟨-, rfl, rfl⟩ := hkey
            rw [← List.append_assoc, List.pairwise_append]
            refine ⟨(h.increasing c.bag c.key).sublist hqueued, List.pairwise_singleton _ _, ?_⟩
            intro a ha b hb
            rw [List.mem_singleton.mp hb]
            exact hnewer a (h.mem c.bag c.key a (hqueued.subset ha))
        · exact h.increasing bag key
      · rw [hstream, hwritten]
        by_cases hkey : c.bag = bag ∧ c.key = key
        · rw [if_pos hkey]
          by_cases hrep : c.replicated = true
          · rw [if_pos ⟨hrep, hkey⟩, List.filter_cons_of_pos hrep, ← List.append_assoc,
              List.getLast?_concat, List.head?_cons]
          · rw [if_neg fun hk => hrep hk.1, List.filter_cons_of_neg hrep]
            exact h.last bag key
        · rw [if_neg hkey, if_neg fun hk => hkey hk.2]
          exact h.last bag key

theorem kept_of_run {past : List (BagEntry V)} {s : BagCalls V}
    (run : Run BagCalls.step {} past s) (hroom : Along NoOverflow past)
    (horder : Along InOrder past) : Kept past s := by
  have inv := run.invariant (I := fun past s => Along NoOverflow past → Kept past s)
    (P := InOrder) (fun _ => kept_init)
    (by
      intro past s op a s' _ hkept h horder hroom
      exact (hkept hroom.2).step (bag_effect h hroom.1) horder)
    horder
  exact inv hroom

/-! ### Copies -/

/-- The last change about a key is what a replay leaves there. -/
theorem last_changes (bag key : String) : ∀ l : List (StateBagChange V),
    WriteLog.last (bag, key) (l.map fun c => ⟨(c.bag, c.key), some (c.value, c.version)⟩)
      = (about bag key l).getLast?.map fun c => some (c.value, c.version) := by
  intro l
  induction l with
  | nil => rfl
  | cons c rest ih =>
      rw [List.map_cons, WriteLog.last, ih, about_cons]
      simp only [Prod.mk.injEq]
      split
      · rw [List.getLast?_cons]
        cases (about bag key rest).getLast? with
        | none => rfl
        | some a => rfl
      · rw [Option.or_none]

theorem Kept.wins {past : List (BagEntry V)} {s : BagCalls V} (h : Kept past s) :
    LastWriteWins past s := by
  have hgreatest : ∀ {bag key : String} {w : StateBagChange V} {rest : List (StateBagChange V)},
      about bag key (written past) = w :: rest →
        ∀ other ∈ about bag key (written past), other.version ≤ w.version := by
    intro bag key w rest hw other hother
    have hordered := h.ordered bag key
    rw [hw] at hother hordered
    rcases List.mem_cons.mp hother with rfl | hother
    · exact UInt64.le_refl _
    · exact UInt64.le_of_lt (List.rel_of_pairwise_cons hordered hother)
  refine ⟨?_, h.increasing, ?_, ?_⟩
  · intro bag key
    rw [h.entry]
    cases hw : about bag key (written past) with
    | nil => rfl
    | cons w rest =>
        refine ⟨w, List.mem_cons_self, rfl, rfl, ?_⟩
        rw [← hw]
        exact hgreatest hw
  · intro bag key w hw hrep
    have hmem : w ∈ (about bag key (written past)).filter (·.replicated) :=
      List.mem_filter.mpr ⟨hw, hrep⟩
    cases hlast : (about bag key (written past)).filter (·.replicated) with
    | nil =>
        rw [hlast] at hmem
        exact absurd hmem List.not_mem_nil
    | cons last rest =>
        have hin : last ∈ (about bag key (written past)).filter (·.replicated) := by
          rw [hlast]
          exact List.mem_cons_self
        refine ⟨last, (List.mem_filter.mp hin).1, ?_, (List.mem_filter.mp hin).2, ?_⟩
        · rw [h.last, hlast, List.head?_cons]
        · have hordered := (h.ordered bag key).filter (·.replicated)
          rw [hlast] at hmem hordered
          rcases List.mem_cons.mp hmem with rfl | hmem
          · exact UInt64.le_refl _
          · exact UInt64.le_of_lt (List.rel_of_pairwise_cons hordered hmem)
  · intro hempty hall bag key
    have hstream : stream past s = drained past := by
      unfold stream
      rw [hempty, List.append_nil]
    have hfilter : (about bag key (written past)).filter (·.replicated)
        = about bag key (written past) :=
      List.filter_eq_self.mpr fun c hc => hall c (mem_about.mp hc).1
    have hlast := h.last bag key
    rw [hstream, hfilter] at hlast
    have hincreasing := h.increasing bag key
    rw [hstream] at hincreasing
    constructor
    · unfold copyOf
      rw [WriteLog.lookup_replay, last_changes, hlast, h.entry]
      cases (about bag key (written past)).head? with
      | none => rfl
      | some w => rfl
    · unfold greatestOf
      rw [Coalesce.foldl_keepGreatest hincreasing, hlast, h.entry, Option.or_none]

/-- **Last write wins in every run whose writes arrive in the order of their versions**, and in
no other: a write that arrives after a newer one to its key leaves the older value stored. -/
theorem last_write_wins {past : List (BagEntry V)} {s : BagCalls V}
    (run : Run BagCalls.step {} past s) (hroom : Along NoOverflow past) :
    (Along InOrder past → LastWriteWins past s)
      ∧ ∀ later e before, past = later ++ e :: before → ∀ c, wrote e = some c →
        (∃ w ∈ about c.bag c.key (written before), c.version < w.version) →
          ¬ LastWriteWins (e :: before) e.post := by
  refine ⟨fun horder => (kept_of_run run hroom horder).wins, ?_⟩
  intro later e before hcut c hwrote hlate hwins
  obtain ⟨w, hw, hnewer⟩ := hlate
  rw [hcut] at hroom run
  have hnow := along_suffix hroom
  obtain ⟨mid, hrun, -⟩ := run.split
  cases hrun with
  | snoc hbefore h =>
      have heffect := bag_effect h hnow.1
      cases heffect with
      | other hnone =>
          rw [hwrote] at hnone
          exact absurd hnone (by simp)
      | writes c' hwrote' entries =>
          obtain rfl := Option.some.inj (hwrote.symm.trans hwrote')
          have hstored := hwins.stored c.bag c.key
          rw [entries, if_pos ⟨rfl, rfl⟩] at hstored
          obtain ⟨-, -, -, -, hgreatest⟩ := hstored
          have hle := hgreatest w (by
            rw [written_cons hwrote, about_cons, if_pos ⟨rfl, rfl⟩]
            exact List.mem_cons_of_mem _ hw)
          exact absurd hnewer (UInt64.not_lt.mpr hle)

/-! ### Two writers -/

/-- A resource writes a number to one key. -/
def callOf (value : Nat) : BagOp Nat :=
  .call "entity:7" "locked" value true ⟨some "vehicles", none⟩

/-- Two writes that get the lock in turn, and are drained. -/
def inTurn : List (BagOp Nat) :=
  [callOf 1, callOf 2, .store 0 (.stored _), .store 0 (.stored _), .drainReplicated 8]

/-- Two writes, the newer of which gets the lock first. -/
def overtaken : List (BagOp Nat) :=
  [callOf 1, callOf 2, .store 1 (.stored _), .store 0 (.stored _), .drainReplicated 8]

theorem inTurn_wins : ∃ past s, Run BagCalls.step ({} : BagCalls Nat) past s
    ∧ s.store.inner.entry "entity:7" "locked" = some (2, 2) ∧ LastWriteWins past s := by
  have run := run_of_ops BagCalls.step ({} : BagCalls Nat) inTurn rfl
  exact ⟨_, _, run, by decide +kernel,
    (last_write_wins run (by decide +kernel)).1 (by decide +kernel)⟩

/-- **The older of two writes stays.**  Both have returned and nothing else is under way. -/
theorem older_write_stays :
    ¬ ∀ (past : List (BagEntry Nat)) (s : BagCalls Nat), Run BagCalls.step {} past s →
      Along NoOverflow past → s.waiting = [] → LastWriteWins past s := by
  intro h
  have run := run_of_ops BagCalls.step ({} : BagCalls Nat) overtaken rfl
  have hstored := (h _ _ run (by decide +kernel) rfl).stored "entity:7" "locked"
  rw [show StateBagInner.entry _ "entity:7" "locked" = some (1, 1) by decide +kernel] at hstored
  obtain ⟨-, -, -, -, hgreatest⟩ := hstored
  have hnewer := hgreatest ⟨"entity:7", "locked", 2, 2, true, ⟨some "vehicles", none⟩⟩
    (by decide +kernel)
  exact absurd hnewer (by decide)

end Baston.Scripting
