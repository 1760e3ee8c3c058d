/-
Replaying a log of keyed writes.

A write carries the whole new value of its key, or says that the key is gone, so the
last write about a key decides what a map holds there after a replay.  A sender that
coalesces its writes keeps one of them for each key and hands them out in any order: what
the receiver will hold is what the sender holds back, laid over what was sent.
-/
import Baston.Lib.Map

namespace WriteLog

open Assoc

/-- A key with its new value, or with nothing when it is gone. -/
structure Write (K V : Type) where
  key : K
  image : Option V

variable {K V D τ : Type} [DecidableEq K]

def put (m : Map K V) (w : Write K V) : Map K V :=
  match w.image with
  | some v => m.insert w.key v
  | none => m.erase w.key

/-- A map after the writes of `log`, oldest first. -/
def replay (m : Map K V) (log : List (Write K V)) : Map K V := log.foldl put m

/-- What the last write about `k` says. -/
def last (k : K) : List (Write K V) → Option (Option V)
  | [] => none
  | w :: rest => (last k rest).or (if w.key = k then some w.image else none)

theorem lookup_put (m : Map K V) (w : Write K V) (k : K) :
    (put m w).lookup k = if w.key = k then w.image else m.lookup k := by
  unfold put
  cases w.image with
  | none => simp only [Map.lookup_erase_of, eq_comm]
  | some v => simp only [Map.lookup_insert_of, eq_comm]

/-- **The last write about a key decides.** -/
theorem lookup_replay (k : K) : ∀ (log : List (Write K V)) (m : Map K V),
    (replay m log).lookup k = (last k log).getD (m.lookup k) := by
  intro log
  induction log with
  | nil =>
      intro m
      rfl
  | cons w rest ih =>
      intro m
      have h := ih (put m w)
      rw [lookup_put] at h
      simp only [replay, List.foldl_cons, last] at h ⊢
      rw [h]
      by_cases hk : w.key = k
      · simp only [hk, if_true]
        cases last k rest <;> rfl
      · simp only [hk, if_false, Option.or_none]

theorem last_append (k : K) (log log' : List (Write K V)) :
    last k (log ++ log') = (last k log').or (last k log) := by
  induction log with
  | nil => simp [last]
  | cons w rest ih => rw [List.cons_append, last, ih, last, Option.or_assoc]

theorem last_eq_none {k : K} : ∀ {log : List (Write K V)}, (∀ w ∈ log, w.key ≠ k) →
    last k log = none := by
  intro log
  induction log with
  | nil =>
      intro _
      rfl
  | cons w rest ih =>
      intro h
      rw [last, ih fun w hw => h w (List.mem_cons_of_mem _ hw), Option.none_or,
        if_neg (h w List.mem_cons_self)]

/-- What the last write says, some write about the key says. -/
theorem mem_of_last {k : K} {x : Option V} : ∀ {log : List (Write K V)},
    last k log = some x → ∃ w ∈ log, w.key = k ∧ w.image = x := by
  intro log
  induction log with
  | nil =>
      intro h
      exact absurd h (by simp [last])
  | cons w rest ih =>
      intro h
      rw [last] at h
      cases hrest : last k rest with
      | some y =>
          rw [hrest, Option.some_or] at h
          obtain ⟨w', hw', hkey, himage⟩ := ih (hrest.trans h)
          exact ⟨w', List.mem_cons_of_mem _ hw', hkey, himage⟩
      | none =>
          rw [hrest, Option.none_or] at h
          split at h
          · next hkey => exact ⟨w, List.mem_cons_self, hkey, Option.some.inj h⟩
          · exact absurd h (by simp)

/-- A key that is written has a last write. -/
theorem last_isSome {k : K} : ∀ {log : List (Write K V)}, (∃ w ∈ log, w.key = k) →
    (last k log).isSome = true := by
  intro log
  induction log with
  | nil =>
      rintro ⟨w, hw, -⟩
      exact absurd hw List.not_mem_nil
  | cons w rest ih =>
      rintro ⟨w', hw', hkey⟩
      rw [last]
      rcases List.mem_cons.mp hw' with rfl | hw'
      · rw [if_pos hkey]
        cases last k rest <;> rfl
      · rw [Option.isSome_or, ih ⟨w', hw', hkey⟩, Bool.true_or]

/-- When all the writes about a key say the same, so does the last. -/
theorem last_eq_of_agree {k : K} {x : Option V} {log : List (Write K V)}
    (hsome : ∃ w ∈ log, w.key = k) (hagree : ∀ w ∈ log, w.key = k → w.image = x) :
    last k log = some x := by
  obtain ⟨y, hy⟩ := Option.isSome_iff_exists.mp (last_isSome hsome)
  obtain ⟨w, hw, hkey, rfl⟩ := mem_of_last hy
  rw [hy, hagree w hw hkey]

/-- From a write about the key on, the log alone decides. -/
theorem last_append_cons (k : K) (log later : List (Write K V)) {w : Write K V} (hw : w.key = k) :
    last k (log ++ w :: later) = last k (w :: later) := by
  have hsome : (last k (w :: later)).isSome = true := last_isSome ⟨w, List.mem_cons_self, hw⟩
  obtain ⟨y, hy⟩ := Option.isSome_iff_exists.mp hsome
  rw [last_append, hy, Option.some_or]

/-! ### One write held back for each key -/

/-- The writes of a coalescing sender, in the order its map happens to hand them out. -/
def drain (image : D → Option V) (ord : IterOrder K) (held : Map K D) : List (Write K V) :=
  (held.visit ord).map fun kd => ⟨kd.1, image kd.2⟩

/-- What a receiver that holds `v` at `k` will hold once `held` has been sent. -/
def overlay (image : D → Option V) (held : Map K D) (k : K) (v : Option V) : Option V :=
  ((held.lookup k).map image).getD v

theorem last_drain (image : D → Option V) (ord : IterOrder K) (held : Map K D) (k : K) :
    last k (drain image ord held) = (held.lookup k).map image := by
  -- a key that occurred twice would be written twice with the same value
  have key : ∀ keys : List K,
      last k ((keys.filterMap fun k' => (held.lookup k').map fun d => (k', d)).map
        fun kd => (⟨kd.1, image kd.2⟩ : Write K V))
        = if k ∈ keys then (held.lookup k).map image else none := by
    intro keys
    induction keys with
    | nil => rfl
    | cons k' rest ih =>
        cases hd : held.lookup k' with
        | none =>
            rw [List.filterMap_cons_none (by rw [hd]; rfl), ih]
            by_cases hk : k = k'
            · subst hk
              simp [hd]
            · simp [hk]
        | some d =>
            rw [List.filterMap_cons_some (by rw [hd]; rfl), List.map_cons, last, ih]
            by_cases hk : k' = k
            · subst hk
              by_cases hmem : k' ∈ rest <;> simp [hd, hmem]
            · have hk' : ¬ k = k' := fun h => hk h.symm
              simp [hk, hk']
  unfold drain Map.visit
  rw [key]
  by_cases hmem : k ∈ ord.arrange held.keys
  · rw [if_pos hmem]
  · rw [if_neg hmem]
    rw [(ord.perm held.keys).mem_iff, ← AList.mem_keys, ← AList.lookup_eq_none] at hmem
    rw [hmem]
    rfl

/-- **Draining a sender gives the receiver what the sender held back**, over what it had. -/
theorem lookup_replay_drain (image : D → Option V) (ord : IterOrder K) (held : Map K D)
    (m : Map K V) (k : K) :
    (replay m (drain image ord held)).lookup k = overlay image held k (m.lookup k) := by
  rw [lookup_replay, last_drain, overlay]

/-! ### Several senders -/

/-- Who sent the last batch that mentions `k`. -/
def lastFrom (k : K) : List (τ × List (Write K V)) → Option τ
  | [] => none
  | x :: rest => (lastFrom k rest).or (if (last k x.2).isSome then some x.1 else none)

/-- What `t` sent, in the order it arrived. -/
def sentBy {β : Type} [DecidableEq τ] (t : τ) (arrival : List (τ × β)) : List β :=
  (arrival.filter fun x => x.1 = t).map Prod.snd

theorem last_of_lastFrom_none (k : K) : ∀ {arrival : List (τ × List (Write K V))},
    lastFrom k arrival = none → last k (arrival.map Prod.snd).flatten = none := by
  intro arrival
  induction arrival with
  | nil =>
      intro _
      rfl
  | cons x rest ih =>
      intro h
      rw [lastFrom, Option.or_eq_none_iff] at h
      rw [List.map_cons, List.flatten_cons, last_append, ih h.1, Option.none_or]
      cases hx : last k x.2 with
      | none => rfl
      | some image => simp [hx] at h

theorem last_sentBy_of_lastFrom_none [DecidableEq τ] (k : K) (t : τ) :
    ∀ {arrival : List (τ × List (Write K V))},
      lastFrom k arrival = none → last k (sentBy t arrival).flatten = none := by
  intro arrival
  induction arrival with
  | nil =>
      intro _
      rfl
  | cons x rest ih =>
      intro h
      rw [lastFrom, Option.or_eq_none_iff] at h
      have hx : last k x.2 = none := by
        cases hx : last k x.2 with
        | none => rfl
        | some image => simp [hx] at h
      have hrest := ih h.1
      unfold sentBy at hrest ⊢
      by_cases ht : x.1 = t
      · rw [List.filter_cons_of_pos (by simpa using ht), List.map_cons, List.flatten_cons,
          last_append, hrest, hx]
        rfl
      · rw [List.filter_cons_of_neg (by simpa using ht)]
        exact hrest

/-- **Of several senders the one whose batch about a key came last decides.** -/
theorem last_of_lastFrom [DecidableEq τ] (k : K) {t : τ} :
    ∀ {arrival : List (τ × List (Write K V))}, lastFrom k arrival = some t →
      ∃ image, last k (arrival.map Prod.snd).flatten = some image
        ∧ last k (sentBy t arrival).flatten = some image := by
  intro arrival
  induction arrival with
  | nil =>
      intro h
      exact absurd h (by simp [lastFrom])
  | cons x rest ih =>
      intro h
      rw [List.map_cons, List.flatten_cons, last_append]
      have hcons : last k (sentBy t (x :: rest)).flatten
          = (last k (sentBy t rest).flatten).or (if x.1 = t then last k x.2 else none) := by
        unfold sentBy
        by_cases ht : x.1 = t
        · rw [List.filter_cons_of_pos (by simpa using ht), List.map_cons, List.flatten_cons,
            last_append, if_pos ht]
        · rw [List.filter_cons_of_neg (by simpa using ht), if_neg ht, Option.or_none]
      rw [hcons]
      rw [lastFrom] at h
      cases hrest : lastFrom k rest with
      | some u =>
          rw [hrest, Option.some_or] at h
          obtain rfl := Option.some.inj h
          obtain ⟨image, hall, hsent⟩ := ih hrest
          exact ⟨image, by rw [hall, Option.some_or], by rw [hsent, Option.some_or]⟩
      | none =>
          rw [hrest, Option.none_or] at h
          rw [last_of_lastFrom_none k hrest, last_sentBy_of_lastFrom_none k t hrest]
          cases hx : last k x.2 with
          | none => simp [hx] at h
          | some image =>
              have ht : x.1 = t := by simpa [hx] using h
              exact ⟨image, rfl, by rw [if_pos ht]; rfl⟩

end WriteLog
