/-
Which events of a chain the sibling zones get.

The loop publishes an event before it looks at the cap.  So the events it publishes are those it
dispatches, as far as they may leave the zone, and one more where the chain is cut off: the event
that is dropped here is still mirrored there.  What that event is can be said without the cap, from
the handlers alone.
-/
import Baston.Scripting.EventChain

namespace Baston.Scripting

namespace Chain

variable {H : Type} {behaviour : H → ScriptEvent → H × List ScriptEvent}
  {crossZone publishEntry : Bool}

/-- What the siblings should get of the events dispatched here. -/
def mirrored (crossZone publishEntry : Bool) (dispatched : List ScriptEvent) : List ScriptEvent :=
  if crossZone then
    (if publishEntry then dispatched else dispatched.tail).filter fun e =>
      !isZoneLocalEvent e.event
  else []

/-- The handlers and the events that wait, after so many dispatches without a cap. -/
def waiting (behaviour : H → ScriptEvent → H × List ScriptEvent) :
    Nat → H → List ScriptEvent → List ScriptEvent
  | 0, _, pending => pending
  | _ + 1, _, [] => []
  | n + 1, h, event :: pending =>
    waiting behaviour n (behaviour h event).1 (pending ++ (behaviour h event).2)

/-- What is published of an event that is not dispatched any more. -/
def dropped (crossZone : Bool) (pending : List ScriptEvent) : List ScriptEvent :=
  if crossZone then (pending.head?.toList).filter fun e => !isZoneLocalEvent e.event else []

/-- The turn of one event, up to its publication. -/
def announce (crossZone publishEntry : Bool) (event : ScriptEvent) (s : Chain H) : Chain H :=
  if !(s.dispatched.length + 1 == 1 && !publishEntry) && !isZoneLocalEvent event.event
  then s.publish crossZone event else s

theorem announce_handlers (event : ScriptEvent) (s : Chain H) :
    (s.announce crossZone publishEntry event).handlers = s.handlers := by
  unfold announce publish
  split
  · split <;> rfl
  · rfl

theorem announce_dispatched (event : ScriptEvent) (s : Chain H) :
    (s.announce crossZone publishEntry event).dispatched = s.dispatched := by
  unfold announce publish
  split
  · split <;> rfl
  · rfl

/-- An event is announced as it should be, if it is dispatched next. -/
theorem announce_published (event : ScriptEvent) {s : Chain H}
    (h : s.published = mirrored crossZone publishEntry s.dispatched) :
    (s.announce crossZone publishEntry event).published
      = mirrored crossZone publishEntry (s.dispatched ++ [event]) := by
  unfold announce publish
  unfold mirrored at h ⊢
  cases crossZone with
  | false =>
      rw [if_neg Bool.false_ne_true] at h
      simp [h]
  | true =>
      simp only [if_true] at h ⊢
      cases hlocal : isZoneLocalEvent event.event with
      | true =>
          cases publishEntry with
          | true => simpa [List.filter_append, hlocal] using h
          | false =>
              cases hd : s.dispatched with
              | nil => simpa [hd] using h
              | cons e rest => simpa [hd, List.filter_append, hlocal] using h
      | false =>
          cases publishEntry with
          | true => simp [List.filter_append, hlocal, h]
          | false =>
              cases hd : s.dispatched with
              | nil => simpa [hd] using h
              | cons e rest => simp [List.filter_append, hlocal, h, hd]

theorem announce_dropped {event : ScriptEvent} (pending : List ScriptEvent) {s : Chain H}
    (hfull : s.dispatched ≠ []) :
    (s.announce crossZone publishEntry event).published
      = s.published ++ dropped crossZone (event :: pending) := by
  have hlater : (s.dispatched.length + 1 == 1) = false := by
    have hpos := List.length_pos_iff.mpr hfull
    simp only [beq_eq_false_iff_ne]
    omega
  unfold announce publish dropped
  rw [hlater]
  cases crossZone <;> cases hlocal : isZoneLocalEvent event.event <;> simp [hlocal]

/-- One turn below the cap. -/
theorem loop_turn {turns : Nat} {event : ScriptEvent} {pending : List ScriptEvent} {s : Chain H}
    (h : s.dispatched.length < MAX_EVENT_CHAIN) :
    loop behaviour crossZone publishEntry (turns + 1) s.dispatched.length (event :: pending) s
      = loop behaviour crossZone publishEntry turns (s.dispatched.length + 1)
          (pending ++ (behaviour s.handlers event).2)
          ((s.announce crossZone publishEntry event).dispatch behaviour event).1 := by
  have hgo : ¬ s.dispatched.length + 1 > MAX_EVENT_CHAIN := by omega
  rw [loop]
  dsimp only
  rw [if_neg hgo]
  show loop _ _ _ turns _ (pending ++ (behaviour (announce crossZone publishEntry event s).handlers
    event).2) _ = _
  rw [announce_handlers]
  rfl

/-- An event that is announced and dispatched. -/
theorem dispatch_announced (behaviour : H → ScriptEvent → H × List ScriptEvent)
    (event : ScriptEvent) {s : Chain H}
    (h : s.published = mirrored crossZone publishEntry s.dispatched) :
    let s' := ((s.announce crossZone publishEntry event).dispatch behaviour event).1
    s'.dispatched.length = s.dispatched.length + 1 ∧
      s'.handlers = (behaviour s.handlers event).1 ∧
      s'.published = mirrored crossZone publishEntry s'.dispatched := by
  have hpublished := announce_published event h
  intro s'
  have hdispatched : s'.dispatched = s.dispatched ++ [event] := by
    show (s.announce crossZone publishEntry event).dispatched ++ [event] = _
    rw [announce_dispatched]
  refine ⟨?_, ?_, ?_⟩
  · rw [hdispatched, List.length_append, List.length_singleton]
  · show (behaviour (s.announce crossZone publishEntry event).handlers event).1 = _
    rw [announce_handlers]
  · rw [hdispatched]
    exact hpublished

/-- The loop ends below its turns, with what it should have published and what it dropped. -/
theorem loop_spec (turns : Nat) : ∀ (pending : List ScriptEvent) (s : Chain H),
    s.dispatched.length ≤ MAX_EVENT_CHAIN →
    MAX_EVENT_CHAIN + 2 ≤ turns + s.dispatched.length →
    s.published = mirrored crossZone publishEntry s.dispatched →
    ∃ s', loop behaviour crossZone publishEntry turns s.dispatched.length pending s = .ok s' ∧
      s'.dispatched.length ≤ MAX_EVENT_CHAIN ∧
      s'.published = mirrored crossZone publishEntry s'.dispatched
        ++ dropped crossZone
          (waiting behaviour (MAX_EVENT_CHAIN - s.dispatched.length) s.handlers pending) := by
  induction turns with
  | zero =>
      intro pending s hcap hturns _
      omega
  | succ turns ih =>
      intro pending s hcap hturns hpublished
      cases pending with
      | nil =>
          refine ⟨s, rfl, hcap, ?_⟩
          have hnone : waiting behaviour (MAX_EVENT_CHAIN - s.dispatched.length) s.handlers []
              = [] := by
            cases MAX_EVENT_CHAIN - s.dispatched.length <;> rfl
          rw [hnone, hpublished]
          unfold dropped
          simp
      | cons event pending =>
          by_cases hlast : s.dispatched.length = MAX_EVENT_CHAIN
          · have hstop : s.dispatched.length + 1 > MAX_EVENT_CHAIN := by omega
            have hfull : s.dispatched ≠ [] := by
              intro hnil
              rw [hnil] at hlast
              cases hlast
            refine ⟨s.announce crossZone publishEntry event, ?_, ?_, ?_⟩
            · rw [loop]
              dsimp only
              rw [if_pos hstop]
              rfl
            · rw [announce_dispatched]
              exact hcap
            · rw [announce_dispatched, hlast, Nat.sub_self, waiting,
                announce_dropped pending hfull, hpublished]
          · have hbelow : s.dispatched.length < MAX_EVENT_CHAIN := by omega
            obtain ⟨hlen, hhandlers, hpublished'⟩ := dispatch_announced behaviour event
              hpublished
            have hturn : MAX_EVENT_CHAIN - s.dispatched.length
                = MAX_EVENT_CHAIN - (s.dispatched.length + 1) + 1 := by omega
            obtain ⟨s', hloop, hcap', heq⟩ := ih (pending ++ (behaviour s.handlers event).2) _
              (by rw [hlen]; omega) (by rw [hlen]; omega) hpublished'
            rw [hlen] at hloop heq
            rw [hhandlers] at heq
            refine ⟨s', ?_, hcap', ?_⟩
            · rw [loop_turn hbelow]
              exact hloop
            · rw [heq, hturn]
              rfl

/-- The chain, and what of it the siblings get. -/
theorem broadcastChainInner_spec (behaviour : H → ScriptEvent → H × List ScriptEvent)
    (crossZone : Bool) (handlers : H) (event : ScriptEvent) (publishEntry : Bool) :
    ∃ s, broadcastChainInner behaviour crossZone handlers event publishEntry = .ok s ∧
      s.dispatched.length ≤ MAX_EVENT_CHAIN ∧
      s.published = mirrored crossZone publishEntry s.dispatched
        ++ dropped crossZone (waiting behaviour MAX_EVENT_CHAIN handlers [event]) := by
  refine loop_spec (MAX_EVENT_CHAIN + 2) [event] { handlers } (Nat.zero_le _) (Nat.le_refl _) ?_
  unfold mirrored
  cases crossZone <;> cases publishEntry <;> rfl

/-- Nothing is dropped that could have been published. -/
def NothingDropped (behaviour : H → ScriptEvent → H × List ScriptEvent) (crossZone : Bool)
    (handlers : H) (event : ScriptEvent) : Prop :=
  crossZone = true → ∀ e, (waiting behaviour MAX_EVENT_CHAIN handlers [event]).head? = some e →
    isZoneLocalEvent e.event = true

theorem dropped_eq_nil_iff {pending : List ScriptEvent} : dropped crossZone pending = [] ↔
    (crossZone = true → ∀ e, pending.head? = some e → isZoneLocalEvent e.event = true) := by
  unfold dropped
  cases crossZone with
  | false => simp
  | true =>
      cases pending with
      | nil => simp
      | cons e rest => simp

/-- **When the siblings get what was dispatched here.**  A chain ends after at most 64 dispatches.
The events published are those dispatched, in order, but for the zone-local ones and the entry of a
remote chain, if and only if the chain has no 65th event, or nothing may be published of it. -/
theorem mirrored_iff (behaviour : H → ScriptEvent → H × List ScriptEvent) (crossZone : Bool)
    (handlers : H) (event : ScriptEvent) (publishEntry : Bool) :
    (∃ s, broadcastChainInner behaviour crossZone handlers event publishEntry = .ok s ∧
      s.dispatched.length ≤ MAX_EVENT_CHAIN ∧
      s.published = mirrored crossZone publishEntry s.dispatched)
    ↔ NothingDropped behaviour crossZone handlers event := by
  obtain ⟨s, hrun, hcap, hpublished⟩ :=
    broadcastChainInner_spec behaviour crossZone handlers event publishEntry
  constructor
  · rintro ⟨s', hrun', -, hpublished'⟩
    rw [hrun] at hrun'
    cases hrun'
    refine dropped_eq_nil_iff.mp ?_
    exact List.self_eq_append_right.mp (hpublished'.symm.trans hpublished)
  · intro h
    refine ⟨s, hrun, hcap, ?_⟩
    rw [hpublished, dropped_eq_nil_iff.mpr h, List.append_nil]

/-- A handler that answers an event with the same event: the 65th is mirrored and not dispatched. -/
theorem echo_published_again :
    ¬ ∃ s, broadcastChainInner (fun (_ : Unit) e => ((), [e])) true () ⟨"chat", "[]"⟩ true = .ok s ∧
      s.dispatched.length ≤ MAX_EVENT_CHAIN ∧ s.published = mirrored true true s.dispatched := by
  rintro ⟨s, hrun, -, hpublished⟩
  obtain ⟨s', hrun', -, hpublished'⟩ := broadcastChainInner_spec
    (fun (_ : Unit) e => ((), [e])) true () ⟨"chat", "[]"⟩ true
  rw [hrun] at hrun'
  cases hrun'
  have hnone := List.self_eq_append_right.mp (hpublished.symm.trans hpublished')
  exact absurd hnone (by decide +kernel)

end Chain

end Baston.Scripting
