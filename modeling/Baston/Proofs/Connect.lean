/-
Who gets in, and what a client is told.

A call has its source for itself, and with it its deferral.  So what becomes of it is a matter of
what is said of its source between its registration and its end, whatever else goes on, and the
registry has its verdict as long as it holds the call.  What a call goes on with when its wait is
over, the verdict stays.

All of this is up to the point where sources are drawn a second time.
-/
import Baston.Proofs.Verdict

namespace Baston.Gateway

open Assoc Trace

variable {past : List ConnectEntry} {s s' : Connecting} {n m : Nat} {call : ConnectCall}
  {e : ConnectEntry}

/-! ### Steps -/

/-- Everything a step can do. -/
inductive Moves (s : Connecting) : ConnectOp → ConnectAnswer → Connecting → Prop
  | draw (name : String) : Moves s (.initConnect name) .none
      { s with
        players := s.players.allocateSource.1
        drawn := s.drawn + 1
        calls := s.calls.insert s.drawn
          { source := s.players.nextSource, name, identifiers := [], phase := .authenticating } }
  | refuse {n : Nat} {c : ConnectCall} (error : String) (hcall : s.calls.lookup n = some c)
      (hphase : c.phase = .authenticating) :
      Moves s (.authenticated n (.error error)) (.reply (.unauthenticated error))
        (s.goOn n c .answered)
  | ask {n : Nat} {c : ConnectCall} (identifiers : List String) (hcall : s.calls.lookup n = some c)
      (hphase : c.phase = .authenticating) :
      Moves s (.authenticated n (.ok identifiers)) .none
        { s.goOn n { c with identifiers } .handlers with
          deferrals := s.deferrals.register c.source n }
  | fail {n : Nat} {c : ConnectCall} (hcall : s.calls.lookup n = some c)
      (hphase : c.phase = .handlers) :
      Moves s (.scriptsFailed n) (.reply .internalError)
        { s.goOn n c .answered with deferrals := s.deferrals.remove c.source }
  | look {n : Nat} {c : ConnectCall} (hcall : s.calls.lookup n = some c)
      (hphase : c.phase = .handlers) :
      Moves s (.check n) .none
        (s.goOn n c (.checked (s.deferrals.shouldResolve c.source)))
  | resolve {n : Nat} {c : ConnectCall} (hcall : s.calls.lookup n = some c)
      (hphase : c.phase = .checked true) :
      Moves s (.resolve n) .none
        { s.goOn n c .waiting with deferrals := s.deferrals.done c.source none }
  | pass {n : Nat} {c : ConnectCall} (hcall : s.calls.lookup n = some c)
      (hphase : c.phase = .checked false) :
      Moves s (.resolve n) .none (s.goOn n c .waiting)
  | hear {n : Nat} {c : ConnectCall} (elapsed : Bool) (o : DeferralOutcome)
      (hcall : s.calls.lookup n = some c) (hphase : c.phase = .waiting)
      (hreceive : s.deferrals.receive n = .outcome o) :
      Moves s (.poll n elapsed) .none (s.goOn n c (.heard (some o)))
  | giveUp {n : Nat} {c : ConnectCall} (elapsed : Bool) (hcall : s.calls.lookup n = some c)
      (hphase : c.phase = .waiting)
      (hreceive : s.deferrals.receive n = .closed
        ∨ s.deferrals.receive n = .pending ∧ elapsed = true) :
      Moves s (.poll n elapsed) .none (s.goOn n c (.heard none))
  | wait {n : Nat} {c : ConnectCall} (hcall : s.calls.lookup n = some c)
      (hphase : c.phase = .waiting) :
      Moves s (.poll n false) .none s
  | remove {n : Nat} {c : ConnectCall} (outcome : Option DeferralOutcome)
      (hcall : s.calls.lookup n = some c) (hphase : c.phase = .heard outcome) :
      Moves s (.remove n) .none
        { s.goOn n c (.removed outcome) with deferrals := s.deferrals.remove c.source }
  | letIn {n : Nat} {c : ConnectCall} (token : String) (hcall : s.calls.lookup n = some c)
      (hphase : c.phase = .removed (some (.ok ()))) :
      Moves s (.conclude n token) .none
        { s.goOn n c (.inserted token) with
          players := s.players.insert
            { source := c.source, name := c.name, identifiers := c.identifiers } }
  | reject {n : Nat} {c : ConnectCall} (token reason : String) (hcall : s.calls.lookup n = some c)
      (hphase : c.phase = .removed (some (.error reason))) :
      Moves s (.conclude n token) (.reply (.rejected reason)) (s.goOn n c .answered)
  | timeOut {n : Nat} {c : ConnectCall} (token : String) (hcall : s.calls.lookup n = some c)
      (hphase : c.phase = .removed none) :
      Moves s (.conclude n token) (.reply .timedOut) (s.goOn n c .answered)
  | bind {n : Nat} {c : ConnectCall} (token : String) (hcall : s.calls.lookup n = some c)
      (hphase : c.phase = .inserted token) :
      Moves s (.bindToken n) (.reply (.accepted token))
        { s.goOn n c .answered with players := s.players.bindToken token c.source }
  | hangUp {n : Nat} {c : ConnectCall} (hcall : s.calls.lookup n = some c)
      (hphase : Connecting.awaits c.phase = true) :
      Moves s (.hangUp n) .none (s.goOn n c .dropped)
  | defer (t : UInt32) : Moves s (.defer t) .none { s with deferrals := s.deferrals.defer t }
  | update (t : UInt32) (message : String) : Moves s (.update t message) .none
      { s with deferrals := s.deferrals.update t message }
  | setKickReason (t : UInt32) (reason : String) : Moves s (.setKickReason t reason) .none
      { s with deferrals := s.deferrals.setKickReason t reason }
  | done (t : UInt32) (reason : String) : Moves s (.done t reason) .none
      { s with deferrals := Connecting.opDeferralDone s.deferrals t reason }
  | dropTokens (t : UInt32) : Moves s (.dropTokens t) .none
      { s with
        players := { s.players with
          sessionTokens := s.players.sessionTokens.retain fun _ u => u ≠ t }
        leaving := t :: s.leaving }
  | dropPlayer {t : UInt32} (ht : t ∈ s.leaving) : Moves s (.dropPlayer t) .none
      { s with
        players := { s.players with players := s.players.players.erase t }
        leaving := s.leaving.erase t }
  | present (token : String) : Moves s (.present token)
      (.source (s.players.sourceForToken token)) s

/-- What the wait comes to. -/
theorem moves_wake {elapsed : Bool} (hcall : s.calls.lookup n = some call)
    (hphase : call.phase = .waiting) :
    Moves s (.poll n elapsed) .none (s.wake n call elapsed) := by
  unfold Connecting.wake
  split
  · rename_i o hreceive
    exact .hear elapsed o hcall hphase hreceive
  · rename_i hreceive
    exact .giveUp elapsed hcall hphase (.inl hreceive)
  · rename_i hreceive
    cases elapsed with
    | true => exact .giveUp true hcall hphase (.inr ⟨hreceive, rfl⟩)
    | false => exact .wait hcall hphase

theorem moves_of_step {op : ConnectOp} {answer : ConnectAnswer}
    (hs : Connecting.step op s = some (s', answer)) : Moves s op answer s' := by
  cases op with
  | initConnect name =>
      obtain ⟨rfl, rfl⟩ := Prod.mk.inj (Option.some.inj hs)
      exact .draw name
  | defer t =>
      obtain ⟨rfl, rfl⟩ := Prod.mk.inj (Option.some.inj hs)
      exact .defer t
  | update t message =>
      obtain ⟨rfl, rfl⟩ := Prod.mk.inj (Option.some.inj hs)
      exact .update t message
  | setKickReason t reason =>
      obtain ⟨rfl, rfl⟩ := Prod.mk.inj (Option.some.inj hs)
      exact .setKickReason t reason
  | done t reason =>
      obtain ⟨rfl, rfl⟩ := Prod.mk.inj (Option.some.inj hs)
      exact .done t reason
  | dropTokens t =>
      obtain ⟨rfl, rfl⟩ := Prod.mk.inj (Option.some.inj hs)
      exact .dropTokens t
  | dropPlayer t =>
      simp only [Connecting.step] at hs
      split at hs
      · rename_i ht
        obtain ⟨rfl, rfl⟩ := Prod.mk.inj (Option.some.inj hs)
        exact .dropPlayer ht
      · cases hs
  | present token =>
      obtain ⟨rfl, rfl⟩ := Prod.mk.inj (Option.some.inj hs)
      exact .present token
  | authenticated n result =>
      obtain ⟨call, hcall, hs⟩ := Option.bind_eq_some_iff.mp hs
      split at hs
      · cases hs
      · rename_i hphase
        cases result with
        | error x =>
            obtain ⟨rfl, rfl⟩ := Prod.mk.inj (Option.some.inj hs)
            exact .refuse x hcall (not_not.mp hphase)
        | ok ids =>
            obtain ⟨rfl, rfl⟩ := Prod.mk.inj (Option.some.inj hs)
            exact .ask ids hcall (not_not.mp hphase)
  | scriptsFailed n =>
      obtain ⟨call, hcall, hs⟩ := Option.bind_eq_some_iff.mp hs
      split at hs
      · cases hs
      · rename_i hphase
        obtain ⟨rfl, rfl⟩ := Prod.mk.inj (Option.some.inj hs)
        exact .fail hcall (not_not.mp hphase)
  | check n =>
      obtain ⟨call, hcall, hs⟩ := Option.bind_eq_some_iff.mp hs
      split at hs
      · cases hs
      · rename_i hphase
        obtain ⟨rfl, rfl⟩ := Prod.mk.inj (Option.some.inj hs)
        exact .look hcall (not_not.mp hphase)
  | resolve n =>
      obtain ⟨call, hcall, hs⟩ := Option.bind_eq_some_iff.mp hs
      split at hs
      · rename_i hphase
        obtain ⟨rfl, rfl⟩ := Prod.mk.inj (Option.some.inj hs)
        exact .resolve hcall hphase
      · rename_i hphase
        obtain ⟨rfl, rfl⟩ := Prod.mk.inj (Option.some.inj hs)
        exact .pass hcall hphase
      · cases hs
  | poll n elapsed =>
      obtain ⟨call, hcall, hs⟩ := Option.bind_eq_some_iff.mp hs
      split at hs
      · cases hs
      · rename_i hphase
        obtain ⟨rfl, rfl⟩ := Prod.mk.inj (Option.some.inj hs)
        exact moves_wake hcall (not_not.mp hphase)
  | remove n =>
      obtain ⟨call, hcall, hs⟩ := Option.bind_eq_some_iff.mp hs
      split at hs
      · rename_i outcome hphase
        obtain ⟨rfl, rfl⟩ := Prod.mk.inj (Option.some.inj hs)
        exact .remove outcome hcall hphase
      · cases hs
  | conclude n token =>
      obtain ⟨call, hcall, hs⟩ := Option.bind_eq_some_iff.mp hs
      split at hs
      · rename_i outcome hphase
        have hs := Option.some.inj hs
        unfold Connecting.conclude at hs
        split at hs
        · obtain ⟨rfl, rfl⟩ := Prod.mk.inj hs
          exact .letIn token hcall hphase
        · obtain ⟨rfl, rfl⟩ := Prod.mk.inj hs
          exact .reject token _ hcall hphase
        · obtain ⟨rfl, rfl⟩ := Prod.mk.inj hs
          exact .timeOut token hcall hphase
      · cases hs
  | bindToken n =>
      obtain ⟨call, hcall, hs⟩ := Option.bind_eq_some_iff.mp hs
      split at hs
      · rename_i token hphase
        obtain ⟨rfl, rfl⟩ := Prod.mk.inj (Option.some.inj hs)
        exact .bind token hcall hphase
      · cases hs
  | hangUp n =>
      obtain ⟨call, hcall, hs⟩ := Option.bind_eq_some_iff.mp hs
      split at hs
      · rename_i hphase
        obtain ⟨rfl, rfl⟩ := Prod.mk.inj (Option.some.inj hs)
        exact .hangUp hcall hphase
      · cases hs

/-! ### Calls under way -/

/-- A call has given up: when it looked for the last time its time was up, and nothing had been
decided. -/
def GaveUp (n : Nat) (past : List ConnectEntry) : Prop :=
  ∃ since poll before deferred seen, past = since ++ poll :: before ∧ poll.op = .poll n true ∧
    verdict n before = .pending deferred seen ∧ ∀ x ∈ since, ∀ elapsed, x.op ≠ .poll n elapsed

/-- What is known of the outcome a call has gone on with: it is the verdict, or there was none
when the call gave up. -/
def Outcome (past : List ConnectEntry) (n : Nat) : Option DeferralOutcome → Prop
  | some o => verdict n past = .settled o
  | none => GaveUp n past

theorem not_poll (h : ¬ Concerns n e.op) (elapsed : Bool) : e.op ≠ .poll n elapsed := by
  intro hop
  rw [hop] at h
  exact h rfl

theorem Outcome.cons {outcome : Option DeferralOutcome} (h : Outcome past n outcome)
    (hpoll : ∀ elapsed, e.op ≠ .poll n elapsed) : Outcome (e :: past) n outcome := by
  cases outcome with
  | some o => exact verdict_settled_cons h
  | none =>
      obtain ⟨since, poll, before, deferred, seen, rfl, hop, hbefore, hlast⟩ := h
      exact ⟨e :: since, poll, before, deferred, seen, rfl, hop, hbefore,
        List.forall_mem_cons.mpr ⟨hpoll, hlast⟩⟩

/-- What is known of a call in a phase. -/
def Fits (past : List ConnectEntry) (d : DeferralRegistry) (n : Nat) : ConnectPhase → Prop
  | .authenticating => verdict n past = .unasked ∧ d.inner.lookup (sourceOf n) = none ∧
      d.sent.lookup n = none
  | .handlers => Held (verdict n past) d n ∧
      ∀ deferred seen, verdict n past = .pending deferred seen → seen = false
  | .checked shouldResolve => Held (verdict n past) d n ∧
      ∀ deferred seen, verdict n past = .pending deferred seen → seen = shouldResolve
  | .waiting => Held (verdict n past) d n
  | .heard outcome => Held (verdict n past) d n ∧ Outcome past n outcome
  | .removed outcome => d.inner.lookup (sourceOf n) = none ∧ Outcome past n outcome
  | .inserted _ => d.inner.lookup (sourceOf n) = none ∧ Outcome past n (some (.ok ()))
  | .answered => d.inner.lookup (sourceOf n) = none
  | .dropped => True

variable {d d' : DeferralRegistry} {phase : ConnectPhase}

/-- What does not concern a call and leaves its entry and its channel alone. -/
theorem Fits.frame (h : Fits past d n phase) (hquiet : ¬ Concerns n e.op)
    (hinner : d'.inner.lookup (sourceOf n) = d.inner.lookup (sourceOf n))
    (hsent : d'.sent.lookup n = d.sent.lookup n) : Fits (e :: past) d' n phase := by
  cases phase with
  | authenticating => simpa only [Fits, verdict_cons hquiet, hinner, hsent] using h
  | handlers | checked shouldResolve =>
      rw [Fits, verdict_cons hquiet]
      exact ⟨h.1.frame hinner hsent, h.2⟩
  | waiting =>
      rw [Fits, verdict_cons hquiet]
      exact Held.frame h hinner hsent
  | heard outcome =>
      rw [Fits, verdict_cons hquiet]
      exact ⟨h.1.frame hinner hsent, h.2.cons (not_poll hquiet)⟩
  | removed outcome | inserted token => exact ⟨hinner.trans h.1, h.2.cons (not_poll hquiet)⟩
  | answered => exact hinner.trans h
  | dropped => trivial

/-- What scripts say of a call, the registry hears while it holds the call, and nobody after. -/
theorem Fits.script (h : Fits past d n phase) (hpoll : ∀ elapsed, e.op ≠ .poll n elapsed)
    (hheld : ∀ v, Held v d n → Held (v.hear n e.op) d' n)
    (hunasked : Verdict.unasked.hear n e.op = .unasked)
    (hseen : ∀ {deferred seen deferred' seen'},
      (Verdict.pending deferred seen).hear n e.op = .pending deferred' seen' → seen' = seen)
    (hinner : d.inner.lookup (sourceOf n) = none → d'.inner.lookup (sourceOf n) = none)
    (hsent : d.inner.lookup (sourceOf n) = none → d'.sent.lookup n = d.sent.lookup n) :
    Fits (e :: past) d' n phase := by
  have hkeeps : ∀ {b : Bool},
      (∀ deferred seen, verdict n past = .pending deferred seen → seen = b) →
      ∀ deferred seen, verdict n (e :: past) = .pending deferred seen → seen = b := by
    intro b hb deferred seen hv
    simp only [verdict] at hv
    cases hp : verdict n past with
    | unasked =>
        rw [hp, hunasked] at hv
        cases hv
    | settled o =>
        rw [hp, hear_settled] at hv
        cases hv
    | pending deferred' seen' =>
        rw [hp] at hv
        rw [hseen hv]
        exact hb deferred' seen' hp
  cases phase with
  | authenticating =>
      refine ⟨?_, hinner h.2.1, (hsent h.2.1).trans h.2.2⟩
      rw [verdict, h.1, hunasked]
  | handlers | checked shouldResolve => exact ⟨hheld _ h.1, hkeeps h.2⟩
  | waiting => exact hheld _ h
  | heard outcome => exact ⟨hheld _ h.1, h.2.cons hpoll⟩
  | removed outcome | inserted token => exact ⟨hinner h.1, h.2.cons hpoll⟩
  | answered => exact hinner h
  | dropped => trivial

/-- The phases in which the registry may hold a call. -/
def ConnectPhase.mayHold : ConnectPhase → Bool
  | .handlers | .checked _ | .waiting | .heard _ | .dropped => true
  | _ => false

/-- The calls, and the deferrals that wait for them. -/
structure Door (past : List ConnectEntry) (s : Connecting) : Prop where
  next : s.players.nextSource = sourceOf s.drawn
  call : ∀ {n call}, s.calls.lookup n = some call →
    n < s.drawn ∧ call.source = sourceOf n ∧ Fits past s.deferrals n call.phase
  unborn : ∀ {n}, s.calls.lookup n = none →
    verdict n past = .unasked ∧ s.deferrals.sent.lookup n = none
  entry : ∀ {t entry}, s.deferrals.inner.lookup t = some entry →
    ∃ n call, s.calls.lookup n = some call ∧ t = sourceOf n ∧ call.phase.mayHold = true ∧
      ∀ k, entry.tx = some k → k = n

theorem door_init : Door [] {} where
  next := by decide
  call h := by cases h
  unborn _ := ⟨rfl, rfl⟩
  entry h := by cases h

namespace Door

/-- A call goes on, and the other calls do not notice. -/
theorem turn (door : Door past s) (hcall : s.calls.lookup n = some call)
    (hroom : s.drawn ≤ 2 ^ 32) {call' : ConnectCall}
    (hcalls : s'.calls = s.calls.insert n call') (hsource : call'.source = call.source)
    (hdrawn : s'.drawn = s.drawn) (hnext : s'.players.nextSource = s.players.nextSource)
    (hquiet : ∀ m, m ≠ n → sourceOf m ≠ sourceOf n → ¬ Concerns m e.op)
    (hunasked : ∀ m, m ≠ n → Verdict.unasked.hear m e.op = .unasked)
    (hinner : ∀ t, t ≠ sourceOf n →
      s'.deferrals.inner.lookup t = s.deferrals.inner.lookup t)
    (hsent : ∀ m, m ≠ n → s'.deferrals.sent.lookup m = s.deferrals.sent.lookup m)
    (hholds : ∀ entry, s'.deferrals.inner.lookup (sourceOf n) = some entry →
      call'.phase.mayHold = true ∧ ∀ k, entry.tx = some k → k = n)
    (hfits : Fits (e :: past) s'.deferrals n call'.phase) : Door (e :: past) s' where
  next := by
    rw [hnext, hdrawn]
    exact door.next
  call := by
    intro m call hm
    rw [hcalls, Map.lookup_insert_of] at hm
    split at hm
    · rename_i hmn
      obtain rfl := Option.some.inj hm
      rw [hmn, hdrawn, hsource]
      exact ⟨(door.call hcall).1, (door.call hcall).2.1, hfits⟩
    · rename_i hmn
      obtain ⟨hlt, hsrc, hfit⟩ := door.call hm
      have hne : sourceOf m ≠ sourceOf n := fun h =>
        hmn (sourceOf_inj (by omega) (by have := (door.call hcall).1; omega) h)
      rw [hdrawn]
      exact ⟨hlt, hsrc, hfit.frame (hquiet m hmn hne) (hinner _ hne) (hsent m hmn)⟩
  unborn := by
    intro m hm
    rw [hcalls, Map.lookup_insert_of] at hm
    split at hm
    · cases hm
    · rename_i hmn
      obtain ⟨hv, hnone⟩ := door.unborn hm
      refine ⟨?_, (hsent m hmn).trans hnone⟩
      rw [verdict, hv, hunasked m hmn]
  entry := by
    intro t entry ht
    by_cases htn : t = sourceOf n
    · subst htn
      refine ⟨n, call', ?_, rfl, hholds entry ht⟩
      rw [hcalls, Map.lookup_insert_of, if_pos rfl]
    · rw [hinner t htn] at ht
      obtain ⟨m, callM, hm, rfl, hphase, htx⟩ := door.entry ht
      refine ⟨m, callM, ?_, rfl, hphase, htx⟩
      rw [hcalls, Map.lookup_insert_of, if_neg (fun h => htn (by rw [h]))]
      exact hm

/-- A call goes on and the registry stays as it is. -/
theorem turn_same (door : Door past s) (hcall : s.calls.lookup n = some call)
    (hroom : s.drawn ≤ 2 ^ 32) {phase : ConnectPhase}
    (hcalls : s'.calls = s.calls.insert n { call with phase })
    (hdrawn : s'.drawn = s.drawn) (hnext : s'.players.nextSource = s.players.nextSource)
    (hdeferrals : s'.deferrals = s.deferrals) (hquiet : ∀ m, m ≠ n → ¬ Concerns m e.op)
    (hholds : call.phase.mayHold = true → s.deferrals.inner.lookup (sourceOf n) ≠ none →
      phase.mayHold = true)
    (hfits : Fits (e :: past) s.deferrals n phase) : Door (e :: past) s' := by
  refine door.turn hcall hroom hcalls rfl hdrawn hnext (fun m hm _ => hquiet m hm)
    (fun m hm => hear_of_not_concerns (hquiet m hm) _) (fun _ _ => by rw [hdeferrals])
    (fun _ _ => by rw [hdeferrals]) ?_ (by rw [hdeferrals]; exact hfits)
  intro entry hentry
  rw [hdeferrals] at hentry
  obtain ⟨m, callM, hm, heq, hphase, htx⟩ := door.entry hentry
  have hmn : m = n :=
    sourceOf_inj (by have := (door.call hm).1; omega) (by have := (door.call hcall).1; omega)
      heq.symm
  subst hmn
  rw [hcall] at hm
  obtain rfl := Option.some.inj hm
  exact ⟨hholds hphase (by rw [hentry]; simp), htx⟩

/-- The registry has been told something of a source, or nothing has happened to it at all. -/
theorem script (door : Door past s) (hcalls : s'.calls = s.calls) (hdrawn : s'.drawn = s.drawn)
    (hnext : s'.players.nextSource = s.players.nextSource)
    (hunasked : ∀ n, Verdict.unasked.hear n e.op = .unasked)
    (hfits : ∀ {n call}, s.calls.lookup n = some call → Fits past s.deferrals n call.phase →
      Fits (e :: past) s'.deferrals n call.phase)
    (hsent : ∀ n, s.calls.lookup n = none →
      s'.deferrals.sent.lookup n = s.deferrals.sent.lookup n)
    (hentry : ∀ {t entry'}, s'.deferrals.inner.lookup t = some entry' →
      ∃ entry, s.deferrals.inner.lookup t = some entry ∧
        ∀ k, entry'.tx = some k → entry.tx = some k) : Door (e :: past) s' where
  next := by
    rw [hnext, hdrawn]
    exact door.next
  call := by
    intro m call hm
    rw [hcalls] at hm
    rw [hdrawn]
    obtain ⟨hlt, hsrc, hfit⟩ := door.call hm
    exact ⟨hlt, hsrc, hfits hm hfit⟩
  unborn := by
    intro m hm
    rw [hcalls] at hm
    obtain ⟨hv, hnone⟩ := door.unborn hm
    refine ⟨?_, (hsent m hm).trans hnone⟩
    rw [verdict, hv, hunasked m]
  entry := by
    intro t entry' ht
    obtain ⟨entry, hold, hkeep⟩ := hentry ht
    obtain ⟨m, callM, hm, hsrc, hphase, htx⟩ := door.entry hold
    rw [hcalls]
    exact ⟨m, callM, hm, hsrc, hphase, fun k hk => htx k (hkeep k hk)⟩

/-- A step that leaves the calls and the deferrals alone. -/
theorem idle (door : Door past s) (hcalls : s'.calls = s.calls) (hdrawn : s'.drawn = s.drawn)
    (hnext : s'.players.nextSource = s.players.nextSource)
    (hdeferrals : s'.deferrals = s.deferrals) (hquiet : ∀ n, ¬ Concerns n e.op) :
    Door (e :: past) s' := by
  refine door.script hcalls hdrawn hnext (fun n => hear_of_not_concerns (hquiet n) _) ?_ ?_ ?_
  · intro n call _ hfit
    rw [hdeferrals]
    exact hfit.frame (hquiet n) rfl rfl
  · intro n _
    rw [hdeferrals]
  · intro t entry ht
    rw [hdeferrals] at ht
    exact ⟨entry, ht, fun _ hk => hk⟩

/-- Something is written into the entry of a source, which the verdict takes as it is meant. -/
theorem write (door : Door past s) {t : UInt32} {f : DeferralEntry → DeferralEntry}
    {op : ConnectOp} {answer : ConnectAnswer}
    (hd : d' = { s.deferrals with inner := s.deferrals.inner.modify t f })
    (htx : ∀ entry, (f entry).tx = entry.tx) (hpoll : ∀ n elapsed, op ≠ .poll n elapsed)
    (hquiet : ∀ n, t ≠ sourceOf n → ¬ Concerns n op)
    (hunasked : ∀ n, Verdict.unasked.hear n op = .unasked)
    (hheld : ∀ {n v}, t = sourceOf n → Held v s.deferrals n → Held (v.hear n op) d' n)
    (hseen : ∀ {n deferred seen deferred' seen'},
      (Verdict.pending deferred seen).hear n op = .pending deferred' seen' → seen' = seen) :
    Door (⟨s, op, answer, { s with deferrals := d' }⟩ :: past) { s with deferrals := d' } := by
  have hinner : ∀ u, d'.inner.lookup u
      = if u = t then (s.deferrals.inner.lookup u).map f else s.deferrals.inner.lookup u := by
    intro u
    rw [hd, Map.lookup_modify]
  have hsent : d'.sent = s.deferrals.sent := by rw [hd]
  refine door.script rfl rfl rfl hunasked ?_ (fun n _ => by rw [hsent]) ?_
  · intro n call _ hfit
    by_cases ht : t = sourceOf n
    · refine hfit.script (hpoll n) (fun v hv => hheld ht hv) (hunasked n) hseen ?_
        (fun _ => by rw [hsent])
      intro hnone
      rw [hinner, if_pos ht.symm, hnone]
      rfl
    · refine hfit.frame (hquiet n ht) ?_ (by rw [hsent])
      rw [hinner, if_neg fun h => ht h.symm]
  · intro u entry' hu
    rw [hinner] at hu
    split at hu
    · obtain ⟨entry, hentry, rfl⟩ := Option.map_eq_some_iff.mp hu
      exact ⟨entry, hentry, fun k hk => by rwa [htx] at hk⟩
    · exact ⟨entry', hu, fun _ hk => hk⟩

/-- Something is written into an entry that is not about the decision. -/
theorem note (door : Door past s) {t : UInt32} {f : DeferralEntry → DeferralEntry}
    {op : ConnectOp} {answer : ConnectAnswer}
    (hd : d' = { s.deferrals with inner := s.deferrals.inner.modify t f })
    (hf : ∀ entry, (f entry).tx = entry.tx ∧ (f entry).deferred = entry.deferred)
    (hquiet : ∀ n, ¬ Concerns n op) :
    Door (⟨s, op, answer, { s with deferrals := d' }⟩ :: past) { s with deferrals := d' } := by
  refine door.write hd (fun entry => (hf entry).1) (fun n elapsed hop => hquiet n (hop ▸ rfl))
    (fun n _ => hquiet n) (fun n => hear_of_not_concerns (hquiet n) _) ?_ ?_
  · intro n v ht hv
    rw [hear_of_not_concerns (hquiet n)]
    obtain ⟨entry, hentry, hv⟩ := hv
    refine ⟨f entry, ?_, ?_⟩
    · rw [hd, ht, Map.lookup_modify_self, hentry]
      rfl
    · rw [(hf entry).1, (hf entry).2, hd]
      exact hv
  · intro n deferred seen deferred' seen' h
    rw [hear_of_not_concerns (hquiet n)] at h
    exact (Verdict.pending.inj h).2.symm

theorem defer (door : Door past s) {t : UInt32} {answer : ConnectAnswer} :
    Door (⟨s, .defer t, answer, { s with deferrals := s.deferrals.defer t }⟩ :: past)
      { s with deferrals := s.deferrals.defer t } := by
  refine door.write rfl (fun _ => rfl) (by simp) (fun n h => h) (fun _ => rfl) ?_ ?_
  · rintro n v rfl hv
    exact hv.defer
  · intro n deferred seen deferred' seen' h
    simp only [Verdict.hear] at h
    split at h <;> exact (Verdict.pending.inj h).2.symm

/-- The channel in an entry is the channel of the call that has the source. -/
theorem tx_eq (door : Door past s) {t : UInt32} {k : Nat}
    (h : (s.deferrals.inner.lookup t).bind (·.tx) = some k) :
    t = sourceOf k ∧ ∃ call, s.calls.lookup k = some call := by
  obtain ⟨entry, hentry, htx⟩ := Option.bind_eq_some_iff.mp h
  obtain ⟨n, call, hcall, rfl, -, hown⟩ := door.entry hentry
  obtain rfl := hown k htx
  exact ⟨rfl, call, hcall⟩

/-- `done` of a script. -/
theorem done (door : Door past s) {t : UInt32} {reason : String} {answer : ConnectAnswer} :
    Door (⟨s, .done t reason, answer,
        { s with deferrals := Connecting.opDeferralDone s.deferrals t reason }⟩ :: past)
      { s with deferrals := Connecting.opDeferralDone s.deferrals t reason } := by
  unfold Connecting.opDeferralDone
  refine door.script rfl rfl rfl (fun _ => rfl) ?_ ?_ ?_
  · intro n call _ hfit
    by_cases ht : t = sourceOf n
    · subst ht
      refine hfit.script (by simp) ?_ rfl ?_ ?_ ?_
      · intro v hv
        have hsettled := hv.settle (if reason = "" then none else some reason)
        cases v with
        | unasked | settled o => exact hsettled
        | pending deferred seen =>
            simp only [Verdict.hear, if_pos, ← DeferralRegistry.outcomeOf_op]
            exact hsettled
      · intro deferred seen deferred' seen' h
        simp [Verdict.hear] at h
      · intro hnone
        rw [DeferralRegistry.lookup_done_self, hnone]
        rfl
      · intro hnone
        exact DeferralRegistry.sent_done_ne (by rw [hnone]; simp)
    · refine hfit.frame ht (DeferralRegistry.lookup_done_ne fun h => ht h.symm) ?_
      exact DeferralRegistry.sent_done_ne fun h => ht (door.tx_eq h).1
  · intro n hn
    refine DeferralRegistry.sent_done_ne fun h => ?_
    obtain ⟨-, call, hcall⟩ := door.tx_eq h
    rw [hn] at hcall
    cases hcall
  · intro u entry' hu
    by_cases hut : u = t
    · subst hut
      rw [DeferralRegistry.lookup_done_self] at hu
      obtain ⟨entry, hentry, rfl⟩ := Option.map_eq_some_iff.mp hu
      exact ⟨entry, hentry, fun k hk => by cases hk⟩
    · rw [DeferralRegistry.lookup_done_ne hut] at hu
      exact ⟨entry', hu, fun _ hk => hk⟩

/-- A source is drawn. -/
theorem draw (door : Door past s) (hroom : s.drawn < 2 ^ 32) {name : String}
    {answer : ConnectAnswer} (hs' : s' = { s with
      players := s.players.allocateSource.1
      drawn := s.drawn + 1
      calls := s.calls.insert s.drawn
        { source := s.players.nextSource, name, identifiers := [], phase := .authenticating } }) :
    Door (⟨s, .initConnect name, answer, s'⟩ :: past) s' := by
  subst hs'
  have hquiet : ∀ m, ¬ Concerns m (.initConnect name) := fun _ h => h
  have hfresh : s.calls.lookup s.drawn = none := by
    cases h : s.calls.lookup s.drawn with
    | none => rfl
    | some call => exact absurd (door.call h).1 (Nat.lt_irrefl _)
  constructor
  · simp only [PlayerDirectory.allocateSource, door.next, sourceOf_succ]
  · intro m call hm
    simp only [Map.lookup_insert_of] at hm
    split at hm
    · rename_i hmn
      obtain rfl := Option.some.inj hm
      subst hmn
      refine ⟨Nat.lt_succ_self _, door.next, ?_, ?_, (door.unborn hfresh).2⟩
      · exact (verdict_cons (hquiet _)).trans (door.unborn hfresh).1
      · cases hentry : s.deferrals.inner.lookup (sourceOf s.drawn) with
        | none => rfl
        | some entry =>
            obtain ⟨k, callK, hk, heq, -⟩ := door.entry hentry
            have hlt := (door.call hk).1
            have := sourceOf_inj hroom (by omega) heq
            omega
    · obtain ⟨hlt, hsrc, hfit⟩ := door.call hm
      exact ⟨Nat.lt_succ_of_lt hlt, hsrc, hfit.frame (hquiet m) rfl rfl⟩
  · intro m hm
    simp only [Map.lookup_insert_of] at hm
    split at hm
    · cases hm
    · exact ⟨(verdict_cons (hquiet _)).trans (door.unborn hm).1, (door.unborn hm).2⟩
  · intro t entry ht
    obtain ⟨m, callM, hm, hsrc, hrest⟩ := door.entry ht
    refine ⟨m, callM, ?_, hsrc, hrest⟩
    have hlt := (door.call hm).1
    simp only [Map.lookup_insert_of, if_neg (Nat.ne_of_lt hlt)]
    exact hm

/-- A call is registered. -/
theorem register (door : Door past s) (hcall : s.calls.lookup n = some call)
    (hroom : s.drawn ≤ 2 ^ 32) (hphase : call.phase = .authenticating) {ids : List String}
    {answer : ConnectAnswer}
    (hs' : s' = { s.goOn n { call with identifiers := ids } .handlers with
      deferrals := s.deferrals.register call.source n }) :
    Door (⟨s, .authenticated n (.ok ids), answer, s'⟩ :: past) s' := by
  obtain ⟨-, hsrc, hfit⟩ := door.call hcall
  rw [hphase] at hfit
  subst hs'
  refine door.turn hcall hroom rfl rfl rfl rfl (fun m hm _ h => hm h.symm) ?_ ?_
    (fun _ _ => rfl) ?_ ?_
  · intro m hm
    exact if_neg fun h => hm h.symm
  · intro t ht
    simp only [DeferralRegistry.register, hsrc, Map.lookup_insert_of, if_neg ht]
  · intro entry hentry
    simp only [DeferralRegistry.register, hsrc, Map.lookup_insert_of, if_pos] at hentry
    obtain rfl := Option.some.inj hentry
    exact ⟨rfl, fun k hk => (Option.some.inj hk).symm⟩
  · have hv : ∀ post, verdict n (⟨s, .authenticated n (.ok ids), answer, post⟩ :: past)
        = .pending false false := by
      intro post
      rw [verdict, hfit.1]
      exact if_pos rfl
    refine ⟨⟨.new n, ?_, ?_⟩, ?_⟩
    · simp only [DeferralRegistry.register, hsrc, Map.lookup_insert_of, if_pos]
    · rw [hv]
      exact ⟨rfl, rfl, hfit.2.2⟩
    · intro deferred seen h
      rw [hv] at h
      exact (Verdict.pending.inj h).2.symm

/-- A call is taken out of the registry. -/
theorem remove (door : Door past s) (hcall : s.calls.lookup n = some call)
    (hroom : s.drawn ≤ 2 ^ 32) {phase : ConnectPhase}
    (hcalls : s'.calls = s.calls.insert n { call with phase })
    (hdrawn : s'.drawn = s.drawn) (hplayers : s'.players = s.players)
    (hdeferrals : s'.deferrals = s.deferrals.remove call.source)
    (hquiet : ∀ m, ¬ Concerns m e.op)
    (hfits : ∀ d : DeferralRegistry, d.inner.lookup (sourceOf n) = none →
      Fits (e :: past) d n phase) : Door (e :: past) s' := by
  obtain ⟨-, hsrc, -⟩ := door.call hcall
  have hgone : s'.deferrals.inner.lookup (sourceOf n) = none := by
    rw [hdeferrals, hsrc]
    exact (Map.lookup_erase_of _ _ _).trans (if_pos rfl)
  refine door.turn hcall hroom hcalls rfl hdrawn (by rw [hplayers]) (fun m _ _ => hquiet m)
    (fun m _ => hear_of_not_concerns (hquiet m) _) ?_ (fun _ _ => by rw [hdeferrals]; rfl) ?_
    (hfits _ hgone)
  · intro t ht
    rw [hdeferrals, hsrc]
    exact (Map.lookup_erase_of _ _ _).trans (if_neg ht)
  · intro entry hentry
    rw [hgone] at hentry
    cases hentry

/-- The host decides. -/
theorem resolve (door : Door past s) (hcall : s.calls.lookup n = some call)
    (hroom : s.drawn ≤ 2 ^ 32) (hphase : call.phase = .checked true) {answer : ConnectAnswer}
    (hs' : s' = { s.goOn n call .waiting with
      deferrals := s.deferrals.done call.source none }) :
    Door (⟨s, .resolve n, answer, s'⟩ :: past) s' := by
  obtain ⟨-, hsrc, hfit⟩ := door.call hcall
  rw [hphase] at hfit
  have hquiet : ∀ m, m ≠ n → ¬ Concerns m (.resolve n) := fun m hm h => hm h.symm
  subst hs'
  refine door.turn hcall hroom rfl rfl rfl rfl (fun m hm _ => hquiet m hm)
    (fun m hm => hear_of_not_concerns (hquiet m hm) _) ?_ ?_ ?_ ?_
  · intro t ht
    rw [hsrc]
    exact DeferralRegistry.lookup_done_ne ht
  · intro m hm
    rw [hsrc]
    refine DeferralRegistry.sent_done_ne fun h => ?_
    obtain ⟨heq, callM, hcallM⟩ := door.tx_eq h
    exact hm (sourceOf_inj (by have := (door.call hcallM).1; omega)
      (by have := (door.call hcall).1; omega) heq.symm)
  · intro entry hentry
    rw [hsrc, DeferralRegistry.lookup_done_self] at hentry
    obtain ⟨entry', -, rfl⟩ := Option.map_eq_some_iff.mp hentry
    exact ⟨rfl, fun k hk => by cases hk⟩
  · have hheld := hfit.1.settle none
    have hseen := hfit.2
    simp only [Fits, hsrc, verdict]
    cases hv : verdict n past with
    | unasked =>
        rw [hv] at hheld
        exact hheld
    | settled o =>
        rw [hv] at hheld
        exact hheld
    | pending deferred seen =>
        rw [hv] at hheld
        obtain rfl := hseen deferred seen hv
        rw [Verdict.hear, if_pos ⟨rfl, rfl⟩]
        exact hheld

/-- The host looks. -/
theorem check (door : Door past s) (hcall : s.calls.lookup n = some call)
    (hroom : s.drawn ≤ 2 ^ 32) (hphase : call.phase = .handlers) {answer : ConnectAnswer}
    (hs' : s' = s.goOn n call (.checked (s.deferrals.shouldResolve call.source))) :
    Door (⟨s, .check n, answer, s'⟩ :: past) s' := by
  obtain ⟨-, hsrc, hfit⟩ := door.call hcall
  rw [hphase] at hfit
  subst hs'
  refine door.turn_same hcall hroom rfl rfl rfl rfl (fun m hm h => hm h.symm) (fun _ _ => rfl) ?_
  have hsees := hfit.1.shouldResolve
  obtain ⟨hheld, hseen⟩ := hfit
  rw [hsrc, hsees]
  simp only [Fits, verdict]
  cases hv : verdict n past with
  | unasked =>
      rw [hv] at hheld
      exact absurd hheld (by rintro ⟨entry, -, h⟩; exact h)
  | settled o =>
      rw [hv] at hheld
      exact ⟨hheld, fun deferred seen h => by cases h⟩
  | pending deferred seen =>
      rw [hv] at hheld
      obtain rfl := hseen deferred seen hv
      rw [Verdict.hear, if_pos rfl]
      refine ⟨hheld, ?_⟩
      intro deferred' seen' h
      obtain ⟨rfl, rfl⟩ := Verdict.pending.inj h
      rfl

/-- The host leaves the decision to whoever has deferred or decided. -/
theorem pass (door : Door past s) (hcall : s.calls.lookup n = some call)
    (hroom : s.drawn ≤ 2 ^ 32) (hphase : call.phase = .checked false)
    {answer : ConnectAnswer} :
    Door (⟨s, .resolve n, answer, s.goOn n call .waiting⟩ :: past)
      (s.goOn n call .waiting) := by
  obtain ⟨-, hsrc, hfit⟩ := door.call hcall
  rw [hphase] at hfit
  obtain ⟨hheld, hseen⟩ := hfit
  refine door.turn_same hcall hroom rfl rfl rfl rfl (fun m hm h => hm h.symm) (fun _ _ => rfl) ?_
  simp only [Fits, verdict]
  cases hv : verdict n past with
  | unasked =>
      rw [hv] at hheld
      exact absurd hheld (by rintro ⟨entry, -, h⟩; exact h)
  | settled o =>
      rw [hv] at hheld
      exact hheld
  | pending deferred seen =>
      rw [hv] at hheld
      obtain rfl := hseen deferred seen hv
      rw [Verdict.hear, if_neg (by simp)]
      exact hheld

/-- The wait is over. -/
theorem hear (door : Door past s) (hcall : s.calls.lookup n = some call)
    (hroom : s.drawn ≤ 2 ^ 32) (hphase : call.phase = .waiting)
    {outcome : Option DeferralOutcome} {elapsed : Bool} {answer : ConnectAnswer}
    (hout : Outcome
      (⟨s, .poll n elapsed, answer, s.goOn n call (.heard outcome)⟩ :: past) n outcome) :
    Door (⟨s, .poll n elapsed, answer, s.goOn n call (.heard outcome)⟩ :: past)
      (s.goOn n call (.heard outcome)) := by
  obtain ⟨-, hsrc, hfit⟩ := door.call hcall
  rw [hphase] at hfit
  refine door.turn_same hcall hroom rfl rfl rfl rfl (fun m hm h => hm h.symm) (fun _ _ => rfl)
    ⟨?_, hout⟩
  rw [verdict_poll]
  exact hfit

/-- The wait goes on. -/
theorem wait (door : Door past s) (hcall : s.calls.lookup n = some call)
    (hphase : call.phase = .waiting) {answer : ConnectAnswer} :
    Door (⟨s, .poll n false, answer, s⟩ :: past) s := by
  refine door.script rfl rfl rfl (fun _ => rfl) ?_ (fun _ _ => rfl)
    (fun h => ⟨_, h, fun _ hk => hk⟩)
  intro m callM hm hfit
  by_cases hmn : n = m
  · subst hmn
    obtain rfl := Option.some.inj (hcall.symm.trans hm)
    rw [hphase] at hfit ⊢
    rw [Fits, verdict_poll]
    exact hfit
  · exact hfit.frame hmn rfl rfl

/-- **Every step keeps it**, until sources are drawn a second time. -/
theorem step (door : Door past s) {op : ConnectOp} {answer : ConnectAnswer}
    (hs : Connecting.step op s = some (s', answer)) (hroom : s'.drawn ≤ 2 ^ 32) :
    Door (⟨s, op, answer, s'⟩ :: past) s' := by
  cases moves_of_step hs with
  | draw name => exact door.draw hroom rfl
  | refuse error hcall hphase =>
      obtain ⟨-, -, hfit⟩ := door.call hcall
      rw [hphase] at hfit
      exact door.turn_same hcall hroom rfl rfl rfl rfl (fun m hm h => hm h.symm)
        (fun h _ => by rw [hphase] at h; cases h) hfit.2.1
  | ask identifiers hcall hphase => exact door.register hcall hroom hphase rfl
  | fail hcall hphase =>
      exact door.remove hcall hroom rfl rfl rfl rfl (fun _ h => h) fun _ hgone => hgone
  | look hcall hphase => exact door.check hcall hroom hphase rfl
  | resolve hcall hphase => exact door.resolve hcall hroom hphase rfl
  | pass hcall hphase => exact door.pass hcall hroom hphase
  | hear elapsed o hcall hphase hreceive =>
      obtain ⟨-, -, hfit⟩ := door.call hcall
      rw [hphase] at hfit
      have hreceived := hreceive.symm.trans (Held.receive hfit)
      refine door.hear hcall hroom hphase (verdict_settled_cons ?_)
      cases hv : verdict _ past with
      | settled o' =>
          rw [hv] at hreceived
          rw [DeferralRegistry.Received.outcome.inj hreceived]
      | unasked | pending _ _ =>
          rw [hv] at hreceived
          cases hreceived
  | giveUp elapsed hcall hphase hreceive =>
      obtain ⟨-, -, hfit⟩ := door.call hcall
      rw [hphase] at hfit
      refine door.hear hcall hroom hphase ?_
      rw [Held.receive hfit] at hreceive
      cases hv : verdict _ past with
      | settled o =>
          rw [hv] at hreceive
          rcases hreceive with h | ⟨h, -⟩
          · cases h
          · cases h
      | pending deferred seen =>
          rw [hv] at hreceive
          rcases hreceive with h | ⟨-, rfl⟩
          · cases h
          · exact ⟨[], _, past, deferred, seen, rfl, rfl, hv, by simp⟩
      | unasked =>
          obtain ⟨entry, -, hnever⟩ := hfit
          rw [hv] at hnever
          exact hnever.elim
  | wait hcall hphase => exact door.wait hcall hphase
  | remove outcome hcall hphase =>
      obtain ⟨-, -, hfit⟩ := door.call hcall
      rw [hphase] at hfit
      exact door.remove hcall hroom rfl rfl rfl rfl (fun _ h => h)
        fun _ hgone => ⟨hgone, hfit.2.cons (by simp)⟩
  | letIn token hcall hphase =>
      obtain ⟨-, -, hfit⟩ := door.call hcall
      rw [hphase] at hfit
      exact door.turn_same hcall hroom rfl rfl rfl rfl (fun m _ h => h)
        (fun _ hne => absurd hfit.1 hne) ⟨hfit.1, hfit.2.cons (by simp)⟩
  | reject token reason hcall hphase | timeOut token hcall hphase | bind token hcall hphase =>
      obtain ⟨-, -, hfit⟩ := door.call hcall
      rw [hphase] at hfit
      exact door.turn_same hcall hroom rfl rfl rfl rfl (fun m _ h => h)
        (fun _ hne => absurd hfit.1 hne) hfit.1
  | hangUp hcall hphase =>
      exact door.turn_same hcall hroom rfl rfl rfl rfl (fun m _ h => h) (fun _ _ => rfl) trivial
  | defer t => exact door.defer
  | update t message => exact door.note rfl (fun _ => ⟨rfl, rfl⟩) fun _ h => h
  | setKickReason t reason => exact door.note rfl (fun _ => ⟨rfl, rfl⟩) fun _ h => h
  | done t reason => exact door.done
  | dropTokens t => exact door.idle rfl rfl rfl rfl fun _ h => h
  | dropPlayer ht => exact door.idle rfl rfl rfl rfl fun _ h => h
  | present token => exact door.idle rfl rfl rfl rfl fun _ h => h

end Door

theorem drawn_le {op : ConnectOp} {answer : ConnectAnswer}
    (hs : Connecting.step op s = some (s', answer)) : s.drawn ≤ s'.drawn := by
  cases moves_of_step hs with
  | draw name => exact Nat.le_succ _
  | _ => exact Nat.le_refl _

/-! ### Tickets -/

/-- The phases of a call that has been authenticated and not answered. -/
def ConnectPhase.asked : ConnectPhase → Bool
  | .handlers | .checked _ | .waiting | .heard _ | .removed _ | .inserted _ => true
  | _ => false

/-- What has happened to a call since the scripts were asked about it. -/
def Asked (past : List ConnectEntry) (n : Nat) (ids : List String) : Prop :=
  ∃ since ask before, past = since ++ ask :: before ∧ Ask n ids ask before

theorem Asked.cons {ids : List String} (h : Asked past n ids) : Asked (e :: past) n ids := by
  obtain ⟨since, ask, before, rfl, hask⟩ := h
  exact ⟨e :: since, ask, before, rfl, hask⟩

/-- A call under way has the identifiers of its own ticket. -/
def Tickets (past : List ConnectEntry) (s : Connecting) : Prop :=
  ∀ {n call}, s.calls.lookup n = some call → call.phase.asked = true →
    Asked past n call.identifiers

namespace Tickets

theorem idle (tickets : Tickets past s) (hcalls : s'.calls = s.calls) :
    Tickets (e :: past) s' := by
  intro n call hcall hphase
  rw [hcalls] at hcall
  exact (tickets hcall hphase).cons

theorem goOn (tickets : Tickets past s) {phase : ConnectPhase}
    (hcall : s.calls.lookup n = some call)
    (hcalls : s'.calls = s.calls.insert n { call with phase })
    (hphase : phase.asked = true → call.phase.asked = true) : Tickets (e :: past) s' := by
  intro m call' hm hasked
  rw [hcalls, Map.lookup_insert_of] at hm
  split at hm
  · rename_i hmn
    obtain rfl := Option.some.inj hm
    rw [hmn]
    exact (tickets hcall (hphase hasked)).cons
  · exact (tickets hm hasked).cons

theorem step (tickets : Tickets past s) (door : Door past s) {op : ConnectOp}
    {answer : ConnectAnswer} (hs : Connecting.step op s = some (s', answer)) :
    Tickets (⟨s, op, answer, s'⟩ :: past) s' := by
  cases moves_of_step hs with
  | draw name =>
      intro m call hm hasked
      simp only [Map.lookup_insert_of] at hm
      split at hm
      · obtain rfl := Option.some.inj hm
        cases hasked
      · exact (tickets hm hasked).cons
  | ask identifiers hcall hphase =>
      obtain ⟨-, -, hfit⟩ := door.call hcall
      rw [hphase] at hfit
      intro m call hm hasked
      simp only [Connecting.goOn, Map.lookup_insert_of] at hm
      split at hm
      · rename_i hmn
        obtain rfl := Option.some.inj hm
        rw [hmn]
        exact ⟨[], _, past, rfl, rfl, hfit.1⟩
      · exact (tickets hm hasked).cons
  | fail hcall hphase => exact tickets.goOn hcall rfl fun h => by cases h
  | refuse error hcall hphase => exact tickets.goOn hcall rfl fun h => by cases h
  | look hcall hphase | resolve hcall hphase | pass hcall hphase =>
      exact tickets.goOn hcall rfl fun _ => by rw [hphase]; rfl
  | hear elapsed o hcall hphase hreceive => exact tickets.goOn hcall rfl fun _ => by rw [hphase]; rfl
  | giveUp elapsed hcall hphase hreceive =>
      exact tickets.goOn hcall rfl fun _ => by rw [hphase]; rfl
  | wait hcall hphase => exact tickets.idle rfl
  | remove outcome hcall hphase => exact tickets.goOn hcall rfl fun _ => by rw [hphase]; rfl
  | letIn token hcall hphase => exact tickets.goOn hcall rfl fun _ => by rw [hphase]; rfl
  | reject token reason hcall hphase => exact tickets.goOn hcall rfl fun h => by cases h
  | timeOut token hcall hphase => exact tickets.goOn hcall rfl fun h => by cases h
  | bind token hcall hphase => exact tickets.goOn hcall rfl fun h => by cases h
  | hangUp hcall hphase => exact tickets.goOn hcall rfl fun h => by cases h
  | _ => exact tickets.idle rfl

end Tickets

/-! ### Who is in -/

/-- A call was let in, with the identifiers of its ticket. -/
def Admitted (past : List ConnectEntry) (n : Nat) (ids : List String) : Prop :=
  Asked past n ids ∧ verdict n past = .settled (.ok ())

theorem Admitted.cons {ids : List String} (h : Admitted past n ids) : Admitted (e :: past) n ids :=
  ⟨h.1.cons, verdict_settled_cons h.2⟩

/-- A token was given to a call that was let in, and the tokens of its source have not been
dropped since. -/
def Bound (past : List ConnectEntry) (token : String) (source : UInt32) : Prop :=
  ∃ n ids later bind before, past = later ++ bind :: before ∧ bind.op = .bindToken n ∧
    bind.answer = .reply (.accepted token) ∧ source = sourceOf n ∧ Admitted before n ids ∧
      ∀ x ∈ later, x.op ≠ .dropTokens source

theorem Bound.cons {token : String} {source : UInt32} (h : Bound past token source)
    (hop : e.op ≠ .dropTokens source) : Bound (e :: past) token source := by
  obtain ⟨n, ids, later, bind, before, rfl, hbind, hanswer, hsource, hadmitted, hkept⟩ := h
  exact ⟨n, ids, e :: later, bind, before, rfl, hbind, hanswer, hsource, hadmitted,
    List.forall_mem_cons.mpr ⟨hop, hkept⟩⟩

/-- Those in the directory have been let in. -/
structure Guests (past : List ConnectEntry) (s : Connecting) : Prop where
  token : ∀ {token source}, s.players.sessionTokens.lookup token = some source →
    Bound past token source
  player : ∀ {source info}, s.players.players.lookup source = some info →
    info.source = source ∧ ∃ n, source = sourceOf n ∧ Admitted past n info.identifiers

namespace Guests

theorem idle (guests : Guests past s)
    (htokens : s'.players.sessionTokens = s.players.sessionTokens)
    (hplayers : s'.players.players = s.players.players)
    (hop : ∀ t, e.op ≠ .dropTokens t) : Guests (e :: past) s' where
  token h := (guests.token (htokens ▸ h)).cons (hop _)
  player h := by
    rw [hplayers] at h
    obtain ⟨hsource, n, hn, hadmitted⟩ := guests.player h
    exact ⟨hsource, n, hn, hadmitted.cons⟩

theorem step (guests : Guests past s) (door : Door past s) (tickets : Tickets past s)
    {op : ConnectOp} {answer : ConnectAnswer}
    (hs : Connecting.step op s = some (s', answer)) : Guests (⟨s, op, answer, s'⟩ :: past) s' := by
  cases moves_of_step hs with
  | @letIn n call token hcall hphase =>
      obtain ⟨-, hsrc, hfit⟩ := door.call hcall
      rw [hphase] at hfit
      refine ⟨fun h => (guests.token h).cons (by simp), ?_⟩
      intro source info h
      simp only [PlayerDirectory.insert, Map.lookup_insert_of] at h
      split at h
      · rename_i heq
        obtain rfl := Option.some.inj h
        exact ⟨heq.symm, n, heq.trans hsrc,
          (tickets hcall (by rw [hphase]; rfl)).cons, verdict_settled_cons hfit.2⟩
      · obtain ⟨hsource, m, hm, hadmitted⟩ := guests.player h
        exact ⟨hsource, m, hm, hadmitted.cons⟩
  | @bind n call token hcall hphase =>
      obtain ⟨-, hsrc, hfit⟩ := door.call hcall
      rw [hphase] at hfit
      refine ⟨?_, ?_⟩
      · intro token' source h
        simp only [PlayerDirectory.bindToken, Map.lookup_insert_of] at h
        split at h
        · rename_i heq
          subst heq
          obtain rfl := Option.some.inj h
          exact ⟨n, call.identifiers, [], _, past, rfl, rfl, rfl, hsrc,
            ⟨tickets hcall (by rw [hphase]; rfl), hfit.2⟩, by simp⟩
        · exact (guests.token h).cons (by simp)
      · intro source info h
        obtain ⟨hsource, m, hm, hadmitted⟩ := guests.player h
        exact ⟨hsource, m, hm, hadmitted.cons⟩
  | dropTokens t =>
      refine ⟨?_, ?_⟩
      · intro token source h
        simp only [Map.lookup_retain] at h
        obtain ⟨hold, hne⟩ := Option.filter_eq_some_iff.mp h
        refine (guests.token hold).cons ?_
        rintro ⟨⟩
        simp at hne
      · intro source info h
        obtain ⟨hsource, m, hm, hadmitted⟩ := guests.player h
        exact ⟨hsource, m, hm, hadmitted.cons⟩
  | dropPlayer ht =>
      refine ⟨fun h => (guests.token h).cons (by simp), ?_⟩
      intro source info h
      simp only [Map.lookup_erase_of] at h
      split at h
      · cases h
      · obtain ⟨hsource, m, hm, hadmitted⟩ := guests.player h
        exact ⟨hsource, m, hm, hadmitted.cons⟩
  | _ => exact guests.idle rfl rfl (by simp)

end Guests

theorem tickets_init : Tickets [] {} := by
  intro n call h
  cases h

theorem guests_init : Guests [] {} where
  token h := by cases h
  player h := by cases h

/-- What is known after every run. -/
theorem known_after (run : Run Connecting.step {} past s) (hroom : s.drawn ≤ 2 ^ 32) :
    Door past s ∧ Tickets past s ∧ Guests past s := by
  induction run with
  | nil => exact ⟨door_init, tickets_init, guests_init⟩
  | snoc run h ih =>
      obtain ⟨door, tickets, guests⟩ := ih (by have := drawn_le h; omega)
      exact ⟨door.step h hroom, tickets.step door h, guests.step door tickets h⟩

theorem Admitted.history {ids : List String} (h : Admitted past n ids) :
    ∃ since ask before, past = since ++ ask :: before ∧
      ask.op = .authenticated n (.ok ids) ∧ LetIn n since := by
  obtain ⟨⟨since, ask, before, rfl, hask⟩, hv⟩ := h
  exact ⟨since, ask, before, rfl, hask.op, letIn_of_settled hask hv⟩

/-- **Whoever is in has been let in.**  A token that speaks for a source was given to the call
that drew it, and its tokens have not been dropped since; a player in the directory has the
identifiers of the ticket its own call came with.  Either has been let in after the scripts were
asked: by the first to decide, or by the host, which looked before anybody deferred and was not
forestalled. -/
theorem only_the_admitted_are_in (run : Run Connecting.step {} past s)
    (hroom : s.drawn ≤ 2 ^ 32) :
    (∀ token source, s.players.sourceForToken token = some source →
      ∃ n ids later bind since ask before, source = sourceOf n ∧
        past = later ++ bind :: (since ++ ask :: before) ∧
        bind.op = .bindToken n ∧ bind.answer = .reply (.accepted token) ∧
        (∀ x ∈ later, x.op ≠ .dropTokens source) ∧
        ask.op = .authenticated n (.ok ids) ∧ LetIn n since) ∧
    ∀ source info, s.players.players.lookup source = some info →
      info.source = source ∧ ∃ n since ask before, source = sourceOf n ∧
        past = since ++ ask :: before ∧
        ask.op = .authenticated n (.ok info.identifiers) ∧ LetIn n since := by
  obtain ⟨-, -, guests⟩ := known_after run hroom
  constructor
  · intro token source h
    obtain ⟨n, ids, later, bind, before, rfl, hbind, hanswer, hsource, hadmitted, hkept⟩ :=
      guests.token h
    obtain ⟨since, ask, before, rfl, hask, hlet⟩ := hadmitted.history
    exact ⟨n, ids, later, bind, since, ask, before, hsource, rfl, hbind, hanswer, hkept, hask,
      hlet⟩
  · intro source info h
    obtain ⟨hsource, n, hn, hadmitted⟩ := guests.player h
    obtain ⟨since, ask, before, rfl, hask, hlet⟩ := hadmitted.history
    exact ⟨hsource, n, since, ask, before, hn, rfl, hask, hlet⟩

/-- A player whom a script defers and lets in, with another one beside it. -/
def deferredAndLetIn : List ConnectOp :=
  [.initConnect "ann", .initConnect "ben", .authenticated 1 (.ok ["license:2"]),
    .authenticated 0 (.ok ["license:1"]), .defer 1, .done 2 "full", .check 0, .resolve 0,
    .poll 0 false, .done 1 "", .poll 0 false, .remove 0, .conclude 0 "t", .bindToken 0]

/-- A run of `only_the_admitted_are_in` with a player in it. -/
theorem ann_was_let_in : ∃ past s, Run Connecting.step {} past s ∧
    s.players.sourceForToken "t" = some 1 ∧
    ∃ n ids later bind since ask before, (1 : UInt32) = sourceOf n ∧
      past = later ++ bind :: (since ++ ask :: before) ∧
      bind.op = .bindToken n ∧ bind.answer = .reply (.accepted "t") ∧
      (∀ x ∈ later, x.op ≠ .dropTokens 1) ∧
      ask.op = .authenticated n (.ok ids) ∧ LetIn n since := by
  have run := run_of_ops Connecting.step {} deferredAndLetIn rfl
  exact ⟨_, _, run, rfl, (only_the_admitted_are_in run (by decide)).1 "t" 1 rfl⟩

/-! ### What a client is told -/

/-- The call an operation is a step of. -/
def ConnectOp.caller : ConnectOp → Option Nat
  | .authenticated n _ | .scriptsFailed n | .check n | .resolve n | .poll n _ | .remove n
  | .conclude n _ | .bindToken n | .hangUp n => some n
  | _ => none

/-- A call has been answered. -/
def Over (s : Connecting) (n : Nat) : Prop :=
  ∃ call, s.calls.lookup n = some call ∧ call.phase = .answered

namespace Over

theorem same (h : Over s n) (hcalls : s'.calls = s.calls) : Over s' n := by
  obtain ⟨call, hcall, hphase⟩ := h
  exact ⟨call, hcalls ▸ hcall, hphase⟩

/-- A call that goes on is another one. -/
theorem other (h : Over s n) {call' : ConnectCall} (hcall : s.calls.lookup m = some call)
    (hphase : call.phase ≠ .answered) (hcalls : s'.calls = s.calls.insert m call') :
    some m ≠ some n ∧ Over s' n := by
  obtain ⟨callN, hcallN, hover⟩ := h
  have hmn : n ≠ m := by
    rintro rfl
    rw [hcall] at hcallN
    obtain rfl := Option.some.inj hcallN
    exact hphase hover
  refine ⟨fun heq => hmn (Option.some.inj heq).symm, callN, ?_, hover⟩
  rw [hcalls, Map.lookup_insert_of, if_neg hmn]
  exact hcallN

/-- A call that has been answered does nothing more. -/
theorem step (h : Over s n) (door : Door past s) {op : ConnectOp} {answer : ConnectAnswer}
    (hs : Connecting.step op s = some (s', answer)) : op.caller ≠ some n ∧ Over s' n := by
  cases moves_of_step hs with
  | draw name =>
      obtain ⟨call, hcall, hover⟩ := h
      refine ⟨by simp [ConnectOp.caller], call, ?_, hover⟩
      have hlt := (door.call hcall).1
      simp only [Map.lookup_insert_of, if_neg (Nat.ne_of_lt hlt)]
      exact hcall
  | refuse error hcall hphase => exact h.other hcall (by rw [hphase]; simp) rfl
  | ask identifiers hcall hphase => exact h.other hcall (by rw [hphase]; simp) rfl
  | fail hcall hphase => exact h.other hcall (by rw [hphase]; simp) rfl
  | look hcall hphase => exact h.other hcall (by rw [hphase]; simp) rfl
  | resolve hcall hphase => exact h.other hcall (by rw [hphase]; simp) rfl
  | pass hcall hphase => exact h.other hcall (by rw [hphase]; simp) rfl
  | hear elapsed o hcall hphase hreceive => exact h.other hcall (by rw [hphase]; simp) rfl
  | giveUp elapsed hcall hphase hreceive => exact h.other hcall (by rw [hphase]; simp) rfl
  | remove outcome hcall hphase => exact h.other hcall (by rw [hphase]; simp) rfl
  | letIn token hcall hphase => exact h.other hcall (by rw [hphase]; simp) rfl
  | reject token reason hcall hphase => exact h.other hcall (by rw [hphase]; simp) rfl
  | timeOut token hcall hphase => exact h.other hcall (by rw [hphase]; simp) rfl
  | bind token hcall hphase => exact h.other hcall (by rw [hphase]; simp) rfl
  | hangUp hcall hphase =>
      refine h.other hcall ?_ rfl
      intro heq
      rw [heq] at hphase
      cases hphase
  | @wait k call hcall hphase =>
      refine ⟨?_, h⟩
      rintro heq
      obtain rfl := Option.some.inj heq
      obtain ⟨call', hcall', hover⟩ := h
      rw [hcall] at hcall'
      obtain rfl := Option.some.inj hcall'
      rw [hphase] at hover
      cases hover
  | _ => exact ⟨by simp [ConnectOp.caller], h.same rfl⟩

end Over

/-- A call is under way. -/
def ConnectPhase.underway : ConnectPhase → Bool
  | .answered | .dropped => false
  | _ => true

/-- How many steps a call has before it at most. -/
def ConnectPhase.left : ConnectPhase → Nat
  | .authenticating => 7
  | .handlers => 6
  | .checked _ => 5
  | .waiting => 4
  | .heard _ => 3
  | .removed _ => 2
  | .inserted _ => 1
  | .answered | .dropped => 0

/-- The steps of a call that nobody fails, with what its ticket is found to be and the token that is
drawn for it. -/
def ownSteps (n : Nat) (result : Except String (List String)) (token : String) :
    List ConnectOp :=
  [.authenticated n result, .check n, .resolve n, .poll n true, .remove n, .conclude n token,
    .bindToken n]

/-- A call goes on with `k` steps before it at most, or its client is told something. -/
inductive GoesOn (s' : Connecting) (n k : Nat) : ConnectAnswer → Prop
  | told (r : ConnectReply) : GoesOn s' n k (.reply r)
  | on {call : ConnectCall} (answer : ConnectAnswer) (hcall : s'.calls.lookup n = some call)
      (hphase : call.phase.underway = true) (hleft : call.phase.left = k) : GoesOn s' n k answer

theorem goesOn_insert {answer : ConnectAnswer} {k : Nat} {call' : ConnectCall}
    (hcalls : s'.calls = s.calls.insert n call') (hphase : call'.phase.underway = true)
    (hleft : call'.phase.left = k) : GoesOn s' n k answer := by
  refine .on answer ?_ hphase hleft
  rw [hcalls, Map.lookup_insert_of, if_pos rfl]

/-- The end of the wait is a step on, whatever it finds. -/
theorem goesOn_wake : GoesOn (s.wake n call true) n 3 .none := by
  unfold Connecting.wake
  split
  · exact goesOn_insert rfl rfl rfl
  · exact goesOn_insert rfl rfl rfl
  · exact goesOn_insert rfl rfl rfl

/-- The last step but one tells the client, or lets the player in. -/
theorem goesOn_conclude (token : String) (outcome : Option DeferralOutcome) :
    GoesOn (s.conclude n call token outcome).1 n 1 (s.conclude n call token outcome).2 := by
  match outcome with
  | some (.ok ()) => exact goesOn_insert rfl rfl rfl
  | some (.error reason) => exact .told _
  | none => exact .told _

/-- A call under way has a next step of its own, which takes it on. -/
theorem own_step {k : Nat} (hcall : s.calls.lookup n = some call)
    (hphase : call.phase.underway = true) (hleft : call.phase.left = k + 1)
    (result : Except String (List String)) (token : String) :
    ∃ op ∈ ownSteps n result token, ∃ s' answer, Connecting.step op s = some (s', answer) ∧
      GoesOn s' n k answer := by
  have hstep {op : ConnectOp} {f : ConnectCall → Option (Connecting × ConnectAnswer)}
      {s' : Connecting} {answer : ConnectAnswer} (hop : Connecting.step op s = s.advance n f)
      (hf : f call = some (s', answer)) : Connecting.step op s = some (s', answer) := by
    rw [hop, Connecting.advance, hcall, Option.bind_some, hf]
  cases hat : call.phase with
  | authenticating =>
      obtain rfl : k = 6 := by simpa [hat, ConnectPhase.left] using hleft
      refine ⟨.authenticated n result, by simp [ownSteps], ?_⟩
      cases result with
      | error x => exact ⟨_, _, hstep rfl (if_neg (not_not.mpr hat)), .told _⟩
      | ok ids => exact ⟨_, _, hstep rfl (if_neg (not_not.mpr hat)), goesOn_insert rfl rfl rfl⟩
  | handlers =>
      obtain rfl : k = 5 := by simpa [hat, ConnectPhase.left] using hleft
      exact ⟨.check n, by simp [ownSteps], _, _, hstep rfl (if_neg (not_not.mpr hat)),
        goesOn_insert rfl rfl rfl⟩
  | checked shouldResolve =>
      obtain rfl : k = 4 := by simpa [hat, ConnectPhase.left] using hleft
      refine ⟨.resolve n, by simp [ownSteps], ?_⟩
      cases shouldResolve with
      | true => exact ⟨_, _, hstep rfl (by rw [hat]), goesOn_insert rfl rfl rfl⟩
      | false => exact ⟨_, _, hstep rfl (by rw [hat]), goesOn_insert rfl rfl rfl⟩
  | waiting =>
      obtain rfl : k = 3 := by simpa [hat, ConnectPhase.left] using hleft
      exact ⟨.poll n true, by simp [ownSteps], _, _, hstep rfl (if_neg (not_not.mpr hat)),
        goesOn_wake⟩
  | heard outcome =>
      obtain rfl : k = 2 := by simpa [hat, ConnectPhase.left] using hleft
      exact ⟨.remove n, by simp [ownSteps], _, _, hstep rfl (by rw [hat]),
        goesOn_insert rfl rfl rfl⟩
  | removed outcome =>
      obtain rfl : k = 1 := by simpa [hat, ConnectPhase.left] using hleft
      exact ⟨.conclude n token, by simp [ownSteps], _, _, hstep rfl (by rw [hat]),
        goesOn_conclude token outcome⟩
  | inserted token' =>
      exact ⟨.bindToken n, by simp [ownSteps], _, _, hstep rfl (by rw [hat]), .told _⟩
  | answered | dropped =>
      rw [hat] at hphase
      cases hphase

end Baston.Gateway
