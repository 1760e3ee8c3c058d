/-
What is decided about a call that connects.

The verdict is what the operations make of a call between its registration and its end: the
first to decide decides, and if the host looks while nobody has deferred, the host does unless
somebody is faster.  A verdict that lets a call in can be read back: it was a script, or it was
the host.  The registry has the verdict of every call it holds.
-/
import Baston.Gateway.Connect

namespace Baston.Gateway

open Assoc Trace

abbrev ConnectEntry := Entry Connecting ConnectOp ConnectAnswer

/-- The source of the call that draws as number `n`. -/
def sourceOf (n : Nat) : UInt32 := UInt32.ofNat (n + 1)

theorem sourceOf_succ (n : Nat) : sourceOf (n + 1) = sourceOf n + 1 := UInt32.ofNat_add (n + 1) 1

theorem sourceOf_inj {m n : Nat} (hm : m < 2 ^ 32) (hn : n < 2 ^ 32)
    (h : sourceOf m = sourceOf n) : m = n := by
  have hnat : (m + 1) % 2 ^ 32 = (n + 1) % 2 ^ 32 := by
    have := congrArg UInt32.toNat h
    simpa only [sourceOf, UInt32.toNat_ofNat'] using this
  omega

/-! ### The verdict -/

/-- What has been decided about a call. -/
inductive Verdict
  /-- The scripts have not been asked. -/
  | unasked
  /-- Nothing yet; `seen` when the host has looked and found that nobody had deferred. -/
  | pending (deferred seen : Bool)
  | settled (outcome : DeferralOutcome)

/-- What an operation does to the verdict about a call. -/
def Verdict.hear (n : Nat) : Verdict → ConnectOp → Verdict
  | .unasked, .authenticated m (.ok _) => if m = n then .pending false false else .unasked
  | .pending deferred seen, .check m =>
    if m = n then .pending deferred (seen || !deferred) else .pending deferred seen
  | .pending deferred seen, .resolve m =>
    if m = n ∧ seen = true then .settled (.ok ()) else .pending deferred seen
  | .pending deferred seen, .defer t =>
    if t = sourceOf n then .pending true seen else .pending deferred seen
  | .pending deferred seen, .done t reason =>
    if t = sourceOf n then .settled (if reason = "" then .ok () else .error reason)
    else .pending deferred seen
  | v, _ => v

/-- The verdict about a call, by all that has happened. -/
def verdict (n : Nat) : List ConnectEntry → Verdict
  | [] => .unasked
  | e :: past => (verdict n past).hear n e.op

variable {past : List ConnectEntry} {s s' : Connecting} {n m : Nat} {call : ConnectCall}
  {e : ConnectEntry}

/-- The operations that say something of a call, and those that look for what was said. -/
def Concerns (n : Nat) : ConnectOp → Prop
  | .authenticated m _ | .check m | .resolve m | .poll m _ => m = n
  | .defer t | .done t _ => t = sourceOf n
  | _ => False

theorem hear_of_not_concerns {op : ConnectOp} (h : ¬ Concerns n op) (v : Verdict) :
    v.hear n op = v := by
  cases v with
  | settled o => cases op <;> rfl
  | unasked =>
      cases op with
      | authenticated m result =>
          cases result with
          | error x => rfl
          | ok ids => exact if_neg h
      | _ => rfl
  | pending deferred seen =>
      cases op with
      | check m | defer t | done t reason => exact if_neg h
      | resolve m => exact if_neg fun hc => h hc.1
      | _ => rfl

theorem hear_settled (o : DeferralOutcome) (op : ConnectOp) :
    (Verdict.settled o).hear n op = .settled o := by
  cases op <;> rfl

theorem verdict_cons (h : ¬ Concerns n e.op) : verdict n (e :: past) = verdict n past :=
  hear_of_not_concerns h _

theorem verdict_settled_cons {o : DeferralOutcome} (h : verdict n past = .settled o) :
    verdict n (e :: past) = .settled o := by
  simp only [verdict, h, hear_settled]

/-- Looking decides nothing. -/
theorem verdict_poll {elapsed : Bool} {answer : ConnectAnswer} :
    verdict n (⟨s, .poll m elapsed, answer, s'⟩ :: past) = verdict n past := by
  rw [verdict]
  cases verdict n past with
  | unasked | pending deferred seen | settled o => rfl

/-- Once the scripts have been asked, they have been asked. -/
theorem ne_unasked_append (h : verdict n past ≠ .unasked) (later : List ConnectEntry) :
    verdict n (later ++ past) ≠ .unasked := by
  induction later with
  | nil => exact h
  | cons e later ih =>
      rw [List.cons_append, verdict]
      cases hv : verdict n (later ++ past) with
      | unasked => exact absurd hv ih
      | settled o => simp [hear_settled]
      | pending d k =>
          cases e.op with
          | check m | resolve m | defer t | done t reason =>
              simp only [Verdict.hear]
              split <;> simp
          | _ => simp [Verdict.hear]

/-! ### What a verdict says of the past -/

/-- Nobody has decided about a call in `es`. -/
def NoneDone (n : Nat) (es : List ConnectEntry) : Prop :=
  ∀ x ∈ es, ∀ reason, x.op ≠ .done (sourceOf n) reason

/-- Nobody has deferred a call in `es`. -/
def NoneDeferred (n : Nat) (es : List ConnectEntry) : Prop :=
  ∀ x ∈ es, x.op ≠ .defer (sourceOf n)

/-- By what has happened since the scripts were asked, newest first, a call may come in: somebody
has let it in before anybody decided, or the host has, which had looked before anybody deferred
and was not forestalled. -/
inductive LetIn (n : Nat) : List ConnectEntry → Prop
  | byScript (later : List ConnectEntry) {between : List ConnectEntry} {e : ConnectEntry}
      (hop : e.op = .done (sourceOf n) "") (hfirst : NoneDone n between) :
      LetIn n (later ++ e :: between)
  | byHost (later : List ConnectEntry) {between before : List ConnectEntry}
      {e look : ConnectEntry}
      (hop : e.op = .resolve n) (hlook : look.op = .check n)
      (hfirst : NoneDone n (between ++ look :: before)) (hfree : NoneDeferred n before) :
      LetIn n (later ++ e :: (between ++ look :: before))

/-- The past since the scripts were asked about a call that nobody has decided about. -/
structure Undecided (n : Nat) (deferred seen : Bool) (since : List ConnectEntry) : Prop where
  done : NoneDone n since
  deferred : deferred = false → NoneDeferred n since
  seen : seen = true → ∃ between look before, since = between ++ look :: before ∧
    look.op = .check n ∧ NoneDeferred n before

theorem Undecided.cons {deferred deferred' seen seen' : Bool} {since : List ConnectEntry}
    (h : Undecided n deferred seen since) (hdone : ∀ reason, e.op ≠ .done (sourceOf n) reason)
    (hdeferred : deferred' = false → deferred = false ∧ e.op ≠ .defer (sourceOf n))
    (hseen : seen' = true → seen = true ∨ (e.op = .check n ∧ deferred = false)) :
    Undecided n deferred' seen' (e :: since) where
  done := by
    intro x hx
    rcases List.mem_cons.mp hx with rfl | hx
    · exact hdone
    · exact h.done x hx
  deferred := by
    intro hd x hx
    rcases List.mem_cons.mp hx with rfl | hx
    · exact (hdeferred hd).2
    · exact h.deferred (hdeferred hd).1 x hx
  seen := by
    intro hs
    rcases hseen hs with hs | ⟨hop, hd⟩
    · obtain ⟨between, look, before, rfl, hrest⟩ := h.seen hs
      exact ⟨e :: between, look, before, rfl, hrest⟩
    · exact ⟨[], e, since, rfl, hop, h.deferred hd⟩

/-- The scripts were asked about a call with the identifiers of its ticket, and not before. -/
structure Ask (n : Nat) (ids : List String) (ask : ConnectEntry) (before : List ConnectEntry) :
    Prop where
  op : ask.op = .authenticated n (.ok ids)
  first : verdict n before = .unasked

variable {ids : List String} {ask : ConnectEntry} {before : List ConnectEntry}

theorem Ask.verdict (h : Ask n ids ask before) :
    verdict n (ask :: before) = .pending false false := by
  rw [Gateway.verdict, h.first, h.op]
  exact if_pos rfl

theorem undecided_of_pending (hask : Ask n ids ask before) : ∀ {since : List ConnectEntry}
    {deferred seen : Bool}, verdict n (since ++ ask :: before) = .pending deferred seen →
      Undecided n deferred seen since := by
  intro since
  induction since with
  | nil =>
      intro deferred seen h
      obtain ⟨rfl, rfl⟩ := Verdict.pending.inj (hask.verdict.symm.trans h)
      exact ⟨by simp [NoneDone], by simp [NoneDeferred], by simp⟩
  | cons e since ih =>
      intro deferred seen h
      obtain ⟨pre, op, answer, post⟩ := e
      simp only [List.cons_append, verdict] at h
      cases hv : verdict n (since ++ ask :: before) with
      | settled o =>
          rw [hv, hear_settled] at h
          cases h
      | unasked =>
          exact absurd hv (ne_unasked_append (by rw [hask.verdict]; simp) since)
      | pending d k =>
          have hopen := ih hv
          rw [hv] at h
          cases op with
          | check m =>
              simp only [Verdict.hear] at h
              split at h
              · rename_i hm
                obtain ⟨rfl, rfl⟩ := Verdict.pending.inj h
                refine hopen.cons (by simp) (by simp) ?_
                intro hk
                cases hd : d with
                | true => exact .inl (by simpa [hd] using hk)
                | false => exact .inr ⟨by rw [hm], rfl⟩
              · obtain ⟨rfl, rfl⟩ := Verdict.pending.inj h
                exact hopen.cons (by simp) (by simp) .inl
          | resolve m =>
              simp only [Verdict.hear] at h
              split at h
              · cases h
              · obtain ⟨rfl, rfl⟩ := Verdict.pending.inj h
                exact hopen.cons (by simp) (by simp) .inl
          | defer t =>
              simp only [Verdict.hear] at h
              split at h
              · obtain ⟨rfl, rfl⟩ := Verdict.pending.inj h
                exact hopen.cons (by simp) (by simp) .inl
              · rename_i ht
                obtain ⟨rfl, rfl⟩ := Verdict.pending.inj h
                exact hopen.cons (by simp) (fun hd => ⟨hd, by simpa using ht⟩) .inl
          | done t reason =>
              simp only [Verdict.hear] at h
              split at h
              · cases h
              · rename_i ht
                obtain ⟨rfl, rfl⟩ := Verdict.pending.inj h
                exact hopen.cons (by simp [ht]) (by simp) .inl
          | _ =>
              obtain ⟨rfl, rfl⟩ := Verdict.pending.inj h
              exact hopen.cons (by simp) (by simp) .inl

/-- A verdict that lets a call in has one of the two reasons. -/
theorem letIn_of_settled (hask : Ask n ids ask before) : ∀ {since : List ConnectEntry},
    verdict n (since ++ ask :: before) = .settled (.ok ()) → LetIn n since := by
  intro since
  induction since with
  | nil =>
      intro h
      rw [List.nil_append, hask.verdict] at h
      cases h
  | cons e since ih =>
      intro h
      obtain ⟨pre, op, answer, post⟩ := e
      simp only [List.cons_append, verdict] at h
      cases hv : verdict n (since ++ ask :: before) with
      | settled o =>
          rw [hv, hear_settled] at h
          obtain rfl := Verdict.settled.inj h
          cases ih hv with
          | byScript later hop hfirst => exact .byScript (_ :: _) hop hfirst
          | byHost later hop hlook hfirst hfree =>
              exact .byHost (_ :: _) hop hlook hfirst hfree
      | unasked =>
          exact absurd hv (ne_unasked_append (by rw [hask.verdict]; simp) since)
      | pending d k =>
          have hopen := undecided_of_pending hask hv
          rw [hv] at h
          cases op with
          | resolve m =>
              simp only [Verdict.hear] at h
              split at h
              · rename_i hm
                obtain ⟨rfl, rfl⟩ := hm
                obtain ⟨between, look, rest, rfl, hlook, hfree⟩ := hopen.seen rfl
                exact .byHost [] rfl hlook hopen.done hfree
              · cases h
          | done t reason =>
              simp only [Verdict.hear] at h
              split at h
              · rename_i ht
                subst ht
                split at h
                · rename_i hreason
                  subst hreason
                  exact .byScript [] rfl hopen.done
                · cases h
              · cases h
          | check m | defer t =>
              simp only [Verdict.hear] at h
              split at h <;> cases h
          | _ => cases h

/-! ### The registry -/

namespace DeferralRegistry

variable {d d' : DeferralRegistry} {t source : UInt32} {tx : Nat}

theorem outcomeOf_op (reason : String) :
    outcomeOf (if reason = "" then none else some reason)
      = if reason = "" then .ok () else .error reason := by
  by_cases h : reason = ""
  · simp [outcomeOf, h]
  · simp [outcomeOf, h, Option.filter]

theorem done_of_tx {reason : Option String} (h : (d.inner.lookup source).bind (·.tx) = some tx) :
    d.done source reason =
      { inner := d.inner.modify source fun e => { e with tx := none }
        sent := d.sent.insert tx (outcomeOf reason) } := by
  simp only [done, h]

theorem done_of_none {reason : Option String} (h : (d.inner.lookup source).bind (·.tx) = none) :
    d.done source reason = d := by
  simp only [done, h]

/-- What `done` does to the entry of another source. -/
theorem lookup_done_ne {reason : Option String} (h : t ≠ source) :
    (d.done source reason).inner.lookup t = d.inner.lookup t := by
  cases htx : (d.inner.lookup source).bind (·.tx) with
  | none => rw [done_of_none htx]
  | some tx => rw [done_of_tx htx, Map.lookup_modify, if_neg h]

/-- A channel that no entry of the source leads to is left alone. -/
theorem sent_done_ne {reason : Option String}
    (h : (d.inner.lookup source).bind (·.tx) ≠ some tx) :
    (d.done source reason).sent.lookup tx = d.sent.lookup tx := by
  cases htx : (d.inner.lookup source).bind (·.tx) with
  | none => rw [done_of_none htx]
  | some k =>
      rw [done_of_tx htx, Map.lookup_insert_of, if_neg]
      rintro rfl
      exact h htx

theorem lookup_done_self {reason : Option String} :
    (d.done source reason).inner.lookup source
      = (d.inner.lookup source).map fun e => { e with tx := none } := by
  cases htx : (d.inner.lookup source).bind (·.tx) with
  | some tx => rw [done_of_tx htx, Map.lookup_modify_self]
  | none =>
      rw [done_of_none htx]
      cases he : d.inner.lookup source with
      | none => rfl
      | some entry =>
          obtain ⟨tx, deferred, kickReason, lastUpdate⟩ := entry
          rw [he] at htx
          cases htx
          rfl

end DeferralRegistry

/-- The registry holds a call and has the verdict about it. -/
def Held (v : Verdict) (d : DeferralRegistry) (n : Nat) : Prop :=
  ∃ entry, d.inner.lookup (sourceOf n) = some entry ∧
    match v with
    | .unasked => False
    | .pending deferred _ =>
      entry.tx = some n ∧ entry.deferred = deferred ∧ d.sent.lookup n = none
    | .settled o => entry.tx = none ∧ d.sent.lookup n = some o

theorem Held.frame {v : Verdict} {d d' : DeferralRegistry} (h : Held v d n)
    (hinner : d'.inner.lookup (sourceOf n) = d.inner.lookup (sourceOf n))
    (hsent : d'.sent.lookup n = d.sent.lookup n) : Held v d' n := by
  unfold Held
  rw [hinner, hsent]
  exact h

/-- What the host and the scripts say of a call, the registry takes to heart. -/
theorem Held.defer {v : Verdict} {d : DeferralRegistry} (h : Held v d n) :
    Held (v.hear n (.defer (sourceOf n))) (d.defer (sourceOf n)) n := by
  obtain ⟨entry, hentry, hv⟩ := h
  refine ⟨{ entry with deferred := true }, ?_, ?_⟩
  · rw [DeferralRegistry.defer, Map.lookup_modify_self, hentry]
    rfl
  · cases v with
    | unasked => exact hv
    | settled o => exact hv
    | pending deferred seen =>
        simp only [Verdict.hear, if_pos]
        exact ⟨hv.1, trivial, hv.2.2⟩

/-- A decision settles what is pending and nothing else. -/
def Verdict.settle (outcome : DeferralOutcome) : Verdict → Verdict
  | .pending _ _ => .settled outcome
  | v => v

/-- `done`, whoever calls it. -/
theorem Held.settle {v : Verdict} {d : DeferralRegistry} (h : Held v d n)
    (reason : Option String) :
    Held (v.settle (DeferralRegistry.outcomeOf reason)) (d.done (sourceOf n) reason) n := by
  obtain ⟨entry, hentry, hv⟩ := h
  refine ⟨{ entry with tx := none }, ?_, ?_⟩
  · rw [DeferralRegistry.lookup_done_self, hentry]
    rfl
  · cases v with
    | unasked => exact hv
    | settled o =>
        refine ⟨rfl, ?_⟩
        rw [DeferralRegistry.sent_done_ne (by rw [hentry, Option.bind_some, hv.1]; simp)]
        exact hv.2
    | pending deferred seen =>
        refine ⟨rfl, ?_⟩
        rw [DeferralRegistry.done_of_tx (by rw [hentry, Option.bind_some, hv.1])]
        exact Map.lookup_insert_of n n _ _ |>.trans (if_pos rfl)

/-- What the end of the channel finds. -/
def Verdict.received : Verdict → DeferralRegistry.Received
  | .settled o => .outcome o
  | _ => .pending

theorem Held.receive {v : Verdict} {d : DeferralRegistry} (h : Held v d n) :
    d.receive n = v.received := by
  obtain ⟨entry, hentry, hv⟩ := h
  cases v with
  | unasked => exact hv.elim
  | settled o => simp only [DeferralRegistry.receive, hv.2, Verdict.received]
  | pending deferred seen =>
      have hmem := AList.mem_lookup_iff.mp (Option.mem_def.mpr hentry)
      simp only [DeferralRegistry.receive, hv.2.2, Verdict.received]
      exact if_pos (List.any_eq_true.mpr ⟨_, hmem, by simp [hv.1]⟩)

/-- Whether the host has to decide, when it looks. -/
def Verdict.shouldResolve : Verdict → Bool
  | .pending deferred _ => !deferred
  | _ => false

theorem Held.shouldResolve {v : Verdict} {d : DeferralRegistry} (h : Held v d n) :
    d.shouldResolve (sourceOf n) = v.shouldResolve := by
  obtain ⟨entry, hentry, hv⟩ := h
  cases v with
  | unasked => exact hv.elim
  | settled o => simp [DeferralRegistry.shouldResolve, Verdict.shouldResolve, hentry, hv.1]
  | pending deferred seen =>
      simp [DeferralRegistry.shouldResolve, Verdict.shouldResolve, hentry, hv.1, hv.2.1]

end Baston.Gateway
