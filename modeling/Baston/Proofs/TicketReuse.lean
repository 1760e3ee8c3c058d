/-
How often a ticket is used.

The set of used tickets is emptied whole, whatever in it is still valid.  So a ticket is used
once as long as every collection comes after the expiry of all the tickets it forgets.
-/
import Baston.Gateway.Auth
import Baston.Lib.Trace
import Baston.Proofs.Ticket

namespace Baston.Gateway

open Checked Trace

variable {Public Private : Type} {prims : Primitives Public Private}
  {tk : List Char → List (List Char)}

abbrev AuthEntry (Public : Type) :=
  Entry (AuthService Public) (TicketCall Public) (Except AuthError ValidatedPlayer)

/-! ### What a call presents -/

/-- The expiry and the guid of the ticket of a call, if it is verified. -/
def presented (prims : Primitives Public Private) (c : TicketCall Public) (s : AuthService Public) :
    Option (UInt64 × UInt64) :=
  match verifyWithKeyRefresh prims s.pubkey c ((parseU64 c.guid).getD 0) with
  | .ok (_, .ok ticket) => some (ticket.expiryUnixSecs, ticket.guid)
  | _ => none

/-- The call succeeds with this ticket. -/
def Uses (prims : Primitives Public Private) (ticket : UInt64 × UInt64) (e : AuthEntry Public) :
    Prop := e.answer.isOk = true ∧ presented prims e.op e.pre = some ticket

instance (ticket : UInt64 × UInt64) (e : AuthEntry Public) : Decidable (Uses prims ticket e) :=
  inferInstanceAs (Decidable (_ ∧ _))

/-- Calls come in the order of their times. -/
def InOrder (past : List (AuthEntry Public)) (e : AuthEntry Public) : Prop :=
  ∀ earlier ∈ past, earlier.op.now.nanos ≤ e.op.now.nanos

/-- A call with a good ticket that finds the interval over finds only expired tickets in the
set. -/
def ForgetsExpired (prims : Primitives Public Private) (e : AuthEntry Public) : Prop :=
  presented prims e.op e.pre ≠ none → e.pre.usedTickets.nextGc < e.op.now.nanos →
    ∀ ticket ∈ e.pre.usedTickets.seen, ticket.1 < e.op.now.secs

instance (past : List (AuthEntry Public)) (e : AuthEntry Public) : Decidable (InOrder past e) :=
  inferInstanceAs (Decidable (∀ earlier ∈ past, _))

instance (e : AuthEntry Public) : Decidable (ForgetsExpired prims e) :=
  have : Decidable (∀ ticket ∈ e.pre.usedTickets.seen, ticket.1 < e.op.now.secs) :=
    Finset.decidableDforallFinset
  inferInstanceAs (Decidable (_ → _ → _))

/-! ### One call -/

theorem Moment.secs_le {t u : Moment} (h : t.nanos ≤ u.nanos) : t.secs ≤ u.secs := by
  rw [UInt64.le_iff_toNat_le]
  unfold Moment.secs
  rw [UInt64.toNat_ofNat_of_lt' t.fits, UInt64.toNat_ofNat_of_lt' u.fits]
  exact Nat.div_le_div_right h

/-- A verified ticket has not expired. -/
theorem unexpired_of_parse {ticketB64 : List Char} {guid now : UInt64} {pubkey : Public}
    {t : TicketData} (h : parseAndVerify prims ticketB64 guid pubkey now = .ok (.ok t)) :
    now ≤ t.expiryUnixSecs := by
  cases hdata : prims.decode (trim ticketB64) with
  | none =>
      unfold parseAndVerify at h
      rw [hdata] at h
      cases h
  | some data =>
      obtain ⟨haccepted, rfl⟩ := (parseAndVerify_ok_iff hdata t).mp h
      rw [ticketOf_signedBytes]
      exact haccepted.unexpired

theorem unexpired_of_verify {cached cached' : Option (CachedPubkey Public)} {c : TicketCall Public}
    {guid : UInt64} {t : TicketData}
    (h : verifyWithKeyRefresh prims cached c guid = .ok (cached', .ok t)) :
    c.now.secs ≤ t.expiryUnixSecs := by
  unfold verifyWithKeyRefresh at h
  split at h
  · cases h
  · rename_i key _
    obtain ⟨r, hr⟩ := parseAndVerify_total prims c.ticketB64 guid c.now.secs key
    rw [hr, ok_bind] at h
    split at h
    · split at h
      · cases h
      · rename_i key' _
        obtain ⟨r', hr'⟩ := parseAndVerify_total prims c.ticketB64 guid c.now.secs key'
        rw [hr', ok_bind] at h
        obtain ⟨-, rfl⟩ := Prod.mk.inj (Except.ok.inj h)
        exact unexpired_of_parse hr'
    · obtain ⟨-, rfl⟩ := Prod.mk.inj (Except.ok.inj h)
      exact unexpired_of_parse hr

/-- The set once it has been collected, if it is time. -/
def UsedTickets.collected (used : UsedTickets) (now : Nat) : Finset (UInt64 × UInt64) :=
  if used.nextGc < now then ∅ else used.seen

/-- **One call** fails and forgets at most what it collects, or presents a ticket that is neither
expired nor in the set, and puts it there. -/
theorem step_cases {c : TicketCall Public} {s s' : AuthService Public}
    {a : Except AuthError ValidatedPlayer} (h : s.step prims tk c = some (s', a)) :
    (a.isOk = false ∧ (s'.usedTickets.seen = s.usedTickets.seen
        ∨ presented prims c s ≠ none
          ∧ s'.usedTickets.seen = s.usedTickets.collected c.now.nanos))
      ∨ ∃ ticket, presented prims c s = some ticket ∧ c.now.secs ≤ ticket.1
        ∧ ticket ∉ s.usedTickets.collected c.now.nanos
        ∧ s'.usedTickets.seen = insert ticket (s.usedTickets.collected c.now.nanos) := by
  unfold AuthService.step validateTicket at h
  dsimp only at h
  unfold presented
  cases hverify : verifyWithKeyRefresh prims s.pubkey c ((parseU64 c.guid).getD 0) with
  | error fault =>
      rw [hverify] at h
      cases h
  | ok r =>
      obtain ⟨pubkey, verified⟩ := r
      rw [hverify, ok_bind] at h
      cases verified with
      | error e =>
          obtain ⟨rfl, rfl⟩ := Prod.mk.inj (Option.some.inj h)
          exact .inl ⟨rfl, .inl rfl⟩
      | ok ticket =>
          dsimp only at h ⊢
          have hunexpired := unexpired_of_verify hverify
          unfold checkReuse at h
          have hseen : (if s.usedTickets.nextGc < c.now.nanos then
              ({ seen := ∅, nextGc := c.now.nanos + TICKET_GC_INTERVAL } : UsedTickets)
              else s.usedTickets).seen = s.usedTickets.collected c.now.nanos := by
            unfold UsedTickets.collected
            split
            · rfl
            · rfl
          generalize (if s.usedTickets.nextGc < c.now.nanos then
            ({ seen := ∅, nextGc := c.now.nanos + TICKET_GC_INTERVAL } : UsedTickets)
              else s.usedTickets) = used at h hseen
          rw [← hseen]
          by_cases hmem : (ticket.expiryUnixSecs, ticket.guid) ∈ used.seen
          · rw [if_pos hmem] at h
            obtain ⟨rfl, rfl⟩ := Prod.mk.inj (Option.some.inj h)
            exact .inl ⟨rfl, .inr ⟨by simp, rfl⟩⟩
          · rw [if_neg hmem] at h
            obtain ⟨rfl, rfl⟩ := Prod.mk.inj (Option.some.inj h)
            exact .inr ⟨_, rfl, hunexpired, hmem, rfl⟩

/-! ### Over whole runs -/

/-- Every ticket that was used is in the set or has expired. -/
def Remembered (prims : Primitives Public Private) (past : List (AuthEntry Public))
    (s : AuthService Public) : Prop :=
  ∀ e ∈ past, ∀ ticket, Uses prims ticket e → ticket ∈ s.usedTickets.seen
    ∨ ∃ later ∈ past, ticket.1 < later.op.now.secs

/-- A collection forgets only what has expired. -/
theorem collected_or_expired {c : TicketCall Public} {s s' : AuthService Public}
    {a : Except AuthError ValidatedPlayer} (hforgets : ForgetsExpired prims ⟨s, c, a, s'⟩)
    (hpresented : presented prims c s ≠ none) : ∀ ticket ∈ s.usedTickets.seen,
      ticket ∈ s.usedTickets.collected c.now.nanos ∨ ticket.1 < c.now.secs := by
  intro ticket hmem
  unfold UsedTickets.collected
  by_cases hgc : s.usedTickets.nextGc < c.now.nanos
  · exact .inr (hforgets hpresented hgc ticket hmem)
  · rw [if_neg hgc]
    exact .inl hmem

theorem remembered_step {past : List (AuthEntry Public)} {c : TicketCall Public}
    {s s' : AuthService Public} {a : Except AuthError ValidatedPlayer}
    (hrem : Remembered prims past s) (hforgets : ForgetsExpired prims ⟨s, c, a, s'⟩)
    (h : s.step prims tk c = some (s', a)) : Remembered prims (⟨s, c, a, s'⟩ :: past) s' := by
  have hcollected := collected_or_expired hforgets
  have hkeeps : ∀ ticket ∈ s.usedTickets.seen,
      ticket ∈ s'.usedTickets.seen ∨ ticket.1 < c.now.secs := by
    intro ticket hmem
    rcases step_cases h with ⟨-, hsame | ⟨hpresented, hseen⟩⟩ | ⟨new, hpresented, -, -, hseen⟩
    · rw [hsame]
      exact .inl hmem
    · rw [hseen]
      exact hcollected hpresented ticket hmem
    · rw [hseen]
      have hsome : presented prims c s ≠ none := by
        rw [hpresented]
        simp
      exact (hcollected hsome ticket hmem).imp_left fun hin => Finset.mem_insert_of_mem hin
  intro e he ticket huses
  rcases List.mem_cons.mp he with rfl | he
  · obtain ⟨hok, hticket⟩ := huses
    rcases step_cases h with ⟨hfails, -⟩ | ⟨new, hpresented, -, -, hseen⟩
    · exact absurd (hfails.symm.trans hok) (by simp)
    · obtain rfl := Option.some.inj (hpresented.symm.trans hticket)
      rw [hseen]
      exact .inl (Finset.mem_insert_self _ _)
  · rcases hrem e he ticket huses with hmem | ⟨later, hlater, hexpired⟩
    · exact (hkeeps ticket hmem).imp_right fun hexpired => ⟨_, List.mem_cons_self, hexpired⟩
    · exact .inr ⟨later, List.mem_cons_of_mem _ hlater, hexpired⟩

/-- A ticket that is used was not used before. -/
theorem unused_before {past : List (AuthEntry Public)} {c : TicketCall Public}
    {s s' : AuthService Public} {a : Except AuthError ValidatedPlayer}
    (hrem : Remembered prims past s) (horder : InOrder past ⟨s, c, a, s'⟩)
    (hforgets : ForgetsExpired prims ⟨s, c, a, s'⟩) (h : s.step prims tk c = some (s', a))
    {ticket : UInt64 × UInt64} (huses : Uses prims ticket ⟨s, c, a, s'⟩) :
    ∀ e ∈ past, ¬ Uses prims ticket e := by
  intro e he hused
  obtain ⟨hok, hticket⟩ := huses
  rcases step_cases h with ⟨hfails, -⟩ | ⟨new, hpresented, hunexpired, hnew, -⟩
  · exact absurd (hfails.symm.trans hok) (by simp)
  · obtain rfl := Option.some.inj (hpresented.symm.trans hticket)
    have hsome : presented prims c s ≠ none := by
      rw [hpresented]
      simp
    have hexpired : ¬ new.1 < c.now.secs := UInt64.not_lt.mpr hunexpired
    rcases hrem e he new hused with hmem | ⟨later, hlater, hearly⟩
    · exact (collected_or_expired hforgets hsome new hmem).elim hnew hexpired
    · exact hexpired (UInt64.lt_of_lt_of_le hearly (Moment.secs_le (horder later hlater)))

/-- **No ticket is used twice**, in a run whose collections forget only expired ones. -/
theorem ticket_used_once {start : Moment} {past : List (AuthEntry Public)} {s : AuthService Public}
    (run : Run (AuthService.step prims tk) (AuthService.new start) past s)
    (order : Along InOrder past) (forgets : Along (fun _ e => ForgetsExpired prims e) past)
    (ticket : UInt64 × UInt64) : (past.filter fun e => Uses prims ticket e).length ≤ 1 := by
  have hboth : Remembered prims past s
      ∧ (past.filter fun e => Uses prims ticket e).length ≤ 1 := by
    induction run with
    | nil => exact ⟨fun e he => absurd he List.not_mem_nil, Nat.zero_le 1⟩
    | @snoc past s s' c a run hstep ih =>
        obtain ⟨hrem, honce⟩ := ih order.2 forgets.2
        refine ⟨remembered_step hrem forgets.1 hstep, ?_⟩
        by_cases huses : Uses prims ticket ⟨s, c, a, s'⟩
        · have hnone : past.filter (fun e => Uses prims ticket e) = [] := by
            rw [List.filter_eq_nil_iff]
            intro e he hused
            exact unused_before hrem order.1 forgets.1 hstep huses e he (of_decide_eq_true hused)
          rw [List.filter_cons_of_pos (by simpa using huses), hnone]
          exact Nat.le_refl 1
        · rw [List.filter_cons_of_neg (by simpa using huses)]
          exact honce
  exact hboth.2

/-! ### A ticket that outlives the interval -/

/-- A second of the examples. -/
def second (n : Nat) (h : n < 2 ^ 64 := by omega) : Moment :=
  ⟨n * 10 ^ 9, by rw [Nat.mul_div_cancel _ (by decide)]; exact h⟩

/-- A call at second `n` with the ticket of guid 42 that expires at second `expiry`. -/
def call (n : Nat) (expiry : UInt64) (h : n < 2 ^ 64 := by omega) : TicketCall Unit where
  guid := ['4', '2']
  ticketB64 := buildTicket spelled () 42 expiry ⟨List.replicate 20 0xAB, rfl⟩ ['{', '}']
  ip := "127.0.0.1".toList
  now := second n h
  fetched := .ok ()

/-- The service of the examples, and its calls. -/
abbrev serve := AuthService.step spelled fun _ => []

/-- A ticket is used and tried again; when the interval is over, it has expired. -/
theorem expired_forgotten : ∃ past s, Run serve (AuthService.new (second 0)) past s
    ∧ past.length = 3 ∧ (past.map fun e => e.answer.isOk) = [true, false, true]
    ∧ (past.filter fun e => Uses spelled (60, 42) e).length ≤ 1 := by
  obtain ⟨past, s, run, hcheck⟩ := exists_run serve (AuthService.new (second 0))
    [call 10 60, call 20 60, call 1900 7200]
    (fun past _ => past.length = 3 && (past.map fun e => e.answer.isOk) = [true, false, true]
      && Along InOrder past && Along (fun _ e => ForgetsExpired spelled e) past)
    (by decide +kernel)
  simp only [Bool.and_eq_true, decide_eq_true_eq] at hcheck
  obtain ⟨⟨⟨hlength, hanswers⟩, order⟩, forgets⟩ := hcheck
  exact ⟨past, s, run, hlength, hanswers, ticket_used_once run order forgets (60, 42)⟩

/-- **A ticket that outlives the interval is used twice.** -/
theorem long_ticket_used_twice : ¬ ∀ (past : List (AuthEntry Unit)) (s : AuthService Unit),
    Run serve (AuthService.new (second 0)) past s → Along InOrder past →
      ∀ ticket, (past.filter fun e => Uses spelled ticket e).length ≤ 1 := by
  intro h
  obtain ⟨past, s, run, hcheck⟩ := exists_run serve (AuthService.new (second 0))
    [call 10 7200, call 1900 7200]
    (fun past _ => Along InOrder past
      && (past.filter fun e => Uses spelled (7200, 42) e).length = 2) (by decide +kernel)
  simp only [Bool.and_eq_true, decide_eq_true_eq] at hcheck
  have honce := h past s run hcheck.1 (7200, 42)
  omega

end Baston.Gateway
