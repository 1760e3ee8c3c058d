/-
What a call over the file-drop channel may take for its reply, and that the channel can always be
used again.

An id is drawn inside the lock, so the id of the call that has the lock is the last one drawn,
and the request file holds either its request or an older one.  A reply carries the id of the
request it answers.  So a reply whose id is the call's own answers the call's own request, which
the shim took up while the call was waiting for it: replies to calls that were given up, and
files that are only half written, carry another id or none.

The shim takes up no id that is not above the last one, so no request is answered twice and a
request that was given up stays given up.  Nothing a call leaves behind, not its request, not a
reply nobody waits for nor half of one, keeps the next call from its own reply.
-/
import Baston.Platform.Sidecar
import Mathlib.Algebra.Group.Nat.Defs

namespace Baston.Platform

open Assoc Trace

abbrev SidecarEntry := Entry Sidecar SidecarOp SidecarAnswer

/-! ### Ids -/

theorem nearestDouble_small {n : Nat} (h : n ≤ 2 ^ 53) : nearestDouble n = n := by
  rcases Nat.lt_or_eq_of_le h with hlt | rfl
  · have hlog : n.log2 + 1 - 53 = 0 := by
      rcases Nat.eq_zero_or_pos n with rfl | hpos
      · decide
      · have := (Nat.log2_lt (by omega)).mpr hlt
        omega
    simp [nearestDouble, hlog, Nat.mod_one]
  · decide

theorem get?_insert_self {v value : Json} {key : String} {n : Json}
    (h : (v.insert key value).get? key = some n) : n = value := by
  cases v with
  | object fields =>
      simp only [Json.insert, Json.get?, List.lookup_cons, beq_self_eq_true] at h
      exact (Option.some.inj h).symm
  | _ => simp [Json.insert, Json.get?] at h

/-- Whether a document is an object. -/
def Json.IsObject (v : Json) : Prop := ∃ fields, v = .object fields

theorem get?_insert_object {v value : Json} {key : String} (h : v.IsObject) :
    (v.insert key value).get? key = some value := by
  obtain ⟨fields, rfl⟩ := h
  simp [Json.insert, Json.get?]

theorem isObject_failure (text : Text) : (failure text).IsObject := ⟨_, rfl⟩

theorem isObject_fileReply (resource file : Text) (found : Option (List UInt8)) :
    (fileReply resource file found).IsObject := by
  cases found with
  | none => exact isObject_failure _
  | some data => exact ⟨_, rfl⟩

theorem isObject_decrypt {w : World} {req reply : Json} (h : decrypt w req = .ok reply) :
    reply.IsObject := by
  unfold decrypt at h
  split at h
  · rename_i resource file _ _
    cases hload : w.loadResourceFile resource file with
    | error text =>
        rw [hload] at h
        cases h
    | ok found =>
        rw [hload] at h
        cases h
        exact isObject_fileReply resource file found
  · cases h
    exact isObject_failure _

theorem isObject_result {w : World} {req reply : Json} (h : result w req = .ok reply) :
    reply.IsObject := by
  unfold result at h
  split at h
  · split at h
    · cases h
      exact ⟨_, rfl⟩
    · split at h
      · exact isObject_decrypt h
      · cases h
        exact isObject_failure _
  · cases h
    exact isObject_failure _

/-- A reply carries the id of the request it answers. -/
theorem respond_id (w : World) (id : Nat) (req : Json) :
    (respond w id req).get? "id" = some (.number id) := by
  unfold respond
  cases h : result w req with
  | ok reply => exact get?_insert_object (isObject_result h)
  | error text => simp [Json.get?]

/-- As long as ids are small, a reply carries no id but its own. -/
theorem carriesId_respond {w : World} {id id' : Nat} {req : Json} (h : id ≤ 2 ^ 53)
    (h' : id' ≤ 2 ^ 53) (hc : carriesId (respond w id req) id' = true) : id = id' := by
  simp only [carriesId, respond_id, Bool.or_eq_true] at hc
  rcases hc with hc | hc
  · have hint : (Json.number id).asU64 = some id' := of_decide_eq_true hc
    rw [Json.asU64, if_pos (by omega)] at hint
    exact Option.some.inj hint
  · have hfloat : some (nearestDouble id) = some (nearestDouble id') := of_decide_eq_true hc
    rw [nearestDouble_small h, nearestDouble_small h'] at hfloat
    exact Option.some.inj hfloat

/-! ### The invariant -/

/-- The id a phase of a call is about. -/
def Phase.id? : Phase → Option Nat
  | .number => none
  | .writeTemporary id | .rename id | .check id | .read id | .deadline id | .remove id _ => some id

/-- The id of a call whose request is not in place yet. -/
def Phase.unplaced : Phase → Option Nat
  | .writeTemporary id | .rename id => some id
  | _ => none

/-- The id of a call whose request is in place. -/
def Phase.placed : Phase → Option Nat
  | .check id | .read id | .deadline id | .remove id _ => some id
  | _ => none

/-- The reply that the shim is about to write. -/
def ShimPhase.reply? : ShimPhase → Option (Nat × Json)
  | .opening id reply | .writing id reply => some (id, reply)
  | _ => none

/-- At an entry the shim takes up a request under an id. -/
structure TakesUp (e : SidecarEntry) (id : Nat) (req : Json) : Prop where
  waiting : e.pre.shim = .waiting
  asked : e.pre.request = some req
  numbered : takesUp e.pre.lastId req = some id
  opened : e.post.shim = .opening id (respond e.pre.world id req)

/-- At an entry a call was inside the lock, its request in place. -/
def Awaited (e : SidecarEntry) (call : Nat) (op : Json) (id : Nat) : Prop :=
  ∃ phase : Phase, e.pre.holder = some ⟨call, op, phase⟩ ∧ phase.placed = some id

/-- A reply is what the shim answered to a request it took up. -/
def Answered (past : List SidecarEntry) (id : Nat) (reply : Json) : Prop :=
  ∃ e ∈ past, ∃ req, TakesUp e id req ∧ reply = respond e.pre.world id req

/-- Only ids below a bound have reached the shim. -/
structure Below (past : List SidecarEntry) (s : Sidecar) (n : Nat) : Prop where
  asked : ∀ req id, s.request = some req → req.get? "id" = some (.number id) → id < n
  taken : ∀ e ∈ past, ∀ id req, TakesUp e id req → id < n

/-- What holds of the call inside the lock. -/
structure Inside (past : List SidecarEntry) (s : Sidecar) (h : Holder) : Prop where
  numbered : ∀ id, h.phase.id? = some id → id = s.seq
  fresh : ∀ id, h.phase.unplaced = some id → Below past s id
  aside : ∀ id, h.phase = .rename id → s.temporary = some (sent h.op id)
  placed : ∀ id, h.phase.placed = some id → s.request = some (sent h.op id)
  own : ∀ id, h.phase.placed = some id → ∀ e ∈ past, ∀ req, TakesUp e id req →
    req = sent h.op id ∧ Awaited e h.call h.op id
  matched : ∀ id reply, h.phase = .remove id reply → Answered past id reply

structure Channel (past : List SidecarEntry) (s : Sidecar) : Prop where
  small : s.seq ≤ 2 ^ 53
  inside : ∀ h, s.holder = some h → Inside past s h
  below : Below past s (s.seq + 1)
  answering : ∀ id reply, s.shim.reply? = some (id, reply) → Answered past id reply
  response : ∀ reply, s.response = some (.whole reply) → ∃ id, Answered past id reply

/-! ### What a step keeps -/

variable {past : List SidecarEntry} {s s' : Sidecar} {e : SidecarEntry}

/-- A step that leaves the shim where it was takes up nothing. -/
theorem not_takesUp (h : e.post.shim = e.pre.shim) : ∀ id req, ¬ TakesUp e id req := by
  intro id req htakes
  have := htakes.opened
  rw [h, htakes.waiting] at this
  cases this

/-- Only a shim that waits takes up anything. -/
theorem not_takesUp_busy (h : e.pre.shim ≠ .waiting) : ∀ id req, ¬ TakesUp e id req :=
  fun _ _ htakes => h htakes.waiting

theorem Answered.cons {id : Nat} {reply : Json} (h : Answered past id reply) :
    Answered (e :: past) id reply := by
  obtain ⟨x, hx, req, htakes, hreply⟩ := h
  exact ⟨x, List.mem_cons_of_mem _ hx, req, htakes, hreply⟩

theorem Below.mono {n m : Nat} (h : Below past s n) (hle : n ≤ m) : Below past s m := by
  constructor
  · intro req id hreq hid
    exact Nat.lt_of_lt_of_le (h.asked req id hreq hid) hle
  · intro x hx id req htakes
    exact Nat.lt_of_lt_of_le (h.taken x hx id req htakes) hle

/-- Nothing new reaches the shim. -/
theorem Below.quiet {n : Nat} (h : Below past s n) (hreq : s'.request = s.request)
    (hquiet : ∀ id req, ¬ TakesUp e id req) : Below (e :: past) s' n := by
  constructor
  · intro req id hr hid
    exact h.asked req id (hreq ▸ hr) hid
  · intro x hx id req htakes
    rcases List.mem_cons.mp hx with rfl | hx
    · exact absurd htakes (hquiet id req)
    · exact h.taken x hx id req htakes

/-- The call inside the lock, at a step that is not its own. -/
theorem Inside.frame {h : Holder} (c : Inside past s h) (hseq : s'.seq = s.seq)
    (htemp : s'.temporary = s.temporary) (hreq : s'.request = s.request)
    (hquiet : ∀ id req, ¬ TakesUp e id req) : Inside (e :: past) s' h where
  numbered id hid := by
    rw [hseq]
    exact c.numbered id hid
  fresh id hid := (c.fresh id hid).quiet hreq hquiet
  aside id hid := by
    rw [htemp]
    exact c.aside id hid
  placed id hid := by
    rw [hreq]
    exact c.placed id hid
  own id hid x hx req htakes := by
    rcases List.mem_cons.mp hx with rfl | hx
    · exact absurd htakes (hquiet id req)
    · exact c.own id hid x hx req htakes
  matched id reply hid := (c.matched id reply hid).cons

/-- The call inside the lock goes round in its loop. -/
theorem Inside.turn {h h' : Holder} {id : Nat} (c : Inside past s h)
    (hat : h.phase.placed = some id) (hat' : h'.phase.placed = some id)
    (hcall : h'.call = h.call) (hop : h'.op = h.op) (hseq : s'.seq = s.seq)
    (hreq : s'.request = s.request) (hquiet : ∀ id req, ¬ TakesUp e id req)
    (hmatched : ∀ reply, h'.phase = .remove id reply → Answered past id reply) :
    Inside (e :: past) s' h' := by
  have hid : ∀ p : Phase, p.placed = some id → p.id? = some id ∧ p.unplaced = none := by
    intro p hp
    cases p with
    | number | writeTemporary _ | rename _ => cases hp
    | check _ | read _ | deadline _ | remove _ _ => exact ⟨hp, rfl⟩
  have hsame : ∀ id', h'.phase.placed = some id' → id' = id := by
    intro id' h'
    rw [hat'] at h'
    exact (Option.some.inj h').symm
  constructor
  · intro id' hid'
    rw [(hid _ hat').1] at hid'
    rw [hseq, ← Option.some.inj hid']
    exact c.numbered id (hid _ hat).1
  · intro id' hid'
    rw [(hid _ hat').2] at hid'
    cases hid'
  · intro id' hphase
    rw [hphase] at hat'
    cases hat'
  · intro id' hid'
    rw [hsame id' hid', hreq, hop]
    exact c.placed id hat
  · intro id' hid' x hx req htakes
    obtain rfl := hsame id' hid'
    rcases List.mem_cons.mp hx with rfl | hx
    · exact absurd htakes (hquiet id' req)
    · rw [hcall, hop]
      exact c.own id' hat x hx req htakes
  · intro id' reply hphase
    have := hat'
    rw [hphase] at this
    obtain rfl := Option.some.inj this
    exact (hmatched reply hphase).cons

/-- A step of another call, or of the server around the shim, keeps everything. -/
theorem Channel.frame (c : Channel past s) (hquiet : ∀ id req, ¬ TakesUp e id req)
    (hseq : s'.seq = s.seq) (hholder : s'.holder = s.holder)
    (htemp : s'.temporary = s.temporary) (hreq : s'.request = s.request)
    (hresp : s'.response = s.response) (hshim : s'.shim = s.shim) : Channel (e :: past) s' where
  small := by
    rw [hseq]
    exact c.small
  inside h hh := (c.inside h (hholder ▸ hh)).frame hseq htemp hreq hquiet
  below := by
    rw [hseq]
    exact c.below.quiet hreq hquiet
  answering id reply h := (c.answering id reply (hshim ▸ h)).cons
  response reply h := by
    obtain ⟨id, hans⟩ := c.response reply (hresp ▸ h)
    exact ⟨id, hans.cons⟩

/-- A step of the call inside the lock. -/
theorem Channel.caller (c : Channel past s) (hshim : s'.shim = s.shim)
    (hresp : ∀ reply, s'.response = some (.whole reply) → s.response = some (.whole reply))
    (hsmall : s'.seq ≤ 2 ^ 53) (hbelow : Below (e :: past) s' (s'.seq + 1))
    (hinside : ∀ h, s'.holder = some h → Inside (e :: past) s' h) : Channel (e :: past) s' where
  small := hsmall
  inside := hinside
  below := hbelow
  answering id reply h := (c.answering id reply (hshim ▸ h)).cons
  response reply h := by
    obtain ⟨id, hans⟩ := c.response reply (hresp reply h)
    exact ⟨id, hans.cons⟩

/-- The call inside the lock returns. -/
theorem Channel.finish (c : Channel past s) {h : Holder} {result : Except CfxPlatformError Json}
    {op : SidecarOp} {a : SidecarAnswer} {t : Sidecar} (hseq : t.seq = s.seq)
    (hreq : t.request = s.request) (hshim : t.shim = s.shim)
    (hresp : ∀ reply, t.response = some (.whole reply) → s.response = some (.whole reply)) :
    Channel (⟨s, op, a, (t.finish h result).1⟩ :: past) (t.finish h result).1 := by
  refine c.caller hshim hresp (by simpa [Sidecar.finish, hseq] using c.small) ?_ (by
    intro h' hh'
    cases hh')
  have hquiet := not_takesUp (e := ⟨s, op, a, (t.finish h result).1⟩) hshim
  have hbelow : Below (⟨s, op, a, (t.finish h result).1⟩ :: past) (t.finish h result).1
      (s.seq + 1) :=
    c.below.quiet hreq hquiet
  simpa [Sidecar.finish, hseq] using hbelow

/-- The call inside the lock goes round in its loop, or on to a reply it has found. -/
theorem Channel.turn (c : Channel past s) {h : Holder} {phase : Phase} {id : Nat}
    {op : SidecarOp} {a : SidecarAnswer} (hh : s.holder = some h) (hat : h.phase.placed = some id)
    (hat' : phase.placed = some id)
    (hmatched : ∀ reply, phase = .remove id reply → Answered past id reply) :
    Channel (⟨s, op, a, (s.goOn h phase).1⟩ :: past) (s.goOn h phase).1 := by
  have hquiet := not_takesUp (e := ⟨s, op, a, (s.goOn h phase).1⟩) rfl
  refine c.caller rfl (fun _ h => h) c.small (c.below.quiet rfl hquiet) ?_
  intro h' hh'
  obtain rfl := Option.some.inj hh'
  exact (c.inside h hh).turn hat hat' rfl rfl rfl rfl hquiet hmatched

/-- A call that has yet to draw its id has nothing to keep. -/
theorem inside_number {h : Holder} (hphase : h.phase = .number) : Inside past s h := by
  constructor
  all_goals
    intros
    simp_all [Phase.id?, Phase.unplaced, Phase.placed]

/-- A call draws its id. -/
theorem Channel.number (c : Channel past s) {h : Holder} {id : Nat} {op : SidecarOp}
    {a : SidecarAnswer} (hid : id = s.seq + 1) (hsmall : id ≤ 2 ^ 53) :
    Channel (⟨s, op, a, ({ s with seq := id }.goOn h (.writeTemporary id)).1⟩ :: past)
      ({ s with seq := id }.goOn h (.writeTemporary id)).1 := by
  have hquiet := not_takesUp
    (e := ⟨s, op, a, ({ s with seq := id }.goOn h (.writeTemporary id)).1⟩) rfl
  have hbelow : Below (⟨s, op, a, ({ s with seq := id }.goOn h (.writeTemporary id)).1⟩ :: past)
      ({ s with seq := id }.goOn h (.writeTemporary id)).1 (s.seq + 1) :=
    c.below.quiet rfl hquiet
  refine c.caller rfl (fun _ h => h) hsmall (hbelow.mono (by simp [Sidecar.goOn]; omega)) ?_
  intro h' hh'
  obtain rfl := Option.some.inj hh'
  constructor
  · intro id' h
    exact (Option.some.inj h).symm
  · intro id' h
    obtain rfl := Option.some.inj h
    rw [hid]
    exact hid ▸ hbelow
  · intro id' h
    cases h
  · intro id' h
    cases h
  · intro id' h
    cases h
  · intro id' reply h
    cases h

/-- A call writes its request beside its place. -/
theorem Channel.writeTemporary (c : Channel past s) {h : Holder} {id : Nat} {op : SidecarOp}
    {a : SidecarAnswer} (hh : s.holder = some h) (hphase : h.phase = .writeTemporary id) :
    Channel (⟨s, op, a, ({ s with temporary := some (sent h.op id) }.goOn h (.rename id)).1⟩ :: past)
      ({ s with temporary := some (sent h.op id) }.goOn h (.rename id)).1 := by
  have hquiet := not_takesUp
    (e := ⟨s, op, a, ({ s with temporary := some (sent h.op id) }.goOn h (.rename id)).1⟩) rfl
  have inside := c.inside h hh
  refine c.caller rfl (fun _ h => h) c.small (c.below.quiet rfl hquiet) ?_
  intro h' hh'
  obtain rfl := Option.some.inj hh'
  constructor
  · intro id' h
    obtain rfl := Option.some.inj h
    exact inside.numbered id (by rw [hphase]; rfl)
  · intro id' h
    obtain rfl := Option.some.inj h
    exact (inside.fresh id (by rw [hphase]; rfl)).quiet rfl hquiet
  · intro id' h
    cases h
    rfl
  · intro id' h
    cases h
  · intro id' h
    cases h
  · intro id' reply h
    cases h

/-- A call puts its request in place. -/
theorem Channel.rename (c : Channel past s) {h : Holder} {id : Nat} {op : SidecarOp}
    {a : SidecarAnswer} (hh : s.holder = some h) (hphase : h.phase = .rename id) :
    Channel (⟨s, op, a,
        ({ s with request := s.temporary, temporary := none }.goOn h (.check id)).1⟩ :: past)
      ({ s with request := s.temporary, temporary := none }.goOn h (.check id)).1 := by
  have hquiet := not_takesUp (e := ⟨s, op, a,
    ({ s with request := s.temporary, temporary := none }.goOn h (.check id)).1⟩) rfl
  have inside := c.inside h hh
  have hid : id = s.seq := inside.numbered id (by rw [hphase]; rfl)
  have hsent : s.temporary = some (sent h.op id) := inside.aside id hphase
  have htaken : ∀ e ∈ past, ∀ req, ¬ TakesUp e id req := by
    intro e he req htakes
    exact Nat.lt_irrefl _ ((inside.fresh id (by rw [hphase]; rfl)).taken e he id req htakes)
  refine c.caller rfl (fun _ h => h) c.small ?_ ?_
  · constructor
    · intro req id' hreq hid'
      obtain rfl : sent h.op id = req := Option.some.inj (hsent ▸ hreq)
      have hown : id' = id := Json.number.inj (get?_insert_self hid')
      simp only [Sidecar.goOn]
      omega
    · have hbelow : Below (⟨s, op, a,
          ({ s with request := s.temporary, temporary := none }.goOn h (.check id)).1⟩ :: past) s
          (s.seq + 1) := c.below.quiet rfl hquiet
      exact hbelow.taken
  · intro h' hh'
    obtain rfl := Option.some.inj hh'
    constructor
    · intro id' h
      obtain rfl := Option.some.inj h
      exact hid
    · intro id' h
      cases h
    · intro id' h
      cases h
    · intro id' h
      obtain rfl := Option.some.inj h
      exact hsent
    · intro id' h x hx req htakes
      obtain rfl := Option.some.inj h
      rcases List.mem_cons.mp hx with rfl | hx
      · exact absurd htakes (hquiet id req)
      · exact absurd htakes (htaken x hx req)
    · intro id' reply h
      cases h

/-- A reply that carries the id of the call inside the lock answers that id. -/
theorem Channel.answered (c : Channel past s) {h : Holder} {id : Nat} {reply : Json}
    (hh : s.holder = some h) (hid : h.phase.id? = some id)
    (hresp : s.response = some (.whole reply)) (hcarries : carriesId reply id = true) :
    Answered past id reply := by
  have hsmall := c.small
  have hseq : id = s.seq := (c.inside h hh).numbered id hid
  obtain ⟨id', x, hx, req, htakes, rfl⟩ := c.response reply hresp
  have hbelow : id' < s.seq + 1 := c.below.taken x hx id' req htakes
  obtain rfl : id' = id := carriesId_respond (by omega) (by omega) hcarries
  exact ⟨x, hx, req, htakes, rfl⟩

/-- **The call inside the lock keeps the invariant.** -/
theorem Channel.next (c : Channel past s) {h : Holder} (hh : s.holder = some h) (luck : Luck)
    {op : SidecarOp} {a : SidecarAnswer} (hsmall : (s.next h luck).1.seq ≤ 2 ^ 53) :
    Channel (⟨s, op, a, (s.next h luck).1⟩ :: past) (s.next h luck).1 := by
  have hfinish (result : Except CfxPlatformError Json) :
      Channel (⟨s, op, a, (s.finish h result).1⟩ :: past) (s.finish h result).1 :=
    c.finish rfl rfl rfl fun _ h => h
  cases hphase : h.phase with
  | number =>
      simp only [Sidecar.next, hphase] at hsmall ⊢
      have := c.small
      exact c.number (Nat.mod_eq_of_lt (by omega)) hsmall
  | writeTemporary id =>
      simp only [Sidecar.next, hphase]
      split
      · exact hfinish _
      · exact c.writeTemporary hh hphase
  | rename id =>
      simp only [Sidecar.next, hphase]
      split
      · exact hfinish _
      · exact c.rename hh hphase
  | check id =>
      simp only [Sidecar.next, hphase]
      split
      · exact hfinish _
      · exact hfinish _
      · exact c.turn hh (by rw [hphase]; rfl) rfl fun _ h => by cases h
  | read id =>
      have hat : h.phase.placed = some id := by
        rw [hphase]
        rfl
      simp only [Sidecar.next, hphase]
      split
      · exact c.turn hh hat rfl fun _ h => by cases h
      · rename_i reply hresp
        split
        · rename_i hcarries
          refine c.turn hh hat rfl fun reply' h => ?_
          cases h
          exact c.answered hh (by rw [hphase]; rfl) hresp hcarries
        · exact c.turn hh hat rfl fun _ h => by cases h
      · exact c.turn hh hat rfl fun _ h => by cases h
  | deadline id =>
      simp only [Sidecar.next, hphase]
      split
      · exact hfinish _
      · exact c.turn hh (by rw [hphase]; rfl) rfl fun _ h => by cases h
  | remove id reply =>
      simp only [Sidecar.next, hphase]
      split
      · exact hfinish _
      · exact c.finish rfl rfl rfl fun _ h => by cases h

theorem takesUp_eq_some {lastId id : Nat} {req : Json} (h : takesUp lastId req = some id) :
    req.get? "id" = some (.number id) ∧ lastId < id := by
  unfold takesUp at h
  split at h
  · rename_i id' hid
    split at h
    · rename_i hlt
      obtain rfl := Option.some.inj h
      exact ⟨hid, hlt⟩
    · cases h
  · cases h

/-- Only ids below a bound reach the shim, where the request in place has such an id. -/
theorem Below.takeUp {n : Nat} (h : Below past s n) (hreq : s'.request = s.request)
    (hpre : e.pre = s) : Below (e :: past) s' n := by
  constructor
  · intro req id hr hid
    exact h.asked req id (hreq ▸ hr) hid
  · intro x hx id req htakes
    rcases List.mem_cons.mp hx with rfl | hx
    · exact h.asked req id (hpre ▸ htakes.asked) (takesUp_eq_some htakes.numbered).1
    · exact h.taken x hx id req htakes

/-- The shim takes up the request in place. -/
theorem Channel.takeUp (c : Channel past s) {id : Nat} {req : Json} {op : SidecarOp}
    {a : SidecarAnswer} (hwaiting : s.shim = .waiting) (hreq : s.request = some req)
    (hid : takesUp s.lastId req = some id) :
    Channel (⟨s, op, a, { s with shim := .opening id (respond s.world id req) }⟩ :: past)
      { s with shim := .opening id (respond s.world id req) } where
  small := c.small
  inside h hh := by
    have inside := c.inside h hh
    refine ⟨inside.numbered, fun id hid => (inside.fresh id hid).takeUp rfl rfl, inside.aside,
      inside.placed, ?_, fun id reply hid => (inside.matched id reply hid).cons⟩
    intro id' hat x hx req' htakes
    rcases List.mem_cons.mp hx with rfl | hx
    · refine ⟨?_, h.phase, hh, hat⟩
      have hplaced := inside.placed id' hat
      rw [htakes.asked] at hplaced
      exact Option.some.inj hplaced
    · exact inside.own id' hat x hx req' htakes
  below := c.below.takeUp rfl rfl
  answering id' reply h := by
    obtain ⟨rfl, rfl⟩ := Prod.mk.inj (Option.some.inj h)
    exact ⟨_, List.mem_cons_self, req, ⟨hwaiting, hreq, hid, rfl⟩, rfl⟩
  response reply h := by
    obtain ⟨id', hans⟩ := c.response reply h
    exact ⟨id', hans.cons⟩

/-- The shim goes on with a reply. -/
theorem Channel.reply (c : Channel past s) (hquiet : ∀ id req, ¬ TakesUp e id req)
    (hseq : s'.seq = s.seq) (hholder : s'.holder = s.holder)
    (htemp : s'.temporary = s.temporary) (hreq : s'.request = s.request)
    (hshim : ∀ id reply, s'.shim.reply? = some (id, reply) → s.shim.reply? = some (id, reply))
    (hresp : ∀ reply, s'.response = some (.whole reply) →
      s.response = some (.whole reply) ∨ ∃ id, s.shim.reply? = some (id, reply)) :
    Channel (e :: past) s' where
  small := by
    rw [hseq]
    exact c.small
  inside h hh := (c.inside h (hholder ▸ hh)).frame hseq htemp hreq hquiet
  below := by
    rw [hseq]
    exact c.below.quiet hreq hquiet
  answering id reply h := (c.answering id reply (hshim id reply h)).cons
  response reply h := by
    rcases hresp reply h with h | ⟨id, h⟩
    · obtain ⟨id, hans⟩ := c.response reply h
      exact ⟨id, hans.cons⟩
    · exact ⟨id, (c.answering id reply h).cons⟩

/-- **The shim keeps the invariant.** -/
theorem Channel.shimNext (c : Channel past s) (luck : Luck) {op : SidecarOp}
    {a : SidecarAnswer} : Channel (⟨s, op, a, s.shimNext luck⟩ :: past) (s.shimNext luck) := by
  have hidle : Channel (⟨s, op, a, s⟩ :: past) s :=
    c.frame (not_takesUp rfl) rfl rfl rfl rfl rfl rfl
  cases hshim : s.shim with
  | waiting =>
      simp only [Sidecar.shimNext, hshim]
      split
      · rename_i req hreq
        split
        · rename_i id hid
          exact c.takeUp hshim hreq hid
        · exact hidle
      · exact hidle
  | opening id reply =>
      have hquiet {t : Sidecar} : ∀ i req, ¬ TakesUp ⟨s, op, a, t⟩ i req :=
        not_takesUp_busy (by simp [hshim])
      simp only [Sidecar.shimNext, hshim]
      split
      · exact c.reply hquiet rfl rfl rfl rfl (fun _ _ h => by cases h) fun _ h => .inl h
      · refine c.reply hquiet rfl rfl rfl rfl (fun _ _ h => ?_) fun _ h => by cases h
        rw [hshim]
        exact h
  | writing id reply =>
      have hquiet {t : Sidecar} : ∀ i req, ¬ TakesUp ⟨s, op, a, t⟩ i req :=
        not_takesUp_busy (by simp [hshim])
      simp only [Sidecar.shimNext, hshim]
      split
      · exact c.reply hquiet rfl rfl rfl rfl (fun _ _ h => by cases h) fun _ h => .inl h
      · refine c.reply hquiet rfl rfl rfl rfl (fun _ _ h => by cases h)
          fun reply' h => .inr ⟨id, ?_⟩
        rw [hshim]
        cases h
        rfl
  | marking id =>
      have hquiet {t : Sidecar} : ∀ i req, ¬ TakesUp ⟨s, op, a, t⟩ i req :=
        not_takesUp_busy (by simp [hshim])
      simp only [Sidecar.shimNext, hshim]
      exact c.reply hquiet rfl rfl rfl rfl (fun _ _ h => by cases h) fun _ h => .inl h

/-! ### Runs -/

theorem channel_launch (w : World) : Channel [] (Sidecar.launch w) where
  small := Nat.zero_le _
  inside h hh := by cases hh
  below := ⟨fun _ _ h => (by cases h), fun _ hx => (by cases hx)⟩
  answering id reply h := by cases h
  response reply h := by cases h

/-- Every step keeps the invariant, as long as ids are small. -/
theorem Channel.step (c : Channel past s) {op : SidecarOp} {a : SidecarAnswer}
    (h : Sidecar.step op s = some (s', a)) (hsmall : s'.seq ≤ 2 ^ 53) :
    Channel (⟨s, op, a, s'⟩ :: past) s' := by
  cases op with
  | request op =>
      obtain ⟨rfl, rfl⟩ := Prod.mk.inj (Option.some.inj h)
      exact c.frame (not_takesUp rfl) rfl rfl rfl rfl rfl rfl
  | lock call =>
      simp only [Sidecar.step] at h
      split at h
      · cases h
      · obtain ⟨rfl, rfl⟩ := Prod.mk.inj (Option.some.inj h)
        exact c.frame (not_takesUp rfl) rfl rfl rfl rfl rfl rfl
      · obtain ⟨rfl, rfl⟩ := Prod.mk.inj (Option.some.inj h)
        refine c.caller rfl (fun _ h => h) hsmall (c.below.quiet rfl (not_takesUp rfl)) ?_
        intro h' hh'
        obtain rfl := Option.some.inj hh'
        exact inside_number rfl
  | advance luck =>
      obtain ⟨holder, hh, h⟩ := Option.map_eq_some_iff.mp h
      obtain ⟨rfl, rfl⟩ := Prod.mk.inj h
      exact c.next hh luck hsmall
  | shim luck =>
      simp only [Sidecar.step] at h
      split at h
      · obtain ⟨rfl, rfl⟩ := Prod.mk.inj (Option.some.inj h)
        exact c.shimNext luck
      · cases h
  | world w =>
      obtain ⟨rfl, rfl⟩ := Prod.mk.inj (Option.some.inj h)
      exact c.frame (not_takesUp rfl) rfl rfl rfl rfl rfl rfl
  | exit status =>
      simp only [Sidecar.step] at h
      split at h
      · obtain ⟨rfl, rfl⟩ := Prod.mk.inj (Option.some.inj h)
        exact c.frame (not_takesUp rfl) rfl rfl rfl rfl rfl rfl
      · cases h

/-- No more ids have been drawn than a double tells apart. -/
def SmallIds (past : List SidecarEntry) : Prop := ∀ e ∈ past, e.post.seq ≤ 2 ^ 53

instance (past : List SidecarEntry) : Decidable (SmallIds past) :=
  inferInstanceAs (Decidable (∀ e ∈ past, _))

theorem run_channel {w : World} (run : Run Sidecar.step (.launch w) past s)
    (hsmall : SmallIds past) : Channel past s := by
  refine run.invariant (I := Channel) (P := fun _ e => e.post.seq ≤ 2 ^ 53) (channel_launch w) ?_
    (along_of_forall hsmall)
  intro past s op a s' _ c h hsmall
  exact c.step h hsmall

/-- A call that returns a reply has read it as its own. -/
theorem returned_ok {op : SidecarOp} {call : Nat} {asked reply : Json}
    (h : Sidecar.step op s = some (s', .returned call asked (.ok reply))) :
    ∃ id, s.holder = some ⟨call, asked, .remove id reply⟩ := by
  cases op with
  | advance luck =>
      obtain ⟨⟨call', asked', phase⟩, hh, h⟩ := Option.map_eq_some_iff.mp h
      have hans := congrArg Prod.snd h
      cases phase with
      | remove id reply' =>
          simp only [Sidecar.next] at hans
          split at hans
          · cases hans
          · cases hans
            exact ⟨id, hh⟩
      | number => cases hans
      | writeTemporary id | rename id =>
          simp only [Sidecar.next] at hans
          split at hans
          · cases hans
          · cases hans
      | check id =>
          simp only [Sidecar.next] at hans
          split at hans
          · cases hans
          · cases hans
          · cases hans
      | read id =>
          simp only [Sidecar.next] at hans
          split at hans
          · cases hans
          · cases hans
          · cases hans
      | deadline id =>
          simp only [Sidecar.next] at hans
          split at hans
          · cases hans
          · cases hans
  | request op => cases h
  | lock call =>
      simp only [Sidecar.step] at h
      split at h
      · cases h
      · cases h
      · cases h
  | shim luck =>
      simp only [Sidecar.step] at h
      split at h
      · cases h
      · cases h
  | world w => cases h
  | exit status =>
      simp only [Sidecar.step] at h
      split at h
      · cases h
      · cases h

/-- A reply that a call returns answers its request, which the shim took up while the call was
waiting for it. -/
theorem returned_answered {w : World} {call : Nat} {asked reply : Json}
    (run : Run Sidecar.step (.launch w) (e :: past) s) (hsmall : SmallIds past)
    (hret : e.answer = .returned call asked (.ok reply)) :
    ∃ id, ∃ x ∈ past, TakesUp x id (sent asked id) ∧ Awaited x call asked id
      ∧ reply = respond x.pre.world id (sent asked id) := by
  cases run with
  | snoc run h =>
      obtain rfl := hret
      obtain ⟨id, hh⟩ := returned_ok h
      have inside := (run_channel run hsmall).inside _ hh
      obtain ⟨x, hx, req, htakes, hreply⟩ := inside.matched id reply rfl
      obtain ⟨rfl, hawaited⟩ := inside.own id rfl x hx req htakes
      exact ⟨id, x, hx, htakes, hawaited, hreply⟩

/-! ### The order of requests -/

/-- The last id the shim has taken up, whether it is done with it or not. -/
def Sidecar.reached (s : Sidecar) : Nat :=
  match s.shim with
  | .waiting => s.lastId
  | .opening id _ | .writing id _ | .marking id => id

/-- What the shim has taken up: nothing above the last id, and no id twice. -/
structure InOrder (past : List SidecarEntry) (s : Sidecar) : Prop where
  last : ∀ e ∈ past, ∀ id req, TakesUp e id req → id ≤ s.reached
  reached : s.reached = 0 ∨ ∃ e ∈ past, ∃ req, TakesUp e s.reached req
  rising : past.Pairwise fun later earlier =>
    ∀ i j req req', TakesUp later i req → TakesUp earlier j req' → j < i

/-- The call inside the lock leaves the shim alone. -/
theorem next_shim (s : Sidecar) (h : Holder) (luck : Luck) :
    (s.next h luck).1.shim = s.shim ∧ (s.next h luck).1.lastId = s.lastId := by
  unfold Sidecar.next
  split
  · exact ⟨rfl, rfl⟩
  · split
    · exact ⟨rfl, rfl⟩
    · exact ⟨rfl, rfl⟩
  · split
    · exact ⟨rfl, rfl⟩
    · exact ⟨rfl, rfl⟩
  · split
    · exact ⟨rfl, rfl⟩
    · exact ⟨rfl, rfl⟩
    · exact ⟨rfl, rfl⟩
  · split
    · exact ⟨rfl, rfl⟩
    · exact ⟨rfl, rfl⟩
    · exact ⟨rfl, rfl⟩
  · split
    · exact ⟨rfl, rfl⟩
    · exact ⟨rfl, rfl⟩
  · split
    · exact ⟨rfl, rfl⟩
    · exact ⟨rfl, rfl⟩

/-- A step is the shim's, or leaves the shim alone. -/
theorem step_shim {op : SidecarOp} {a : SidecarAnswer} (h : Sidecar.step op s = some (s', a)) :
    (∃ luck, s' = s.shimNext luck) ∨ (s'.shim = s.shim ∧ s'.lastId = s.lastId) := by
  cases op with
  | request op =>
      obtain ⟨rfl, rfl⟩ := Prod.mk.inj (Option.some.inj h)
      exact .inr ⟨rfl, rfl⟩
  | lock call =>
      simp only [Sidecar.step] at h
      split at h
      · cases h
      · obtain ⟨rfl, rfl⟩ := Prod.mk.inj (Option.some.inj h)
        exact .inr ⟨rfl, rfl⟩
      · obtain ⟨rfl, rfl⟩ := Prod.mk.inj (Option.some.inj h)
        exact .inr ⟨rfl, rfl⟩
  | advance luck =>
      obtain ⟨holder, hh, h⟩ := Option.map_eq_some_iff.mp h
      obtain ⟨rfl, rfl⟩ := Prod.mk.inj h
      exact .inr (next_shim s holder luck)
  | shim luck =>
      simp only [Sidecar.step] at h
      split at h
      · obtain ⟨rfl, rfl⟩ := Prod.mk.inj (Option.some.inj h)
        exact .inl ⟨luck, rfl⟩
      · cases h
  | world w =>
      obtain ⟨rfl, rfl⟩ := Prod.mk.inj (Option.some.inj h)
      exact .inr ⟨rfl, rfl⟩
  | exit status =>
      simp only [Sidecar.step] at h
      split at h
      · obtain ⟨rfl, rfl⟩ := Prod.mk.inj (Option.some.inj h)
        exact .inr ⟨rfl, rfl⟩
      · cases h

/-- A step takes nothing up and the last id stays, or it takes up a higher one. -/
theorem reached_step (op : SidecarOp) (a : SidecarAnswer) {op' : SidecarOp}
    (h : Sidecar.step op' s = some (s', a)) :
    (s'.reached = s.reached ∧ ∀ id req, ¬ TakesUp ⟨s, op, a, s'⟩ id req)
      ∨ s.reached < s'.reached ∧ ∃ req, TakesUp ⟨s, op, a, s'⟩ s'.reached req := by
  rcases step_shim h with ⟨luck, rfl⟩ | ⟨hshim, hlast⟩
  · cases hs : s.shim with
    | waiting =>
        have hidle : s.reached = s.reached ∧ ∀ id req, ¬ TakesUp ⟨s, op, a, s⟩ id req :=
          ⟨rfl, not_takesUp rfl⟩
        simp only [Sidecar.shimNext, hs]
        split
        · rename_i req hreq
          split
          · rename_i id hid
            refine .inr ⟨?_, req, hs, hreq, hid, rfl⟩
            simp only [Sidecar.reached, hs]
            exact (takesUp_eq_some hid).2
          · exact .inl hidle
        · exact .inl hidle
    | opening id reply =>
        refine .inl ⟨?_, not_takesUp_busy (by simp [hs])⟩
        cases luck with
        | ioError _ => simp [Sidecar.shimNext, Sidecar.reached, hs]
        | fine | cancelled | timedOut => simp [Sidecar.shimNext, Sidecar.reached, hs]
    | writing id reply =>
        refine .inl ⟨?_, not_takesUp_busy (by simp [hs])⟩
        cases luck with
        | ioError _ => simp [Sidecar.shimNext, Sidecar.reached, hs]
        | fine | cancelled | timedOut => simp [Sidecar.shimNext, Sidecar.reached, hs]
    | marking id =>
        exact .inl ⟨by simp [Sidecar.shimNext, Sidecar.reached, hs],
          not_takesUp_busy (by simp [hs])⟩
  · exact .inl ⟨by simp only [Sidecar.reached, hshim, hlast], not_takesUp hshim⟩

theorem takesUp_unique {id id' : Nat} {req req' : Json} (h : TakesUp e id req)
    (h' : TakesUp e id' req') : id = id' := by
  have := h.opened
  rw [h'.opened] at this
  exact (ShimPhase.opening.inj this).1.symm

theorem InOrder.step (c : InOrder past s) {op : SidecarOp} {a : SidecarAnswer}
    (h : Sidecar.step op s = some (s', a)) : InOrder (⟨s, op, a, s'⟩ :: past) s' := by
  rcases reached_step op a h with ⟨hsame, hquiet⟩ | ⟨hlt, req, htakes⟩
  · constructor
    · intro x hx id req htakes
      rcases List.mem_cons.mp hx with rfl | hx
      · exact absurd htakes (hquiet id req)
      · rw [hsame]
        exact c.last x hx id req htakes
    · rw [hsame]
      rcases c.reached with h0 | ⟨x, hx, req, htakes⟩
      · exact .inl h0
      · exact .inr ⟨x, List.mem_cons_of_mem _ hx, req, htakes⟩
    · refine List.Pairwise.cons ?_ c.rising
      intro x _ i j req req' htakes
      exact absurd htakes (hquiet i req)
  · constructor
    · intro x hx id req' htakes'
      rcases List.mem_cons.mp hx with rfl | hx
      · exact Nat.le_of_eq (takesUp_unique htakes' htakes)
      · exact Nat.le_trans (c.last x hx id req' htakes') (Nat.le_of_lt hlt)
    · exact .inr ⟨_, List.mem_cons_self, req, htakes⟩
    · refine List.Pairwise.cons ?_ c.rising
      intro x hx i j req' req'' htakes' htakes''
      have hj := c.last x hx j req'' htakes''
      have hi := takesUp_unique htakes' htakes
      omega

theorem run_inOrder {w : World} (run : Run Sidecar.step (.launch w) past s) : InOrder past s := by
  induction run with
  | nil => exact ⟨fun _ hx => (by cases hx), .inl rfl, .nil⟩
  | snoc _ h ih => exact ih.step h

/-- **A call returns the answer to its own request**, which the shim took up once, while the call
was waiting for it with the request in place. -/
theorem reply_answers_request {w : World} {call : Nat} {asked reply : Json}
    (run : Run Sidecar.step (.launch w) (e :: past) s) (hsmall : SmallIds past)
    (hret : e.answer = .returned call asked (.ok reply)) :
    ∃ id later x before, past = later ++ x :: before ∧ TakesUp x id (sent asked id)
      ∧ Awaited x call asked id ∧ reply = respond x.pre.world id (sent asked id)
      ∧ ∀ y ∈ later ++ before, ∀ req, ¬ TakesUp y id req := by
  obtain ⟨id, x, hx, htakes, hawaited, hreply⟩ := returned_answered run hsmall hret
  obtain ⟨later, before, rfl⟩ := List.append_of_mem hx
  refine ⟨id, later, x, before, rfl, htakes, hawaited, hreply, ?_⟩
  cases run with
  | snoc run h =>
      have rising := (run_inOrder run).rising
      rw [List.pairwise_append, List.pairwise_cons] at rising
      obtain ⟨-, ⟨hbefore, -⟩, hlater⟩ := rising
      intro y hy req htakes'
      rcases List.mem_append.mp hy with hy | hy
      · exact Nat.lt_irrefl _ (hlater y hy x List.mem_cons_self id id req _ htakes' htakes)
      · exact Nat.lt_irrefl _ (hbefore y hy id id _ req htakes htakes')

/-- A server with one file. -/
def shopServer : World where
  token := ['t']
  loadResourceFile resource file :=
    .ok (if resource = ['s'] ∧ file = ['f'] then some [104, 105] else none)
  tostring _ := []

/-- One call, and the shim in between. -/
def oneCall (call : Nat) (op : Json) : List SidecarOp :=
  [.request op, .lock call] ++ List.replicate 3 (.advance .fine)
    ++ List.replicate 4 (.shim .fine) ++ List.replicate 3 (.advance .fine)

/-- `decrypt` of its file. -/
def askFile : Json :=
  .object [("op", .string "decrypt".toList), ("resource", .string ['s']), ("file", .string ['f'])]

theorem askFile_returns : ∃ e past s, Run Sidecar.step (.launch shopServer) (e :: past) s
    ∧ SmallIds past
    ∧ e.answer = .returned 0 askFile (.ok (respond shopServer 1 (sent askFile 1))) := by
  refine ⟨_, _, _, run_of_ops Sidecar.step (.launch shopServer) (oneCall 0 askFile) rfl, ?_, rfl⟩
  decide

theorem file_answers_request : ∃ e past s reply,
    Run Sidecar.step (.launch shopServer) (e :: past) s
      ∧ e.answer = .returned 0 askFile (.ok reply)
      ∧ ∃ id later x before, past = later ++ x :: before ∧ TakesUp x id (sent askFile id)
        ∧ Awaited x 0 askFile id ∧ reply = respond x.pre.world id (sent askFile id)
        ∧ ∀ y ∈ later ++ before, ∀ req, ¬ TakesUp y id req := by
  obtain ⟨e, past, s, run, hsmall, hret⟩ := askFile_returns
  exact ⟨e, past, s, _, run, hret, reply_answers_request run hsmall hret⟩

/-- The last id taken up has been drawn. -/
theorem reached_le_seq {w : World} (run : Run Sidecar.step (.launch w) past s)
    (hsmall : SmallIds past) : s.reached ≤ s.seq := by
  rcases (run_inOrder run).reached with h0 | ⟨x, hx, req, htakes⟩
  · omega
  · exact Nat.le_of_lt_succ ((run_channel run hsmall).below.taken x hx _ req htakes)

/-! ### The channel can be used again -/

/-- One state can follow another. -/
def Leads (s s' : Sidecar) : Prop := ∃ later, Run Sidecar.step s later s'

theorem Leads.refl (s : Sidecar) : Leads s s := ⟨[], .nil⟩

theorem Leads.snoc {t : Sidecar} (h : Leads s s') {op : SidecarOp} {a : SidecarAnswer}
    (hstep : Sidecar.step op s' = some (t, a)) : Leads s t := by
  obtain ⟨later, run⟩ := h
  exact ⟨_, run.snoc hstep⟩

/-- What is left alone while the lock is freed. -/
structure Freed (s s' : Sidecar) : Prop where
  free : s'.holder = none
  waiting : s'.waiting = s.waiting
  exited : s'.exited = s.exited
  world : s'.world = s.world
  shim : s'.shim = s.shim
  lastId : s'.lastId = s.lastId
  seq : s'.seq ≤ s.seq + 1 ∧ s.seq ≤ s'.seq

/-- A step of the call inside the lock. -/
theorem Leads.advance {h : Holder} (lead : Leads s s') (hh : s'.holder = some h) (luck : Luck) :
    Leads s (s'.next h luck).1 :=
  have hstep : Sidecar.step (.advance luck) s' = some (s'.next h luck) := by
    simp [Sidecar.step, hh]
  lead.snoc hstep

/-- A step of the shim. -/
theorem Leads.shimNext (lead : Leads s s') (hexited : s'.exited = none) :
    Leads s (s'.shimNext .fine) :=
  have hstep : Sidecar.step (.shim .fine) s' = some (s'.shimNext .fine, .none) := by
    simp [Sidecar.step, hexited]
  lead.snoc hstep

/-- Whatever call is inside the lock can be given up. -/
theorem leads_freed (s : Sidecar) (hseq : s.seq + 1 < 2 ^ 64) :
    ∃ s', Leads s s' ∧ Freed s s' := by
  have hfreed {t : Sidecar} {h : Holder} {result : Except CfxPlatformError Json} (ht : t = s) :
      Freed s (t.finish h result).1 := by
    subst ht
    exact ⟨rfl, rfl, rfl, rfl, rfl, rfl, Nat.le_succ _, Nat.le_refl _⟩
  cases hh : s.holder with
  | none => exact ⟨s, .refl s, hh, rfl, rfl, rfl, rfl, rfl, Nat.le_succ _, Nat.le_refl _⟩
  | some h =>
      have lead := (Leads.refl s).advance hh
      cases hphase : h.phase with
      | number =>
          have lead' := (lead .fine).advance (h := ⟨h.call, h.op, .writeTemporary (s.seq + 1)⟩)
            (by simp only [Sidecar.next, hphase, Sidecar.goOn, Nat.mod_eq_of_lt hseq]) (.ioError [])
          refine ⟨_, lead', ?_⟩
          simp only [Sidecar.next, hphase, Sidecar.goOn, Sidecar.finish, Nat.mod_eq_of_lt hseq]
          exact ⟨rfl, rfl, rfl, rfl, rfl, rfl, Nat.le_refl _, Nat.le_succ _⟩
      | writeTemporary id | rename id =>
          refine ⟨_, lead (.ioError []), ?_⟩
          simp only [Sidecar.next, hphase]
          exact hfreed rfl
      | check id =>
          refine ⟨_, lead .cancelled, ?_⟩
          simp only [Sidecar.next, hphase]
          exact hfreed rfl
      | read id =>
          have lead' := (lead (.ioError [])).advance (h := ⟨h.call, h.op, .deadline id⟩)
            (by simp [Sidecar.next, hphase, Sidecar.goOn]) .timedOut
          refine ⟨_, lead', ?_⟩
          simp only [Sidecar.next, hphase, Sidecar.goOn, Sidecar.finish]
          exact ⟨rfl, rfl, rfl, rfl, rfl, rfl, Nat.le_succ _, Nat.le_refl _⟩
      | deadline id =>
          refine ⟨_, lead .timedOut, ?_⟩
          simp only [Sidecar.next, hphase]
          exact hfreed rfl
      | remove id reply =>
          refine ⟨_, lead (.ioError []), ?_⟩
          simp only [Sidecar.next, hphase]
          exact hfreed rfl

/-- What is left alone while the shim gets done with what it is at. -/
structure Settled (s s' : Sidecar) : Prop where
  idle : s'.shim = .waiting
  lastId : s'.lastId = s.reached
  holder : s'.holder = s.holder
  waiting : s'.waiting = s.waiting
  exited : s'.exited = s.exited
  world : s'.world = s.world
  seq : s'.seq = s.seq

/-- The shim gets done with what it is at. -/
theorem leads_settled {s₀ : Sidecar} (lead : Leads s₀ s) (hexited : s.exited = none) :
    ∃ s', Leads s₀ s' ∧ Settled s s' := by
  cases hshim : s.shim with
  | waiting => exact ⟨s, lead, hshim, by simp [Sidecar.reached, hshim], rfl, rfl, rfl, rfl, rfl⟩
  | opening id reply =>
      have lead' := ((lead.shimNext hexited).shimNext
        (by simp [Sidecar.shimNext, hshim, hexited])).shimNext
        (by simp [Sidecar.shimNext, hshim, hexited])
      refine ⟨_, lead', ?_⟩
      simp only [Sidecar.shimNext, hshim]
      exact ⟨rfl, by simp [Sidecar.reached, hshim], rfl, rfl, rfl, rfl, rfl⟩
  | writing id reply =>
      have lead' := (lead.shimNext hexited).shimNext (by simp [Sidecar.shimNext, hshim, hexited])
      refine ⟨_, lead', ?_⟩
      simp only [Sidecar.shimNext, hshim]
      exact ⟨rfl, by simp [Sidecar.reached, hshim], rfl, rfl, rfl, rfl, rfl⟩
  | marking id =>
      refine ⟨_, lead.shimNext hexited, ?_⟩
      simp only [Sidecar.shimNext, hshim]
      exact ⟨rfl, by simp [Sidecar.reached, hshim], rfl, rfl, rfl, rfl, rfl⟩

/-- A call that finds the lock free puts its request in place. -/
theorem leads_asked {s₀ : Sidecar} {call : Nat} {op : Json} (lead : Leads s₀ s)
    (hfree : s.holder = none) (hcall : s.waiting.lookup call = some op)
    (hseq : s.seq + 1 < 2 ^ 64) :
    Leads s₀ { s with
      waiting := s.waiting.erase call
      seq := s.seq + 1
      holder := some ⟨call, op, .check (s.seq + 1)⟩
      temporary := none
      request := some (sent op (s.seq + 1)) } := by
  have hlock : Leads s₀ { s with
      holder := some ⟨call, op, .number⟩, waiting := s.waiting.erase call } :=
    have hstep : Sidecar.step (.lock call) s = some ({ s with
        holder := some ⟨call, op, .number⟩, waiting := s.waiting.erase call }, .none) := by
      simp [Sidecar.step, hcall, hfree]
    lead.snoc hstep
  have hnumber := hlock.advance rfl .fine
  simp only [Sidecar.next, Sidecar.goOn, Nat.mod_eq_of_lt hseq] at hnumber
  have hwritten := hnumber.advance rfl .fine
  exact hwritten.advance rfl .fine

/-- The shim takes up the request in place and answers it. -/
theorem leads_replied {s₀ : Sidecar} {req : Json} {id : Nat} (lead : Leads s₀ s)
    (hexited : s.exited = none) (hidle : s.shim = .waiting) (hreq : s.request = some req)
    (hid : takesUp s.lastId req = some id) :
    Leads s₀ { s with
      shim := .waiting, lastId := id, response := some (.whole (respond s.world id req)) } := by
  have htaken := lead.shimNext hexited
  simp only [Sidecar.shimNext, hidle, hreq, hid] at htaken
  have hopened := htaken.shimNext hexited
  simp only [Sidecar.shimNext] at hopened
  have hwritten := hopened.shimNext hexited
  simp only [Sidecar.shimNext] at hwritten
  rw [hreq]
  exact hwritten.shimNext hexited

/-- A call that finds its reply returns it. -/
theorem reply_returned {s₀ : Sidecar} {call id : Nat} {op reply : Json} (lead : Leads s₀ s)
    (hexited : s.exited = none) (hh : s.holder = some ⟨call, op, .check id⟩)
    (hresp : s.response = some (.whole reply)) (hcarries : carriesId reply id = true) :
    ∃ later e s', Run Sidecar.step s₀ (e :: later) s'
      ∧ e.answer = .returned call op (.ok reply) := by
  have hread := lead.advance hh .fine
  simp only [Sidecar.next, hexited, Sidecar.goOn] at hread
  have hfound := hread.advance rfl .fine
  simp only [Sidecar.next, hresp, hcarries, if_true, Sidecar.goOn] at hfound
  obtain ⟨later, run⟩ := hfound
  exact ⟨later, _, _, run.snoc (show Sidecar.step (.advance .fine) _ = some _ from rfl), rfl⟩

/-- **The channel never wedges.**  Whatever calls before it have left behind, a call that waits for
the lock can still get the shim's answer to its request, while the sidecar is running. -/
theorem channel_never_wedges {w : World} {call : Nat} {op : Json}
    (run : Run Sidecar.step (.launch w) past s) (hsmall : SmallIds past)
    (hrunning : s.exited = none) (hcall : s.waiting.lookup call = some op)
    (hobject : op.IsObject) (hroom : s.seq + 2 ≤ 2 ^ 53) :
    ∃ later e s' id, Run Sidecar.step s (e :: later) s'
      ∧ e.answer = .returned call op (.ok (respond s.world id (sent op id))) := by
  obtain ⟨t, hfreed, ht⟩ := leads_freed s (by omega)
  obtain ⟨u, hsettled, hu⟩ := leads_settled hfreed (ht.exited.trans hrunning)
  have hseq := ht.seq
  have hlast : u.lastId < u.seq + 1 := by
    have hreached := reached_le_seq run hsmall
    have hsame : t.reached = s.reached := by simp only [Sidecar.reached, ht.shim, ht.lastId]
    rw [hu.lastId, hu.seq, hsame]
    omega
  have huseq : u.seq + 1 ≤ 2 ^ 53 := by
    rw [hu.seq]
    omega
  have hexited : u.exited = none := hu.exited.trans (ht.exited.trans hrunning)
  have hworld : u.world = s.world := hu.world.trans ht.world
  have hasked := leads_asked hsettled (hu.holder.trans ht.free)
    ((congrArg (AList.lookup call) (hu.waiting.trans ht.waiting)).trans hcall) (by omega)
  have hid : takesUp u.lastId (sent op (u.seq + 1)) = some (u.seq + 1) := by
    rw [takesUp, sent, get?_insert_object hobject]
    exact if_pos hlast
  have hreplied := leads_replied hasked hexited hu.idle rfl hid
  have hcarries : carriesId (respond u.world (u.seq + 1) (sent op (u.seq + 1))) (u.seq + 1)
      = true := by
    have hlt : u.seq + 1 < 2 ^ 64 := by omega
    rw [carriesId, respond_id]
    simp only [Json.asU64, if_pos hlt, decide_true, Bool.true_or]
  obtain ⟨later, e, s', run', hret⟩ := reply_returned hreplied hexited rfl rfl hcarries
  exact ⟨later, e, s', u.seq + 1, run', by rw [hret, hworld]⟩

/-- Two calls, of which the first is given up while the shim writes its reply. -/
def givenUp : List SidecarOp :=
  [.request askFile, .request askFile, .lock 0] ++ List.replicate 3 (.advance .fine)
    ++ List.replicate 2 (.shim .fine) ++ [.advance .cancelled]

/-- A request and half a reply that nobody waits for, a shim that is still at it, and the second
call before the lock. -/
def leftOver : Sidecar where
  world := shopServer
  seq := 1
  waiting := AList.insert 1 askFile ∅
  nextCall := 2
  request := some (sent askFile 1)
  response := some .torn
  shim := .writing 1 (respond shopServer 1 (sent askFile 1))

theorem leftOver_served : ∃ past, Run Sidecar.step (.launch shopServer) past leftOver
    ∧ ∃ later e s' id, Run Sidecar.step leftOver (e :: later) s'
      ∧ e.answer = .returned 1 askFile (.ok (respond shopServer id (sent askFile id))) := by
  have run := run_of_ops Sidecar.step (.launch shopServer) givenUp (s := leftOver) rfl
  exact ⟨_, run, channel_never_wedges run (by decide) rfl rfl ⟨_, rfl⟩ (by decide)⟩

end Baston.Platform
