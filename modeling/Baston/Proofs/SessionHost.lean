/-
The arbitration of the session host.

A client that may not host yet is answered `wait`, and goes on a list.  The list is kept in
step with the answers: `owed` reads off the history alone who is still owed a `free`, and a
release sends exactly those.  A client that asks twice while it waits is answered twice, and
is owed two.
-/
import Baston.Proofs.Peers

namespace Baston.Gateway

open Assoc Trace Baston.Rage Baston.Scripting Baston.Zone

variable {F : Type}

namespace UdpServer

/-! ### The history of the answers -/

/-- Whom an event answers so. -/
def answered (result : HostResult) (e : UdpEntry F) : List UInt32 :=
  match e.op with
  | .hostingSession peer _ =>
    if (peer, .sessionHostResult result) ∈ e.answer then (e.pre.peerSources.lookup peer).toList
    else []
  | _ => []

/-- The grant is let go: its holder has finished or is gone, or its time has lapsed. -/
def releases (e : UdpEntry F) : Bool :=
  match e.op with
  | .hostedSession peer | .disconnect _ peer _ =>
    e.pre.currentHosting.any fun grant => e.pre.peerSources.lookup peer = some grant.1
  | .expire now => e.pre.currentHosting.any fun grant => decide (grant.2 ≤ now)
  | .hostingSession peer now =>
    (e.pre.peerSources.lookup peer).isSome
      && e.pre.currentHosting.any fun grant => decide (grant.2 ≤ now)
  | _ => false

/-- The clients of a list that do not disconnect. -/
def staying (e : UdpEntry F) (clients : List UInt32) : List UInt32 :=
  match e.op with
  | .disconnect _ peer _ => clients.filter fun w => e.pre.peerSources.lookup peer ≠ some w
  | _ => clients

/-- Who is owed a `free`, once for every `wait`. -/
def owed : List (UdpEntry F) → List UInt32
  | [] => []
  | e :: past => (if releases e then [] else staying e (owed past)) ++ answered .wait e

/-- Who was cleared to host since the last release. -/
def cleared : List (UdpEntry F) → List UInt32
  | [] => []
  | e :: past => (if releases e then [] else cleared past) ++ answered .go e

/-- The peers that are sent a `free`. -/
def frees (out : List (PeerId × Outgoing)) : List PeerId :=
  out.filterMap fun p => if p.2 = .sessionHostResult .free then some p.1 else none

/-- The grant and the list of those who wait for it, against those who were answered. -/
structure Waiting (waiting granted : List UInt32) (s : UdpServer F) : Prop where
  /-- Whoever was cleared to host holds the grant. -/
  holder : ∀ source ∈ granted, ∃ deadline, s.currentHosting = some (source, deadline)
  waiters : s.hostReleaseWaiters = waiting
  connected : ∀ w ∈ waiting, w ∈ s.sourcePeers
  /-- Nobody waits but for somebody else. -/
  other : ∀ w ∈ waiting, ∃ grant, s.currentHosting = some grant ∧ grant.1 ≠ w

/-- Everything is as the answers say. -/
structure Arbitrated (past : List (UdpEntry F)) (s : UdpServer F) : Prop where
  waiting : Waiting (owed past) (cleared past) s
  sessionHost : ∀ host, s.sessionHost = some host → host.1 ∈ s.sourcePeers

/-- A release sends a `free` for everything that is owed, and nothing else does. -/
def FreesOwed (past : List (UdpEntry F)) (e : UdpEntry F) : Prop :=
  (frees e.answer).map some
    = if releases e then (staying e (owed past)).map e.pre.sourcePeers.lookup else []

/-! ### What is sent -/

@[simp] theorem frees_nil : frees [] = [] := rfl

@[simp] theorem frees_append (a b : List (PeerId × Outgoing)) :
    frees (a ++ b) = frees a ++ frees b := List.filterMap_append

theorem frees_eq_nil {out : List (PeerId × Outgoing)}
    (h : ∀ p ∈ out, p.2 ≠ .sessionHostResult .free) : frees out = [] := by
  rw [frees, List.filterMap_eq_nil_iff]
  intro p hp
  rw [if_neg (h p hp)]

theorem mem_sendToSource {s : UdpServer F} {source : UInt32} {packet : Outgoing}
    {p : PeerId × Outgoing} (h : p ∈ s.sendToSource source packet) :
    s.sourcePeers.lookup source = some p.1 ∧ p.2 = packet := by
  unfold sendToSource at h
  split at h
  · rename_i peer hpeer
    rw [List.mem_singleton.mp h]
    exact ⟨hpeer, rfl⟩
  · cases h

theorem mem_flatMap_send {α : Type} {s : UdpServer F} {l : List α} {f : α → UInt32}
    {g : α → Outgoing} {p : PeerId × Outgoing}
    (h : p ∈ l.flatMap fun a => s.sendToSource (f a) (g a)) : ∃ a ∈ l, p.2 = g a := by
  obtain ⟨a, ha, hp⟩ := List.mem_flatMap.mp h
  exact ⟨a, ha, (mem_sendToSource hp).2⟩

/-- A release tells every waiter that is connected. -/
theorem frees_release {s : UdpServer F}
    (h : ∀ w ∈ s.hostReleaseWaiters, w ∈ s.sourcePeers) :
    (frees s.releaseHostingGrant.2).map some
      = s.hostReleaseWaiters.map s.sourcePeers.lookup := by
  show (frees (s.hostReleaseWaiters.flatMap fun waiter =>
    s.sendToSource waiter (.sessionHostResult .free))).map some = _
  generalize s.hostReleaseWaiters = waiters at h
  induction waiters with
  | nil => rfl
  | cons w rest ih =>
      obtain ⟨peer, hpeer⟩ := Option.isSome_iff_exists.mp
        (AList.lookup_isSome.mpr (h w List.mem_cons_self))
      rw [List.flatMap_cons, frees_append, List.map_append,
        ih fun w' hw' => h w' (List.mem_cons_of_mem _ hw')]
      unfold sendToSource
      rw [hpeer, List.map_cons, hpeer]
      rfl

theorem mem_release {s : UdpServer F} {p : PeerId × Outgoing} (h : p ∈ s.releaseHostingGrant.2) :
    p.2 = .sessionHostResult .free := by
  obtain ⟨_, -, hp⟩ := mem_flatMap_send h
  exact hp

theorem mem_joinEvents {s : UdpServer F} {ord : Orders} {source : UInt32}
    {p : PeerId × Outgoing} (h : p ∈ s.joinEvents ord source) :
    p.2 ≠ .sessionHostResult .free := by
  obtain ⟨other, -, hp⟩ := List.mem_flatMap.mp h
  rcases List.mem_append.mp hp with hp | hp
  · rw [(mem_sendToSource hp).2]
    simp
  · split at hp
    · rw [(mem_sendToSource hp).2]
      simp
    · cases hp

theorem mem_onHandshake {s : UdpServer F} {ord : Orders} {peer : PeerId} {token : String}
    {isBastonClient sent : Bool} {p : PeerId × Outgoing}
    (h : p ∈ (s.onHandshake ord peer token isBastonClient sent).2) :
    p.2 ≠ .sessionHostResult .free := by
  unfold onHandshake at h
  split at h
  · rw [List.mem_singleton.mp h]
    simp
  · dsimp only at h
    split at h
    · rcases List.mem_cons.mp h with rfl | h
      · simp
      · unfold sendPostConnect at h
        rcases List.mem_append.mp h with h | h
        · rw [(mem_sendToSource h).2]
          simp
        · split at h
          · cases h
          · exact mem_joinEvents h
    · cases h

theorem mem_broadcastHost {s : UdpServer F} {ord : Orders} {netId : UInt16} {baseNum : UInt32}
    {p : PeerId × Outgoing} (h : p ∈ s.broadcastHost ord netId baseNum) :
    p.2 ≠ .sessionHostResult .free := by
  obtain ⟨kv, -, rfl⟩ := List.mem_map.mp h
  simp

theorem mem_onGamePacket {s s' : UdpServer F} {peer : PeerId}
    {f : UInt32 → ServerGameState F → Option (ServerGameState F × List Outgoing)}
    {out : List (PeerId × Outgoing)} (h : s.onGamePacket peer f = some (s', out))
    (hf : ∀ source gs r, f source gs = some r → ∀ packet ∈ r.2, packet ≠ .sessionHostResult .free) :
    ∀ p ∈ out, p.2 ≠ .sessionHostResult .free := by
  unfold onGamePacket at h
  intro p hp
  split at h
  · obtain ⟨r, hr, heq⟩ := Option.map_eq_some_iff.mp h
    obtain ⟨-, rfl⟩ := Prod.mk.inj heq
    obtain ⟨packet, hpacket, hp⟩ := List.mem_flatMap.mp hp
    rw [(mem_sendToSource hp).2]
    exact hf _ _ _ hr packet hpacket
  · obtain ⟨-, rfl⟩ := Prod.mk.inj (Option.some.inj h)
    cases hp

/-! ### Events that are about something else -/

/-- Events that neither touch the arbitration nor end a connection. -/
def Quiet : UdpEvent F → Prop
  | .disconnect _ _ _ | .iHost _ _ _ | .hostingSession _ _ | .hostedSession _ | .expire _ => False
  | _ => True

theorem quiet_entry {e : UdpEntry F} (h : Quiet e.op) :
    releases e = false ∧ (∀ l, staying e l = l) ∧ ∀ r, answered r e = [] := by
  obtain ⟨pre, op, answer, post⟩ := e
  cases op with
  | disconnect => exact h.elim
  | hostingSession => exact h.elim
  | hostedSession => exact h.elim
  | expire => exact h.elim
  | _ => exact ⟨rfl, fun _ => rfl, fun _ => rfl⟩

section Step

variable [Scalar F] {lz4 : Lz4} {s s' : UdpServer F} {ev : UdpEvent F}
  {out : List (PeerId × Outgoing)} {past : List (UdpEntry F)}

/-- They leave the arbitration alone, and everybody connected. -/
theorem quiet_effect (hquiet : Quiet ev) (h : step lz4 ev s = some (s', out)) :
    s'.sessionHost = s.sessionHost ∧ s'.currentHosting = s.currentHosting
      ∧ s'.hostReleaseWaiters = s.hostReleaseWaiters
      ∧ ∀ w ∈ s.sourcePeers, w ∈ s'.sourcePeers := by
  cases effect_of_step h with
  | linked hsource =>
      refine ⟨rfl, rfl, rfl, fun w hw => ?_⟩
      exact (AList.mem_insert _).mpr (.inr hw)
  | left hsource hone => exact hquiet.elim
  | arbitrated hev =>
      cases ev with
      | iHost => exact hquiet.elim
      | hostingSession => exact hquiet.elim
      | hostedSession => exact hquiet.elim
      | expire => exact hquiet.elim
      | _ => exact hev.elim
  | @ticked ord pending gs t entityWorld hgs hpending =>
      obtain ⟨onesync, revision, heq⟩ := s.refreshRoutingState_eq ord
      rw [heq]
      exact ⟨rfl, rfl, rfl, fun w hw => hw⟩
  | _ => exact ⟨rfl, rfl, rfl, fun w hw => hw⟩

theorem quiet_frees (hquiet : Quiet ev) (h : step lz4 ev s = some (s', out)) :
    frees out = [] := by
  refine frees_eq_nil ?_
  cases ev with
  | disconnect => exact hquiet.elim
  | iHost => exact hquiet.elim
  | hostingSession => exact hquiet.elim
  | hostedSession => exact hquiet.elim
  | expire => exact hquiet.elim
  | initConnect token name identifiers =>
      obtain ⟨-, rfl⟩ := Prod.mk.inj (Option.some.inj h)
      exact fun p hp => absurd hp (by simp)
  | handshake ord peer token isBastonClient sent =>
      obtain rfl : (s.onHandshake ord peer token isBastonClient sent).2 = out :=
        congrArg Prod.snd (Option.some.inj h)
      exact fun p => mem_onHandshake
  | route peer targetNetId data =>
      intro p hp
      change s.onRoute lz4 peer targetNetId data = some (s', out) at h
      unfold onRoute at h
      split at h
      · obtain ⟨-, rfl⟩ := Prod.mk.inj (Option.some.inj h)
        cases hp
      · dsimp only at h
        split at h
        · obtain ⟨⟨t, o⟩, -, h⟩ := Option.bind_eq_some_iff.mp h
          obtain ⟨-, rfl⟩ := Prod.mk.inj (Option.some.inj h)
          obtain ⟨packet, -, hp⟩ := mem_flatMap_send hp
          rw [hp]
          simp
        · split at h
          · obtain ⟨-, rfl⟩ := Prod.mk.inj (Option.some.inj h)
            cases hp
          · obtain ⟨-, rfl⟩ := Prod.mk.inj (Option.some.inj h)
            rw [(mem_sendToSource hp).2]
            simp
  | requestObjectIds peer =>
      refine mem_onGamePacket h ?_
      intro source gs r hr packet hpacket
      obtain ⟨leased, -, rfl⟩ := Option.map_eq_some_iff.mp hr
      rw [List.mem_singleton.mp hpacket]
      simp
  | gameStateNack peer nack =>
      refine mem_onGamePacket h ?_
      intro source gs r hr packet hpacket
      obtain rfl := Option.some.inj hr
      cases hpacket
  | gameStateAck peer ack =>
      refine mem_onGamePacket h ?_
      intro source gs r hr packet hpacket
      obtain rfl := Option.some.inj hr
      cases hpacket
  | stateUpdate peer coords =>
      obtain ⟨-, rfl⟩ := Prod.mk.inj (Option.some.inj h)
      exact fun p hp => absurd hp (by simp)
  | onesyncTick ord pending =>
      intro p hp
      change s.onesyncTick lz4 ord pending = some (s', out) at h
      unfold onesyncTick at h
      dsimp only at h
      split at h
      · obtain ⟨-, rfl⟩ := Prod.mk.inj (Option.some.inj h)
        cases hp
      · obtain ⟨t, -, h⟩ := Option.bind_eq_some_iff.mp h
        obtain ⟨-, rfl⟩ := Prod.mk.inj (Option.some.inj h)
        obtain ⟨clientTick, -, hp⟩ := List.mem_flatMap.mp hp
        obtain ⟨packet, -, hp⟩ := mem_flatMap_send hp
        rw [hp]
        simp
  | script call =>
      obtain ⟨-, rfl⟩ := Prod.mk.inj (Option.some.inj h)
      exact fun p hp => absurd hp (by simp)

theorem arbitrated_quiet (h : Arbitrated past s) (hquiet : Quiet ev)
    (hstep : step lz4 ev s = some (s', out)) :
    Arbitrated (⟨s, ev, out, s'⟩ :: past) s' ∧ FreesOwed past ⟨s, ev, out, s'⟩ := by
  obtain ⟨hhost, hgrant, hwaiters, hconn⟩ := quiet_effect hquiet hstep
  obtain ⟨hrel, hstay, hans⟩ := quiet_entry (show Quiet (⟨s, ev, out, s'⟩ : UdpEntry F).op from hquiet)
  have howed : owed (⟨s, ev, out, s'⟩ :: past) = owed past := by
    rw [owed, hrel, hstay, hans]
    simp
  have hcleared : cleared (⟨s, ev, out, s'⟩ :: past) = cleared past := by
    rw [cleared, hrel, hans]
    simp
  refine ⟨⟨?_, ?_⟩, ?_⟩
  · rw [howed, hcleared]
    constructor
    · rw [hgrant]
      exact h.waiting.holder
    · rw [hwaiters]
      exact h.waiting.waiters
    · exact fun w hw => hconn w (h.waiting.connected w hw)
    · rw [hgrant]
      exact h.waiting.other
  · rw [hhost]
    exact fun host hh => hconn _ (h.sessionHost host hh)
  · unfold FreesOwed
    rw [hrel]
    show (frees out).map some = _
    rw [quiet_frees hquiet hstep]
    rfl

end Step

/-! ### Letting a grant go -/

section Arbitration

variable {s s' : UdpServer F} {past : List (UdpEntry F)} {waiting granted : List UInt32}

/-- The grant is let go, or not. -/
def letGo (s : UdpServer F) (lapsed : Bool) : UdpServer F × List (PeerId × Outgoing) :=
  if lapsed then s.releaseHostingGrant else (s, [])

theorem Waiting.letGo (h : Waiting waiting granted s) (lapsed : Bool) :
    Waiting (if lapsed then [] else waiting) (if lapsed then [] else granted) (s.letGo lapsed).1
      ∧ (frees (s.letGo lapsed).2).map some
        = if lapsed then waiting.map s.sourcePeers.lookup else [] := by
  cases lapsed with
  | true =>
      refine ⟨⟨fun source hsource => absurd hsource (by simp), rfl,
        fun w hw => absurd hw (by simp), fun w hw => absurd hw (by simp)⟩, ?_⟩
      refine (frees_release ?_).trans (by rw [h.waiters]; rfl)
      rw [h.waiters]
      exact h.connected
  | false => exact ⟨h, rfl⟩

theorem letGo_eq (s : UdpServer F) (lapsed : Bool) : (s.letGo lapsed).1 = { s with
    currentHosting := (s.letGo lapsed).1.currentHosting
    hostReleaseWaiters := (s.letGo lapsed).1.hostReleaseWaiters } := by
  cases lapsed with
  | true => rfl
  | false => rfl

theorem mem_letGo {lapsed : Bool} {p : PeerId × Outgoing} (h : p ∈ (s.letGo lapsed).2) :
    p.2 = .sessionHostResult .free := by
  cases lapsed with
  | true => exact mem_release h
  | false => cases h

/-- An event that lets a grant go, or does not, and answers nobody else. -/
theorem arbitrated_letGo (h : Arbitrated past s) {ev : UdpEvent F} {lapsed : Bool}
    (hrel : ∀ out s', releases ⟨s, ev, out, s'⟩ = lapsed)
    (hstay : ∀ out s', staying ⟨s, ev, out, s'⟩ (owed past) = owed past)
    (hans : ∀ r out s', answered r ⟨s, ev, out, s'⟩ = []) :
    Arbitrated (⟨s, ev, (s.letGo lapsed).2, (s.letGo lapsed).1⟩ :: past) (s.letGo lapsed).1
      ∧ FreesOwed past ⟨s, ev, (s.letGo lapsed).2, (s.letGo lapsed).1⟩ := by
  obtain ⟨hwaiting, hfrees⟩ := h.waiting.letGo lapsed
  refine ⟨⟨?_, ?_⟩, ?_⟩
  · rw [owed, cleared, hrel, hstay, hans, hans, List.append_nil, List.append_nil]
    exact hwaiting
  · rw [letGo_eq]
    exact h.sessionHost
  · unfold FreesOwed
    rw [hrel, hstay]
    exact hfrees

theorem arbitrated_expire (h : Arbitrated past s) (now : Nat) :
    Arbitrated (⟨s, .expire now, (s.expireHostingGrant now).2, (s.expireHostingGrant now).1⟩ :: past)
        (s.expireHostingGrant now).1
      ∧ FreesOwed past
        ⟨s, .expire now, (s.expireHostingGrant now).2, (s.expireHostingGrant now).1⟩ :=
  arbitrated_letGo h (fun _ _ => rfl) (fun _ _ => rfl) fun _ _ _ => rfl

theorem onHostedSession_letGo (s : UdpServer F) (peer : PeerId) :
    s.ofPeer peer s.onHostedSession
      = s.letGo (s.currentHosting.any fun grant => s.peerSources.lookup peer = some grant.1) := by
  unfold ofPeer onHostedSession letGo
  cases s.peerSources.lookup peer with
  | none => simp
  | some source => simp only [Option.some.injEq, eq_comm]

theorem arbitrated_hosted (h : Arbitrated past s) (peer : PeerId) :
    Arbitrated (⟨s, .hostedSession peer, (s.ofPeer peer s.onHostedSession).2,
          (s.ofPeer peer s.onHostedSession).1⟩ :: past) (s.ofPeer peer s.onHostedSession).1
      ∧ FreesOwed past ⟨s, .hostedSession peer, (s.ofPeer peer s.onHostedSession).2,
          (s.ofPeer peer s.onHostedSession).1⟩ := by
  rw [onHostedSession_letGo]
  exact arbitrated_letGo h (fun _ _ => rfl) (fun _ _ => rfl) fun _ _ _ => rfl

/-! ### A request -/

/-- What a request is answered, once an overdue grant has been let go. -/
inductive Request (s : UdpServer F) (source : UInt32) (deadline : Nat) :
    HostResult → UdpServer F → Prop
  /-- There is a host, or the asker holds the grant. -/
  | keeps {r : HostResult} (h : r = .conflict ∨ r = .go ∧
      ∃ d, s.currentHosting = some (source, d)) : Request s source deadline r s
  | waits {grant : UInt32 × Nat} (hgrant : s.currentHosting = some grant)
      (hother : grant.1 ≠ source) :
      Request s source deadline .wait
        { s with hostReleaseWaiters := s.hostReleaseWaiters ++ [source] }
  | goes (hnone : s.currentHosting = none) :
      Request s source deadline .go { s with currentHosting := some (source, deadline) }

theorem onHostingSession_cases {source : UInt32} {now : Nat} {peer : PeerId}
    (hpeer : s.sourcePeers.lookup source = some peer) {lapsed : Bool}
    (hlapsed : (s.currentHosting.any fun grant => decide (grant.2 ≤ now)) = lapsed) :
    ∃ r s', Request (s.letGo lapsed).1 source (now + hostingGrantTimeout) r s'
      ∧ s.onHostingSession source now
        = (s', (s.letGo lapsed).2 ++ [(peer, .sessionHostResult r)]) := by
  have hexpire : s.expireHostingGrant now = s.letGo lapsed := by
    unfold expireHostingGrant letGo
    rw [hlapsed]
  have hsend : ∀ r, (s.letGo lapsed).1.sendToSource source (.sessionHostResult r)
      = [(peer, .sessionHostResult r)] := by
    intro r
    rw [letGo_eq]
    unfold sendToSource
    dsimp only
    rw [hpeer]
  unfold onHostingSession
  rw [hexpire]
  dsimp only
  rw [hsend]
  split
  · exact ⟨_, _, .keeps (.inl rfl), rfl⟩
  · split
    · rename_i holder deadline hholder
      split
      · rename_i heq
        rw [hsend]
        exact ⟨_, _, .keeps (.inr ⟨rfl, deadline, by rw [hholder, heq]⟩), rfl⟩
      · rename_i hne
        rw [hsend]
        exact ⟨_, _, .waits hholder hne, rfl⟩
    · rename_i hnone
      rw [hsend]
      exact ⟨_, _, .goes hnone, rfl⟩

/-- A request adds its asker to those it is answered with. -/
theorem Waiting.request (h : Waiting waiting granted s) {source : UInt32} {deadline : Nat}
    {r : HostResult} (hconn : source ∈ s.sourcePeers) (hr : Request s source deadline r s')
    (hnone : s.currentHosting = none → waiting = [] ∧ granted = []) :
    Waiting (waiting ++ if r = .wait then [source] else [])
      (granted ++ if r = .go then [source] else []) s' := by
  cases hr with
  | keeps hkeeps =>
      rcases hkeeps with rfl | ⟨rfl, d, hd⟩
      · simpa using h
      · refine ⟨?_, by simpa using h.waiters, by simpa using h.connected, by simpa using h.other⟩
        intro other hother
        rcases List.mem_append.mp hother with hold | hnew
        · exact h.holder other hold
        · rw [if_pos rfl, List.mem_singleton] at hnew
          rw [hnew]
          exact ⟨d, hd⟩
  | waits hgrant hother =>
      refine ⟨by simpa using h.holder, by simp [h.waiters], ?_, ?_⟩
      · intro w hw
        rcases List.mem_append.mp hw with hold | hnew
        · exact h.connected w hold
        · rw [if_pos rfl, List.mem_singleton] at hnew
          rw [hnew]
          exact hconn
      · intro w hw
        rcases List.mem_append.mp hw with hold | hnew
        · exact h.other w hold
        · rw [if_pos rfl, List.mem_singleton] at hnew
          rw [hnew]
          exact ⟨_, hgrant, hother⟩
  | goes hfree =>
      obtain ⟨rfl, rfl⟩ := hnone hfree
      refine ⟨?_, by simpa using h.waiters, by simp, by simp⟩
      intro other hother
      rw [List.nil_append, if_pos rfl, List.mem_singleton] at hother
      rw [hother]
      exact ⟨_, rfl⟩

/-- Without a grant nobody waits and nobody was cleared. -/
theorem Waiting.idle (h : Waiting waiting granted s) (hnone : s.currentHosting = none) :
    waiting = [] ∧ granted = [] := by
  constructor
  · rw [List.eq_nil_iff_forall_not_mem]
    intro w hw
    obtain ⟨grant, hgrant, -⟩ := h.other w hw
    rw [hnone] at hgrant
    cases hgrant
  · rw [List.eq_nil_iff_forall_not_mem]
    intro source hsource
    obtain ⟨deadline, hgrant⟩ := h.holder source hsource
    rw [hnone] at hgrant
    cases hgrant

/-- Who is answered what by a request. -/
theorem answered_request {peer : PeerId} {source : UInt32} {now : Nat} {lapsed : Bool}
    {r : HostResult} (hsource : s.peerSources.lookup peer = some source) {r' : HostResult}
    (hr' : r' ≠ .free) :
    answered r' ⟨s, .hostingSession peer now,
        (s.letGo lapsed).2 ++ [(peer, .sessionHostResult r)], s'⟩
      = if r = r' then [source] else [] := by
  show (if (peer, Outgoing.sessionHostResult r') ∈ (s.letGo lapsed).2
    ++ [(peer, .sessionHostResult r)] then (s.peerSources.lookup peer).toList else []) = _
  rw [hsource]
  refine if_congr ?_ rfl rfl
  rw [List.mem_append, List.mem_singleton]
  constructor
  · rintro (hfree | heq)
    · have hfree' := mem_letGo hfree
      simp only [Outgoing.sessionHostResult.injEq] at hfree'
      exact absurd hfree' hr'
    · simp only [Prod.mk.injEq, Outgoing.sessionHostResult.injEq, true_and] at heq
      exact heq.symm
  · rintro rfl
    exact .inr rfl

theorem arbitrated_hosting (hlinked : s.Linked) (h : Arbitrated past s) (peer : PeerId)
    (now : Nat) {out : List (PeerId × Outgoing)}
    (hstep : (s.ofPeer peer fun source => s.onHostingSession source now) = (s', out)) :
    Arbitrated (⟨s, .hostingSession peer now, out, s'⟩ :: past) s'
      ∧ FreesOwed past ⟨s, .hostingSession peer now, out, s'⟩ := by
  unfold ofPeer at hstep
  cases hsource : s.peerSources.lookup peer with
  | none =>
      rw [hsource] at hstep
      obtain ⟨rfl, rfl⟩ := Prod.mk.inj hstep
      have hrel : releases ⟨s, .hostingSession peer now, [], s⟩ = false := by
        show ((s.peerSources.lookup peer).isSome && _) = false
        rw [hsource]
        rfl
      have hans : ∀ r, answered r ⟨s, .hostingSession peer now, [], s⟩ = [] := by
        intro r
        show (if (peer, Outgoing.sessionHostResult r) ∈ ([] : List (PeerId × Outgoing))
          then (s.peerSources.lookup peer).toList else []) = _
        exact if_neg List.not_mem_nil
      refine ⟨⟨?_, h.sessionHost⟩, ?_⟩
      · rw [owed, cleared, hrel, hans, hans, List.append_nil, List.append_nil]
        exact h.waiting
      · unfold FreesOwed
        rw [hrel]
        rfl
  | some source =>
      rw [hsource] at hstep
      dsimp only at hstep
      have hpeer := (hlinked peer source).mp hsource
      obtain ⟨r, t, hr, heq⟩ := onHostingSession_cases hpeer
        (rfl : _ = s.currentHosting.any fun grant => decide (grant.2 ≤ now))
      rw [heq] at hstep
      obtain ⟨rfl, rfl⟩ := Prod.mk.inj hstep
      have hrel : releases ⟨s, .hostingSession peer now, (s.letGo
          (s.currentHosting.any fun grant => decide (grant.2 ≤ now))).2
            ++ [(peer, .sessionHostResult r)], t⟩
          = s.currentHosting.any fun grant => decide (grant.2 ≤ now) := by
        show ((s.peerSources.lookup peer).isSome && _) = _
        rw [hsource]
        rfl
      generalize (s.currentHosting.any fun grant => decide (grant.2 ≤ now)) = lapsed at hr hrel ⊢
      obtain ⟨hwaiting, hfrees⟩ := h.waiting.letGo lapsed
      have hconn : source ∈ (s.letGo lapsed).1.sourcePeers := by
        rw [letGo_eq, ← AList.lookup_isSome]
        dsimp only
        rw [hpeer]
        rfl
      have hafter := hwaiting.request hconn hr hwaiting.idle
      have hshape : t.sessionHost = s.sessionHost ∧ t.sourcePeers = s.sourcePeers := by
        rw [letGo_eq] at hr
        cases hr with
        | keeps => exact ⟨rfl, rfl⟩
        | waits => exact ⟨rfl, rfl⟩
        | goes => exact ⟨rfl, rfl⟩
      have hfree : r ≠ .free := by
        cases hr with
        | keeps hkeeps =>
            rcases hkeeps with rfl | ⟨rfl, -⟩
            · simp
            · simp
        | waits => simp
        | goes => simp
      refine ⟨⟨?_, ?_⟩, ?_⟩
      · rw [owed, cleared, hrel, answered_request hsource (by simp),
          answered_request hsource (by simp)]
        exact hafter
      · rw [hshape.1, hshape.2]
        exact h.sessionHost
      · unfold FreesOwed
        rw [hrel]
        have hlast : frees [(peer, Outgoing.sessionHostResult r)] = [] :=
          frees_eq_nil fun p hp => by
            rw [List.mem_singleton.mp hp]
            simpa using hfree
        show (frees ((s.letGo lapsed).2 ++ [(peer, Outgoing.sessionHostResult r)])).map some = _
        rw [frees_append, hlast, List.append_nil]
        exact hfrees

/-! ### Announcements and departures -/

theorem arbitrated_iHost (hlinked : s.Linked) (h : Arbitrated past s) (ord : Orders)
    (peer : PeerId) (baseNum : UInt32) :
    Arbitrated (⟨s, .iHost ord peer baseNum, (s.onIHost ord peer baseNum).2,
          (s.onIHost ord peer baseNum).1⟩ :: past) (s.onIHost ord peer baseNum).1
      ∧ FreesOwed past ⟨s, .iHost ord peer baseNum, (s.onIHost ord peer baseNum).2,
          (s.onIHost ord peer baseNum).1⟩ := by
  have hlist : ∀ out s', Waiting (owed past) (cleared past) s' →
      Waiting (owed (⟨s, .iHost ord peer baseNum, out, s'⟩ :: past))
        (cleared (⟨s, .iHost ord peer baseNum, out, s'⟩ :: past)) s' := by
    intro out s' hw
    have howed : owed (⟨s, .iHost ord peer baseNum, out, s'⟩ :: past) = owed past :=
      List.append_nil _
    have hcleared : cleared (⟨s, .iHost ord peer baseNum, out, s'⟩ :: past) = cleared past :=
      List.append_nil _
    rw [howed, hcleared]
    exact hw
  have hfrees : ∀ out s', frees out = [] →
      FreesOwed past ⟨s, .iHost ord peer baseNum, out, s'⟩ := by
    intro out s' hnone
    show (frees out).map some = []
    rw [hnone]
    rfl
  unfold onIHost
  cases hsource : s.peerSources.lookup peer with
  | none => exact ⟨⟨hlist _ _ h.waiting, h.sessionHost⟩, hfrees _ _ rfl⟩
  | some source =>
      dsimp only
      split
      · exact ⟨⟨hlist _ _ h.waiting, h.sessionHost⟩, hfrees _ _ rfl⟩
      · refine ⟨⟨hlist _ _ ⟨h.waiting.holder, h.waiting.waiters, h.waiting.connected,
          h.waiting.other⟩, ?_⟩, hfrees _ _ (frees_eq_nil fun p => mem_broadcastHost)⟩
        intro host hhost
        obtain rfl := Option.some.inj hhost
        show source ∈ s.sourcePeers
        rw [← AList.lookup_isSome, (hlinked peer source).mp hsource]
        rfl

/-- A leaver gives up the session host, its places in the list, and the grant. -/
theorem leaveHosting_cases (s : UdpServer F) (ord : Orders) (source : UInt32) :
    ∃ sessionHost announced, (∀ host, sessionHost = some host →
        s.sessionHost = some host ∧ host.1 ≠ source)
      ∧ frees announced = []
      ∧ s.leaveHosting ord source
        = ((({ s with
              sessionHost
              hostReleaseWaiters := s.hostReleaseWaiters.filter fun w => w ≠ source } :
                UdpServer F).letGo (s.currentHosting.any fun grant => grant.1 = source)).1,
          announced ++ (({ s with
              sessionHost
              hostReleaseWaiters := s.hostReleaseWaiters.filter fun w => w ≠ source } :
                UdpServer F).letGo (s.currentHosting.any fun grant => grant.1 = source)).2) := by
  by_cases hhost : (s.sessionHost.any fun host => host.1 = source) = true
  · refine ⟨none, s.broadcastHost ord 0xFFFF 0, by simp,
      frees_eq_nil fun p => mem_broadcastHost, ?_⟩
    unfold leaveHosting
    rw [if_pos hhost]
    rfl
  · refine ⟨s.sessionHost, [], ?_, rfl, ?_⟩
    · intro host hsome
      refine ⟨hsome, fun heq => hhost ?_⟩
      rw [hsome]
      simpa using heq
    · unfold leaveHosting
      rw [if_neg hhost]
      rfl

theorem Waiting.leave (h : Waiting waiting granted s) (source : UInt32)
    (peerSources : Map PeerId UInt32) (focusPositions : Map UInt32 (Vec3 F))
    (sessionHost : Option (UInt32 × UInt32)) :
    Waiting (waiting.filter fun w => w ≠ source) granted { s with
      peerSources, focusPositions, sessionHost
      sourcePeers := s.sourcePeers.erase source
      hostReleaseWaiters := s.hostReleaseWaiters.filter fun w => w ≠ source } := by
  refine ⟨h.holder, by rw [h.waiters], ?_, ?_⟩
  · intro w hw
    obtain ⟨hmem, hne⟩ := List.mem_filter.mp hw
    exact AList.mem_erase.mpr ⟨by simpa using hne, h.connected w hmem⟩
  · intro w hw
    exact h.other w (List.mem_filter.mp hw).1

theorem arbitrated_disconnect (h : Arbitrated past s) {ord : Orders} {peer : PeerId}
    {handlers : List RoutingCall} {out : List (PeerId × Outgoing)}
    (hstep : s.onDisconnect ord peer handlers = some (s', out)) :
    Arbitrated (⟨s, .disconnect ord peer handlers, out, s'⟩ :: past) s'
      ∧ FreesOwed past ⟨s, .disconnect ord peer handlers, out, s'⟩ := by
  rcases onDisconnect_cases hstep with ⟨hnone, rfl, rfl⟩
    | ⟨source, onesync, hsource, -, rfl, dropped, hdropped, rfl⟩
  · have hrel : releases ⟨s', .disconnect ord peer handlers, [], s'⟩ = false := by
      show (s'.currentHosting.any fun grant => s'.peerSources.lookup peer = some grant.1) = false
      rw [hnone]
      simp
    have hstay : ∀ l, staying ⟨s', .disconnect ord peer handlers, [], s'⟩ l = l := by
      intro l
      show l.filter (fun w => s'.peerSources.lookup peer ≠ some w) = l
      rw [hnone]
      simp
    refine ⟨⟨?_, h.sessionHost⟩, ?_⟩
    · rw [owed, cleared, hrel, hstay]
      have hwait : owed past ++ [] = owed past := List.append_nil _
      have hgo : cleared past ++ [] = cleared past := List.append_nil _
      show Waiting (owed past ++ []) (cleared past ++ []) s'
      rw [hwait, hgo]
      exact h.waiting
    · unfold FreesOwed
      rw [hrel]
      rfl
  · obtain ⟨sessionHost, announced, hhost, hannounced, heq⟩ := leaveHosting_cases ({ s with
      peerSources := s.peerSources.erase peer
      sourcePeers := s.sourcePeers.erase source
      focusPositions := s.focusPositions.erase source } : UdpServer F) ord source
    rw [heq]
    dsimp only at hhost ⊢
    have hrel : ∀ out s', releases ⟨s, .disconnect ord peer handlers, out, s'⟩
        = s.currentHosting.any fun grant => grant.1 = source := by
      intro out s'
      show (s.currentHosting.any fun grant => s.peerSources.lookup peer = some grant.1) = _
      rw [hsource]
      simp only [Option.some.injEq, eq_comm]
    have hstay : ∀ out s', staying ⟨s, .disconnect ord peer handlers, out, s'⟩ (owed past)
        = (owed past).filter fun w => w ≠ source := by
      intro out s'
      show (owed past).filter (fun w => s.peerSources.lookup peer ≠ some w) = _
      rw [hsource]
      simp only [ne_eq, Option.some.injEq, eq_comm]
    generalize (s.currentHosting.any fun grant => grant.1 = source) = lapsed at hrel ⊢
    have hleft := h.waiting.leave source (s.peerSources.erase peer)
      (s.focusPositions.erase source) sessionHost
    obtain ⟨hwaiting, hfrees⟩ := hleft.letGo lapsed
    refine ⟨⟨?_, ?_⟩, ?_⟩
    · rw [owed, cleared, hrel, hstay]
      show Waiting (_ ++ []) (_ ++ []) _
      rw [List.append_nil, List.append_nil]
      exact ⟨hwaiting.holder, hwaiting.waiters, hwaiting.connected, hwaiting.other⟩
    · intro host hsome
      have hpost : sessionHost = some host := by
        rw [letGo_eq] at hsome
        exact hsome
      obtain ⟨hbefore, hne⟩ := hhost host hpost
      show host.1 ∈ (letGo _ lapsed).1.sourcePeers
      rw [letGo_eq]
      exact AList.mem_erase.mpr ⟨hne, h.sessionHost host hbefore⟩
    · unfold FreesOwed
      rw [hrel, hstay]
      show (frees (announced ++ (letGo _ lapsed).2 ++ dropped)).map some = _
      have hquiet : frees dropped = [] := by
        refine frees_eq_nil fun p hp => ?_
        obtain ⟨about, name, heq⟩ := hdropped p hp
        rw [heq]
        simp
      rw [frees_append, frees_append, hannounced, hquiet, List.append_nil, List.nil_append]
      refine hfrees.trans ?_
      refine if_congr Iff.rfl (List.map_congr_left fun w hw => ?_) rfl
      exact AList.lookup_erase_ne (by simpa using (List.mem_filter.mp hw).2)

end Arbitration

/-! ### Over whole runs -/

variable [Scalar F] {lz4 : Lz4} {onesync : Bool} {build : GameBuild} {cfg : InterestConfig F}
  {past : List (UdpEntry F)} {s s' : UdpServer F}

/-- One step of any kind. -/
theorem arbitrated_step (hlinked : s.Linked) (h : Arbitrated past s) {ev : UdpEvent F}
    {out : List (PeerId × Outgoing)} (hstep : step lz4 ev s = some (s', out)) :
    Arbitrated (⟨s, ev, out, s'⟩ :: past) s' ∧ FreesOwed past ⟨s, ev, out, s'⟩ := by
  cases ev with
  | disconnect ord peer handlers => exact arbitrated_disconnect h hstep
  | iHost ord peer baseNum =>
      obtain ⟨rfl, rfl⟩ := Prod.mk.inj (Option.some.inj hstep)
      exact arbitrated_iHost hlinked h ord peer baseNum
  | hostingSession peer now => exact arbitrated_hosting hlinked h peer now (Option.some.inj hstep)
  | hostedSession peer =>
      obtain ⟨rfl, rfl⟩ := Prod.mk.inj (Option.some.inj hstep)
      exact arbitrated_hosted h peer
  | expire now =>
      obtain ⟨rfl, rfl⟩ := Prod.mk.inj (Option.some.inj hstep)
      exact arbitrated_expire h now
  | _ => exact arbitrated_quiet h trivial hstep

/-- **The session host is arbitrated.**  Whoever was cleared since the last release holds the
grant; the list holds connected clients that wait for somebody else, each as often as it was
answered so; every release sends a `free` for each of these answers, to the peer of its client,
and nothing else sends one; the session host is connected. -/
theorem session_host_arbitrated (run : Run (step lz4) (spawn onesync build cfg) past s)
    (fresh : Along (fun _ e => FreshHandshake e) past) :
    Arbitrated past s ∧ Along FreesOwed past := by
  induction run with
  | nil =>
      refine ⟨⟨⟨?_, rfl, ?_, ?_⟩, ?_⟩, trivial⟩
      · exact fun source hsource => absurd hsource List.not_mem_nil
      · exact fun w hw => absurd hw List.not_mem_nil
      · exact fun w hw => absurd hw List.not_mem_nil
      · exact fun host hhost => absurd hhost (by simp [spawn])
  | snoc run hstep ih =>
      obtain ⟨h, hfrees⟩ := ih fresh.2
      obtain ⟨hnext, hfree⟩ := arbitrated_step ((peers_inverse_iff run).2 fresh.2) h hstep
      exact ⟨hnext, hfree, hfrees⟩

/-! ### A client that asks twice -/

/-- Two players connect, the first is cleared to host, and the second asks twice. -/
def asksTwice : List (UdpEvent Float32) :=
  [.initConnect "t" "Ann" [], .handshake .stored 0 "t" false true,
    .initConnect "u" "Bob" [], .handshake .stored 1 "u" false true,
    .hostingSession 0 0, .hostingSession 1 5, .hostingSession 1 9]

/-- Then the first is done. -/
theorem both_waits_freed : ∃ past s, Run (step LiteralRun.lz4) sample past s ∧ past.length = 8
    ∧ (past.head?.map fun e => frees e.answer) = some [1, 1]
    ∧ Arbitrated past s ∧ Along FreesOwed past := by
  have run := run_of_ops (step LiteralRun.lz4) sample (asksTwice ++ [.hostedSession 0]) rfl
  exact ⟨_, _, run, rfl, by decide +kernel, session_host_arbitrated run (by decide +kernel)⟩

/-- **It is on the list twice.** -/
theorem waits_twice : ¬ ∀ (past : List (UdpEntry Float32)) (s : UdpServer Float32),
    Run (step LiteralRun.lz4) sample past s → Along (fun _ e => FreshHandshake e) past →
      s.hostReleaseWaiters.Nodup := by
  intro h
  have run := run_of_ops (step LiteralRun.lz4) sample asksTwice rfl
  have hnodup := h _ _ run (by decide +kernel)
  revert hnodup
  decide +kernel

end UdpServer

end Baston.Gateway
