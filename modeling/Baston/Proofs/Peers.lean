/-
Which peer is which player.

Two maps say it, one for each direction.  A handshake writes both without looking at what they
held, and a disconnect clears one by the peer and the other by the source.  They stay inverse
exactly as long as nobody handshakes for a source that has a peer, and no peer for a second
source.
-/
import Baston.Lib.Inverse
import Baston.Proofs.Operations
import Baston.Proofs.UdpSteps
import Baston.Rage.LiteralRun

namespace Baston.Gateway

open Assoc Trace Baston.Rage Baston.Scripting Baston.Zone

variable {F : Type}

namespace UdpServer

/-- The two maps are each other's inverse. -/
def Linked (s : UdpServer F) : Prop := Inverse s.peerSources s.sourcePeers

/-! ### Whom a disconnect leaves alone -/

/-- A source keeps its peer, its player, its entities and its leases. -/
structure Keeps (source : UInt32) (live : PeerId) (s s' : UdpServer F) : Prop where
  sourcePeer : s'.sourcePeers.lookup source = some live
  peerSource : s'.peerSources.lookup live = s.peerSources.lookup live
  player : s'.players.players.lookup source = s.players.players.lookup source
  entities : ∀ gs, s.onesync = some gs → ∃ gs', s'.onesync = some gs' ∧
    ∀ id e, gs.entities.lookup id = some e → e.owner = source → gs'.entities.lookup id = some e
  leases : ∀ gs, s.onesync = some gs → ∃ gs', s'.onesync = some gs' ∧
    gs'.clients.lookup source = gs.clients.lookup source

/-- A peer that has been superseded for its source leaves the live one alone. -/
def Undisturbed (e : UdpEntry F) : Prop :=
  match e.op with
  | .disconnect _ peer _ => ∀ source live, e.pre.peerSources.lookup peer = some source →
      e.pre.sourcePeers.lookup source = some live → live ≠ peer → Keeps source live e.pre e.post
  | _ => True

/-- The source a peer hands a token for has no other peer, and the peer no other source. -/
def FreshHandshake (e : UdpEntry F) : Prop :=
  match e.op with
  | .handshake _ peer token _ _ =>
    ∀ source ∈ e.pre.players.sourceForToken token,
      (∀ other ∈ e.pre.peerSources.lookup peer, other = source)
        ∧ ∀ other ∈ e.pre.sourcePeers.lookup source, other = peer
  | _ => True

instance (e : UdpEntry F) : Decidable (FreshHandshake e) := by
  unfold FreshHandshake
  split
  · have (source : UInt32) (peer : PeerId) : Decidable ((∀ other ∈ e.pre.peerSources.lookup peer,
        other = source) ∧ ∀ other ∈ e.pre.sourcePeers.lookup source, other = peer) :=
      have := Option.decidableForallMem (p := fun other => other = source)
        (e.pre.peerSources.lookup peer)
      have := Option.decidableForallMem (p := fun other => other = peer)
        (e.pre.sourcePeers.lookup source)
      inferInstance
    exact Option.decidableForallMem _
  · exact isTrue trivial

section Step

variable [Scalar F] {lz4 : Lz4} {s s' : UdpServer F} {ev : UdpEvent F}
  {out : List (PeerId × Outgoing)}

/-- **One step** from maps that are inverse: whether they are after it. -/
theorem linked_step_iff (h : s.Linked) (hstep : step lz4 ev s = some (s', out)) :
    s'.Linked ↔ FreshHandshake ⟨s, ev, out, s'⟩ := by
  cases effect_of_step hstep with
  | letIn => exact iff_of_true h trivial
  | refused hnone =>
      refine iff_of_true h ?_
      intro source hsource
      exact absurd (hnone.symm.trans hsource) (by simp)
  | linked hsource =>
      refine (Inverse.link_iff h).trans ?_
      constructor
      · intro hfree source hs
        obtain rfl := Option.some.inj (hsource.symm.trans hs)
        exact hfree
      · intro hfree
        exact hfree _ hsource
  | stranger hnone => exact iff_of_true h trivial
  | left hsource hone => exact iff_of_true (Inverse.unlink h hsource) trivial
  | arbitrated hev =>
      refine iff_of_true h ?_
      cases ev with
      | handshake => exact hev.elim
      | _ => trivial
  | ingested hsource hgs hin => exact iff_of_true h trivial
  | served source hgs hserved =>
      refine iff_of_true h ?_
      cases ev with
      | handshake => exact hserved.elim
      | _ => trivial
  | focused => exact iff_of_true h trivial
  | @ticked ord pending gs t entityWorld hgs hpending =>
      obtain ⟨onesync, revision, heq⟩ := s.refreshRoutingState_eq ord
      refine iff_of_true ?_ trivial
      unfold Linked
      rw [heq]
      exact h
  | idle hnone => exact iff_of_true h trivial
  | scripted => exact iff_of_true h trivial
  | ignored hev =>
      refine iff_of_true h ?_
      cases ev with
      | handshake => exact hev.elim
      | _ => trivial

omit [Scalar F] in
/-- Of a linked server nobody has been superseded. -/
theorem Linked.undisturbed (h : s.Linked) : Undisturbed ⟨s, ev, out, s'⟩ := by
  cases ev with
  | disconnect ord peer handlers =>
      intro source live hsource hlive hne
      exact absurd (Option.some.inj (hlive.symm.trans ((h peer source).mp hsource))) hne
  | _ => trivial

/-- **A superseded peer takes everything with it.**  Whoever the source belongs to now, its
mapping, its player, its leases and the entities it owns are gone. -/
theorem disconnect_takes_source {ord : Orders} {peer : PeerId} {handlers : List RoutingCall}
    {source : UInt32} (hsource : s.peerSources.lookup peer = some source)
    (hstep : step lz4 (.disconnect ord peer handlers) s = some (s', out)) :
    s'.sourcePeers.lookup source = none ∧ s'.players.players.lookup source = none
      ∧ ∀ gs', s'.onesync = some gs' → gs'.clients.lookup source = none
        ∧ ∀ id e, gs'.entities.lookup id = some e → e.owner = source →
          e.serverOwned = true ∧ source = 0 := by
  cases effect_of_step hstep with
  | stranger hnone => exact absurd (hnone.symm.trans hsource) (by simp)
  | arbitrated hev => exact hev.elim
  | served _ _ hserved => exact hserved.elim
  | ignored hev => exact hev.elim
  | @left _ _ _ source' onesync _ _ _ hsource' hone =>
      obtain rfl := Option.some.inj (hsource'.symm.trans hsource)
      refine ⟨by simp, by simp [PlayerDirectory.remove], ?_⟩
      intro gs' hgs'
      dsimp only at hgs'
      subst hgs'
      cases hgs : s.onesync with
      | none =>
          rw [hgs] at hone
          simp at hone
      | some gs =>
          rw [hgs] at hone
          obtain ⟨r, hr, heq⟩ := Option.map_eq_some_iff.mp
            (show ((gs.removeClient ord.entities source').map Prod.fst).map some
              = some (some gs') by simpa using hone)
          obtain ⟨⟨t, ids⟩, hremoved, rfl⟩ := Option.map_eq_some_iff.mp hr
          obtain rfl := Option.some.inj heq
          refine ⟨by rw [ServerGameState.removeClient_clients hremoved]; simp, ?_⟩
          intro id e he howner
          rw [ServerGameState.removeClient_lookup hremoved] at he
          obtain ⟨before, hbefore, he⟩ := Option.bind_eq_some_iff.mp he
          split at he
          · unfold ServerGameState.orphan at he
            split at he
            · rename_i hserver
              obtain rfl := Option.some.inj he
              exact ⟨hserver, howner.symm⟩
            · cases he
          · rename_i hother
            obtain rfl := Option.some.inj he
            exact absurd howner hother

end Step

/-! ### Over whole runs -/

variable [Scalar F] {lz4 : Lz4} {onesync : Bool} {build : GameBuild} {cfg : InterestConfig F}
  {past : List (UdpEntry F)} {s : UdpServer F}

omit [Scalar F] in
theorem linked_spawn : (spawn onesync build cfg).Linked := Inverse.empty

/-- **The maps are inverse, and no superseded peer disturbs the live one, in every state of a run
exactly when every handshake of it is fresh.** -/
theorem peers_inverse_iff (run : Run (step lz4) (spawn onesync build cfg) past s) :
    ((∀ e ∈ past, Inverse e.post.peerSources e.post.sourcePeers ∧ Undisturbed e)
        ↔ Along (fun _ e => FreshHandshake e) past)
      ∧ (Along (fun _ e => FreshHandshake e) past → Inverse s.peerSources s.sourcePeers) := by
  have hlast : ∀ {past s}, Run (step lz4) (spawn onesync build cfg) past s →
      (∀ e ∈ past, Inverse e.post.peerSources e.post.sourcePeers ∧ Undisturbed e) → s.Linked := by
    intro past s run hall
    cases run with
    | nil => exact linked_spawn
    | snoc run hstep => exact (hall _ List.mem_cons_self).1
  have hiff : (∀ e ∈ past, Inverse e.post.peerSources e.post.sourcePeers ∧ Undisturbed e)
      ↔ Along (fun _ e => FreshHandshake e) past := by
    induction run with
    | nil => exact iff_of_true (fun e he => absurd he (by simp)) trivial
    | snoc run hstep ih =>
        rw [List.forall_mem_cons]
        constructor
        · rintro ⟨⟨hpost, -⟩, hall⟩
          exact ⟨(linked_step_iff (hlast run hall) hstep).mp hpost, ih.mp hall⟩
        · rintro ⟨hfresh, halong⟩
          have hall := ih.mpr halong
          have hbefore := hlast run hall
          exact ⟨⟨(linked_step_iff hbefore hstep).mpr hfresh, hbefore.undisturbed⟩, hall⟩
  exact ⟨hiff, fun halong => hlast run (hiff.mpr halong)⟩

/-! ### A reconnect, and one that is too early -/

/-- A player is let in, connects, times out and connects again. -/
def reconnects : List (UdpEvent Float32) :=
  [.initConnect "t" "Ann" [], .handshake .stored 0 "t" false true, .disconnect .stored 0 [],
    .initConnect "u" "Ann" [], .handshake .stored 1 "u" false true]

/-- It connects again before its old connection has timed out, which then does. -/
def reconnectsEarly : List (UdpEvent Float32) :=
  [.initConnect "t" "Ann" [], .handshake .stored 0 "t" false true,
    .handshake .stored 1 "t" false true, .disconnect .stored 0 []]

/-- The server of the examples. -/
def sample : UdpServer Float32 := spawn true ⟨3258⟩ .standard

theorem reconnect_linked : ∃ past s, Run (step LiteralRun.lz4) sample past s ∧ past.length = 5
    ∧ s.peerSources.lookup 1 = some 2 ∧ Inverse s.peerSources s.sourcePeers := by
  have run := run_of_ops (step LiteralRun.lz4) sample reconnects rfl
  exact ⟨_, _, run, rfl, by decide +kernel, (peers_inverse_iff run).2 (by decide +kernel)⟩

/-- **The live peer of a reconnected player is forgotten.** -/
theorem early_reconnect_not_linked :
    ¬ ∀ (past : List (UdpEntry Float32)) (s : UdpServer Float32),
      Run (step LiteralRun.lz4) sample past s →
        ∀ e ∈ past, Inverse e.post.peerSources e.post.sourcePeers ∧ Undisturbed e := by
  intro h
  have run := run_of_ops (step LiteralRun.lz4) sample reconnectsEarly rfl
  obtain ⟨-, hkeeps⟩ := h _ _ run _ List.mem_cons_self
  have hgone := (hkeeps 1 1 (by decide +kernel) (by decide +kernel) (by decide)).sourcePeer
  revert hgone
  decide +kernel

end UdpServer

end Baston.Gateway
