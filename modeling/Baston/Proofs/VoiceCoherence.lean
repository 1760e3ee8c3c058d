/-
The voice server's maps agree.

Five of them are keyed by session, and two hold sessions in the channels.  An
authentication fills all it has to and a teardown empties all there are, so what can go
wrong is a handler that files something for an id that has no session.  One does: a
`UserState` moves the id of its connection between channels whether or not it has a session
still.
-/
import Baston.Lib.Inverse
import Baston.Proofs.VoiceSessions
import Baston.Voice.Control

namespace Baston.Voice

open Assoc Trace

abbrev UdpEntry := Entry VoiceServer VoiceOp (Option (UInt32 × List UInt8))

/-- The maps of a state agree. -/
structure Coherent (st : VoiceState) : Prop where
  members : ∀ netid id, st.channels.Member netid id → netid ∈ st.sessions
  listeners : ∀ netid id, st.channels.Listener netid id → netid ∈ st.sessions
  placed : ∀ netid ∈ st.sessions, ∃ id, ∀ id', st.channels.Member netid id' ↔ id' = id
  crypt : ∀ netid, netid ∈ st.crypt ↔ netid ∈ st.sessions
  controlTx : ∀ netid, netid ∈ st.controlTx ↔ netid ∈ st.sessions
  addresses : Inverse st.udpAddr st.addrIndex
  bound : ∀ netid ∈ st.udpAddr, netid ∈ st.sessions

/-- Whether a message files its sender in a channel. -/
def UserState.files (us : UserState) (channels : ChannelStore) : Bool :=
  us.channelId.isSome
    || us.listeningChannelAdd.any fun id =>
      channels.contains id && decide (id ∉ us.listeningChannelRemove)

/-- A connection whose id has no session files itself in no channel. -/
def HasSession (_past : List UdpEntry) (e : UdpEntry) : Prop :=
  match e.op with
  | .control (.message conn (.userState us)) =>
    ∀ netid ∈ e.pre.remembered conn,
      us.files e.pre.voice.channels = true → netid ∈ e.pre.voice.sessions
  | _ => True

instance (past : List UdpEntry) (e : UdpEntry) : Decidable (HasSession past e) := by
  unfold HasSession
  split
  · exact Option.decidableForallMem _
  · exact isTrue trivial

section Handlers

variable {st : VoiceState} {netid : UInt32}

/-- Who listens after the additions of a message. -/
theorem listener_add {ids : List UInt32} {channels : ChannelStore} {session id : UInt32} :
    (ids.foldl (fun c ch => c.setListening netid ch true) channels).Listener session id
      ↔ channels.Listener session id
        ∨ session = netid ∧ id ∈ ids ∧ channels.contains id = true := by
  induction ids generalizing channels with
  | nil => simp
  | cons ch rest ih =>
      refine ih.trans ?_
      rw [ChannelStore.listener_setListening, ChannelStore.contains_setListening]
      by_cases hhere : session = netid ∧ id = ch
      · obtain ⟨rfl, rfl⟩ := hhere
        simp only [and_self, if_true, true_and, List.mem_cons, true_or]
        constructor
        · rintro (h | ⟨-, h⟩)
          · exact .inr h
          · exact .inr h
        · rintro (⟨c, hc, -⟩ | h)
          · exact .inl (by unfold ChannelStore.contains; rw [hc]; rfl)
          · exact .inl h
      · rw [if_neg hhere, List.mem_cons]
        refine or_congr_right ?_
        constructor
        · rintro ⟨hs, hmem, hc⟩
          exact ⟨hs, .inr hmem, hc⟩
        · rintro ⟨hs, hmem, hc⟩
          exact ⟨hs, hmem.resolve_left fun heq => hhere ⟨hs, heq⟩, hc⟩

/-- Who listens after the removals of a message. -/
theorem listener_remove {ids : List UInt32} {channels : ChannelStore} {session id : UInt32} :
    (ids.foldl (fun c ch => c.setListening netid ch false) channels).Listener session id
      ↔ channels.Listener session id ∧ ¬ (session = netid ∧ id ∈ ids) := by
  induction ids generalizing channels with
  | nil => simp
  | cons ch rest ih =>
      refine ih.trans ?_
      rw [ChannelStore.listener_setListening]
      by_cases hhere : session = netid ∧ id = ch
      · obtain ⟨rfl, rfl⟩ := hhere
        simp
      · rw [if_neg hhere, List.mem_cons]
        refine and_congr_right fun _ => not_congr ?_
        refine and_congr_right fun hs => ?_
        have hne : id ≠ ch := fun heq => hhere ⟨hs, heq⟩
        simp [hne]

/-- A `UserState` has its sender listen to what it adds and does not remove. -/
theorem listener_listen {us : UserState} {channels : ChannelStore} {session id : UInt32} :
    (VoiceState.listen channels netid us).Listener session id
      ↔ (channels.Listener session id
          ∨ session = netid ∧ id ∈ us.listeningChannelAdd ∧ channels.contains id = true)
        ∧ ¬ (session = netid ∧ id ∈ us.listeningChannelRemove) := by
  unfold VoiceState.listen
  rw [listener_remove, listener_add]

theorem listener_enterChannel {channels : ChannelStore} {channelId session id : UInt32} :
    (VoiceState.enterChannel channels netid channelId).Listener session id
      ↔ channels.Listener session id := by
  unfold VoiceState.enterChannel
  split
  · exact ChannelStore.listener_join
  · exact ChannelStore.listener_join.trans ChannelStore.listener_createGameChannel

/-- A handler that only rewrites what is filed leaves the maps agreeing. -/
theorem Coherent.of_same {st' : VoiceState} (h : Coherent st)
    (hsessions : ∀ n, n ∈ st'.sessions ↔ n ∈ st.sessions) (hchannels : st'.channels = st.channels)
    (hcrypt : ∀ n, n ∈ st'.crypt ↔ n ∈ st.crypt) (hcontrol : st'.controlTx = st.controlTx)
    (hudp : st'.udpAddr = st.udpAddr) (hindex : st'.addrIndex = st.addrIndex) : Coherent st' where
  members := by
    rw [hchannels]
    exact fun n id hmember => (hsessions n).mpr (h.members n id hmember)
  listeners := by
    rw [hchannels]
    exact fun n id hlistener => (hsessions n).mpr (h.listeners n id hlistener)
  placed := by
    rw [hchannels]
    exact fun n hn => h.placed n ((hsessions n).mp hn)
  crypt := fun n => (hcrypt n).trans ((h.crypt n).trans (hsessions n).symm)
  controlTx := by
    rw [hcontrol]
    exact fun n => (h.controlTx n).trans (hsessions n).symm
  addresses := by
    rw [hudp, hindex]
    exact h.addresses
  bound := by
    rw [hudp]
    exact fun n hn => (hsessions n).mpr (h.bound n hn)

/-- Who listens after a `UserState`. -/
theorem listener_handleUserState (us : UserState) (session id : UInt32) :
    (st.handleUserState netid us).channels.Listener session id
      ↔ (st.channels.Listener session id
          ∨ session = netid ∧ id ∈ us.listeningChannelAdd
            ∧ (match us.channelId with
              | some channelId => VoiceState.enterChannel st.channels netid channelId
              | none => st.channels).contains id = true)
        ∧ ¬ (session = netid ∧ id ∈ us.listeningChannelRemove) := by
  unfold VoiceState.handleUserState
  refine listener_listen.trans (and_congr_left fun _ => or_congr_left ?_)
  cases us.channelId with
  | none => exact Iff.rfl
  | some channelId => exact listener_enterChannel

/-- A message that files its sender in a channel has it in one afterwards. -/
theorem filed_of_files (netid : UInt32) (hfiled : st.channels.Filed) {us : UserState}
    (hfiles : us.files st.channels = true) :
    (∃ id, (st.handleUserState netid us).channels.Member netid id)
      ∨ ∃ id, (st.handleUserState netid us).channels.Listener netid id := by
  unfold UserState.files at hfiles
  cases hchannel : us.channelId with
  | some channelId =>
      refine .inl ⟨channelId, (member_handleUserState hfiled us netid channelId).mpr ?_⟩
      rw [hchannel]
      simp
  | none =>
      rw [hchannel] at hfiles
      simp only [Option.isSome_none, Bool.false_or, List.any_eq_true, Bool.and_eq_true,
        decide_eq_true_eq] at hfiles
      obtain ⟨id, hadd, hcontains, hremove⟩ := hfiles
      refine .inr ⟨id, (listener_handleUserState us netid id).mpr ⟨.inr ⟨rfl, hadd, ?_⟩, ?_⟩⟩
      · rw [hchannel]
        exact hcontains
      · exact fun h => hremove h.2

/-- A message that does not leaves every session in its channels or takes it out of them. -/
theorem kept_of_not_files (hfiled : st.channels.Filed) {us : UserState}
    (hfiles : ¬ us.files st.channels = true) (session id : UInt32) :
    ((st.handleUserState netid us).channels.Member session id ↔ st.channels.Member session id)
      ∧ ((st.handleUserState netid us).channels.Listener session id
        → st.channels.Listener session id) := by
  simp only [UserState.files, Bool.or_eq_true, not_or, Option.not_isSome_iff_eq_none,
    List.any_eq_true, Bool.and_eq_true, decide_eq_true_eq, not_exists, not_and, not_not] at hfiles
  obtain ⟨hchannel, hlisten⟩ := hfiles
  constructor
  · refine (member_handleUserState hfiled us session id).trans ?_
    rw [hchannel]
  · intro h
    obtain ⟨hwas, hremove⟩ := (listener_handleUserState us session id).mp h
    rcases hwas with hwas | ⟨hsession, hadd, hcontains⟩
    · exact hwas
    · rw [hchannel] at hcontains
      exact absurd ⟨hsession, hlisten id hadd hcontains⟩ hremove

/-- A `UserState` leaves the maps agreeing exactly when its sender has a session or is filed in no
channel by it. -/
theorem coherent_userState_iff (h : Coherent st) (hfiled : st.channels.Filed) (us : UserState) :
    Coherent (st.handleUserState netid us)
      ↔ (us.files st.channels = true → netid ∈ st.sessions) := by
  have hsessions : ∀ n, n ∈ (st.handleUserState netid us).sessions ↔ n ∈ st.sessions :=
    fun n => Map.mem_modify netid n _ _
  have hmember : ∀ session id, (st.handleUserState netid us).channels.Member session id ↔ _ :=
    member_handleUserState hfiled us
  constructor
  · intro hafter hfiles
    rcases filed_of_files netid hfiled hfiles with ⟨id, hid⟩ | ⟨id, hid⟩
    · exact (hsessions netid).mp (hafter.members netid id hid)
    · exact (hsessions netid).mp (hafter.listeners netid id hid)
  · intro hright
    have hothers : ∀ {session id}, session ≠ netid →
        ((st.handleUserState netid us).channels.Member session id
          ↔ st.channels.Member session id)
        ∧ ((st.handleUserState netid us).channels.Listener session id
          → st.channels.Listener session id) := by
      intro session id hne
      refine ⟨(hmember session id).trans ?_, fun hid => ?_⟩
      · cases us.channelId with
        | none => exact Iff.rfl
        | some channelId => exact iff_of_eq (if_neg hne)
      · obtain ⟨hwas | ⟨heq, -⟩, -⟩ := (listener_handleUserState us session id).mp hid
        · exact hwas
        · exact absurd heq hne
    have hstays : ∀ session id, session ∉ st.sessions →
        ((st.handleUserState netid us).channels.Member session id
          ↔ st.channels.Member session id)
        ∧ ((st.handleUserState netid us).channels.Listener session id
          → st.channels.Listener session id) := by
      intro session id hnone
      by_cases heq : session = netid
      · subst heq
        exact kept_of_not_files hfiled (fun hfiles => hnone (hright hfiles)) session id
      · exact hothers heq
    refine ⟨?_, ?_, ?_, ?_, ?_, h.addresses, ?_⟩
    · intro n id hid
      by_contra hnone
      have hn : n ∉ st.sessions := fun hin => hnone ((hsessions n).mpr hin)
      exact hn (h.members n id ((hstays n id hn).1.mp hid))
    · intro n id hid
      by_contra hnone
      have hn : n ∉ st.sessions := fun hin => hnone ((hsessions n).mpr hin)
      exact hn (h.listeners n id ((hstays n id hn).2 hid))
    · intro n hn
      obtain ⟨id, hid⟩ := h.placed n ((hsessions n).mp hn)
      by_cases heq : n = netid
      · subst heq
        cases hchannel : us.channelId with
        | none =>
            refine ⟨id, fun id' => (hmember n id').trans ?_⟩
            rw [hchannel]
            exact hid id'
        | some channelId =>
            refine ⟨channelId, fun id' => (hmember n id').trans ?_⟩
            rw [hchannel]
            exact iff_of_eq (if_pos rfl)
      · exact ⟨id, fun id' => (hothers heq).1.trans (hid id')⟩
    · exact fun n => (h.crypt n).trans (hsessions n).symm
    · exact fun n => (h.controlTx n).trans (hsessions n).symm
    · exact fun n hn => (hsessions n).mpr (h.bound n hn)

theorem Coherent.authenticate (h : Coherent st) (hfiled : st.channels.Filed) (conn : Nat)
    (netid : UInt32) (username : String) (fresh : Fresh) :
    Coherent (st.authenticate conn netid username fresh) := by
  have hsessions : ∀ n, n ∈ (st.authenticate conn netid username fresh).sessions
      ↔ n = netid ∨ n ∈ st.sessions := by
    intro n
    rw [← AList.lookup_isSome, ← AList.lookup_isSome]
    show ((st.sessions.entryOrInsert netid (Session.new netid username)).lookup n).isSome = true ↔ _
    rw [Map.lookup_entryOrInsert]
    split
    · next heq => simp [heq]
    · next hne => simp [hne]
  have hmember : ∀ n id, (st.authenticate conn netid username fresh).channels.Member n id
      ↔ if n = netid then id = ROOT_CHANNEL else st.channels.Member n id :=
    fun n id => ChannelStore.member_join hfiled
  refine ⟨?_, ?_, ?_, ?_, ?_, h.addresses, ?_⟩
  · intro n id hid
    rw [hmember] at hid
    split at hid
    · next heq => exact (hsessions n).mpr (.inl heq)
    · exact (hsessions n).mpr (.inr (h.members n id hid))
  · intro n id hid
    exact (hsessions n).mpr (.inr (h.listeners n id (ChannelStore.listener_join.mp hid)))
  · intro n hn
    by_cases heq : n = netid
    · exact ⟨ROOT_CHANNEL, fun id' => (hmember n id').trans (iff_of_eq (if_pos heq))⟩
    · obtain ⟨id, hid⟩ := h.placed n (((hsessions n).mp hn).resolve_left heq)
      exact ⟨id, fun id' => (hmember n id').trans ((iff_of_eq (if_neg heq)).trans (hid id'))⟩
  · intro n
    exact (AList.mem_insert _).trans ((or_congr_right (h.crypt n)).trans (hsessions n).symm)
  · intro n
    exact (AList.mem_insert _).trans ((or_congr_right (h.controlTx n)).trans (hsessions n).symm)
  · exact fun n hn => (hsessions n).mpr (.inr (h.bound n hn))

theorem Coherent.removeSession (h : Coherent st) (hfiled : st.channels.Filed) (netid : UInt32) :
    Coherent (st.removeSession netid) := by
  by_cases hmem : netid ∈ st.sessions
  · have hsessions : ∀ n, n ∈ (st.removeSession netid).sessions ↔ n ≠ netid ∧ n ∈ st.sessions :=
      fun n => mem_removeSession
    unfold VoiceState.removeSession at hsessions ⊢
    rw [if_pos hmem] at hsessions ⊢
    refine ⟨?_, ?_, ?_, ?_, ?_, ?_, ?_⟩
    · intro n id hid
      obtain ⟨hne, hid⟩ := (ChannelStore.member_dropSession hfiled).mp hid
      exact (hsessions n).mpr ⟨hne, h.members n id hid⟩
    · intro n id hid
      obtain ⟨hne, hid⟩ := ChannelStore.listener_dropSession.mp hid
      exact (hsessions n).mpr ⟨hne, h.listeners n id hid⟩
    · intro n hn
      obtain ⟨hne, hn⟩ := (hsessions n).mp hn
      obtain ⟨id, hid⟩ := h.placed n hn
      exact ⟨id, fun id' => (ChannelStore.member_dropSession hfiled).trans
        ((and_iff_right hne).trans (hid id'))⟩
    · exact fun n => AList.mem_erase.trans ((and_congr_right fun _ => h.crypt n).trans
        (hsessions n).symm)
    · exact fun n => AList.mem_erase.trans ((and_congr_right fun _ => h.controlTx n).trans
        (hsessions n).symm)
    · cases haddr : st.udpAddr.lookup netid with
      | some addr => exact h.addresses.unlink haddr
      | none =>
          intro n addr
          show (st.udpAddr.erase netid).lookup n = some addr ↔ _
          rw [Map.lookup_erase_of]
          split
          · next heq =>
              rw [heq, ← h.addresses netid addr, haddr]
          · exact h.addresses n addr
    · intro n hn
      obtain ⟨hne, hn⟩ := AList.mem_erase.mp hn
      exact (hsessions n).mpr ⟨hne, h.bound n hn⟩
  · unfold VoiceState.removeSession
    rw [if_neg hmem]
    exact h

theorem Coherent.createChannel (h : Coherent st) (id : UInt32) :
    Coherent (st.createChannel id) := by
  unfold VoiceState.createChannel
  split
  · exact h
  · refine ⟨?_, ?_, ?_, h.crypt, h.controlTx, h.addresses, h.bound⟩
    · exact fun n id' hid => h.members n id' (ChannelStore.member_createGameChannel.mp hid)
    · exact fun n id' hid => h.listeners n id' (ChannelStore.listener_createGameChannel.mp hid)
    · intro n hn
      obtain ⟨c, hc⟩ := h.placed n hn
      exact ⟨c, fun id' => ChannelStore.member_createGameChannel.trans (hc id')⟩

theorem Coherent.tryDecrypt (h : Coherent st) {session : UInt32} {crypt : CryptState}
    (hcrypt : st.crypt.lookup session = some crypt) (datagram : List UInt8) :
    Coherent (st.tryDecrypt session crypt datagram).1 := by
  refine h.of_same (fun n => Iff.rfl) rfl (fun n => ?_) rfl rfl rfl
  refine (AList.mem_insert _).trans ⟨?_, .inr⟩
  rintro (rfl | hn)
  · exact AList.lookup_isSome.mp (by rw [hcrypt]; rfl)
  · exact hn

/-- An address nobody has is bound to a session. -/
theorem Coherent.bindAddress (h : Coherent st) {session : UInt32} {peer : SocketAddr}
    (hsession : session ∈ st.sessions) (hpeer : st.addrIndex.lookup peer = none) :
    Coherent (st.bindAddress session peer) := by
  refine ⟨h.members, h.listeners, h.placed, h.crypt, h.controlTx, ?_, ?_⟩
  · unfold VoiceState.bindAddress
    cases hold : st.udpAddr.lookup session with
    | some old => exact h.addresses.relink hold hpeer
    | none => exact h.addresses.link hold hpeer
  · intro n hn
    rcases (AList.mem_insert _).mp hn with rfl | hn
    · exact hsession
    · exact h.bound n hn

theorem Coherent.tryAll {peer : SocketAddr} {datagram : List UInt8} :
    ∀ (candidates : List UInt32) {st : VoiceState}, Coherent st →
      st.addrIndex.lookup peer = none →
      Coherent (VoiceState.tryAll peer datagram candidates st).1 := by
  intro candidates
  induction candidates with
  | nil =>
      intro st h hpeer
      exact h
  | cons session rest ih =>
      intro st h hpeer
      unfold VoiceState.tryAll
      cases hcrypt : st.crypt.lookup session with
      | none => exact ih h hpeer
      | some crypt =>
          have hsession : session ∈ st.sessions :=
            (h.crypt session).mp (AList.lookup_isSome.mp (by rw [hcrypt]; rfl))
          have htried := h.tryDecrypt hcrypt datagram
          dsimp only
          have hsame : (st.tryDecrypt session crypt datagram).1.sessions = st.sessions
              ∧ (st.tryDecrypt session crypt datagram).1.addrIndex = st.addrIndex := ⟨rfl, rfl⟩
          generalize st.tryDecrypt session crypt datagram = tried at htried hsame
          obtain ⟨st', plain⟩ := tried
          obtain ⟨hsessions, hindex⟩ := hsame
          have hfree : st'.addrIndex.lookup peer = none := by rw [hindex, hpeer]
          cases plain with
          | none => exact ih htried hfree
          | some plain => exact htried.bindAddress (by rw [hsessions]; exact hsession) hfree

theorem Coherent.decryptFrom (h : Coherent st) (ord : IterOrder UInt32) (peer : SocketAddr)
    (datagram : List UInt8) : Coherent (st.decryptFrom ord peer datagram).1 := by
  unfold VoiceState.decryptFrom
  cases hpeer : st.addrIndex.lookup peer with
  | none => exact Coherent.tryAll _ h hpeer
  | some session =>
      dsimp only
      cases hcrypt : st.crypt.lookup session with
      | none => exact h
      | some crypt => exact h.tryDecrypt hcrypt datagram

/-- Nothing of a datagram reaches the channels. -/
theorem channels_decryptFrom (ord : IterOrder UInt32) (peer : SocketAddr)
    (datagram : List UInt8) : (st.decryptFrom ord peer datagram).1.channels = st.channels := by
  have hall : ∀ (candidates : List UInt32) (st : VoiceState),
      (VoiceState.tryAll peer datagram candidates st).1.channels = st.channels := by
    intro candidates
    induction candidates with
    | nil =>
        intro st
        rfl
    | cons session rest ih =>
        intro st
        unfold VoiceState.tryAll
        cases hcrypt : st.crypt.lookup session with
        | none => exact ih st
        | some crypt =>
            dsimp only
            have hsame : (st.tryDecrypt session crypt datagram).1.channels = st.channels := rfl
            generalize st.tryDecrypt session crypt datagram = tried at hsame
            obtain ⟨st', plain⟩ := tried
            cases plain with
            | none => exact (ih st').trans hsame
            | some plain => exact hsame
  unfold VoiceState.decryptFrom
  cases hpeer : st.addrIndex.lookup peer with
  | none => exact hall _ st
  | some session =>
      dsimp only
      cases st.crypt.lookup session with
      | none => rfl
      | some crypt => rfl

end Handlers

/-! ### Runs -/

theorem coherent_init : Coherent {} := by
  have hnone : ∀ netid, netid ∉ ({} : VoiceState).sessions := fun netid => AList.notMem_empty netid
  have hroot : ∀ {id ch}, ChannelStore.new.channels.lookup id = some ch →
      ch.members = ∅ ∧ ch.listeners = ∅ := by
    intro id ch h
    by_cases hid : id = ROOT_CHANNEL
    · subst hid
      obtain rfl := Option.some.inj h
      exact ⟨rfl, rfl⟩
    · rw [AList.lookup_eq_none.mpr (by simpa [ChannelStore.new, AList.mem_keys] using hid)] at h
      exact absurd h (by simp)
  refine ⟨?_, ?_, ?_, fun netid => Iff.rfl, fun netid => Iff.rfl, Inverse.empty, ?_⟩
  · rintro netid id ⟨ch, hch, hmem⟩
    rw [(hroot hch).1] at hmem
    exact absurd hmem (Finset.notMem_empty netid)
  · rintro netid id ⟨ch, hch, hmem⟩
    rw [(hroot hch).2] at hmem
    exact absurd hmem (Finset.notMem_empty netid)
  · exact fun netid h => absurd h (hnone netid)
  · exact fun netid h => absurd h (AList.notMem_empty netid)

variable {s s' : VoiceServer} {op : VoiceOp} {a : Option (UInt32 × List UInt8)}
  {past : List UdpEntry}

theorem filed_voiceStep (h : Sound s) (hstep : VoiceServer.voiceStep op s = some (s', a)) :
    Sound s' := by
  cases op with
  | control op =>
      obtain ⟨⟨s'', u⟩, hcontrol, heq⟩ := Option.map_eq_some_iff.mp hstep
      obtain ⟨rfl, -⟩ := Prod.mk.inj heq
      exact h.step hcontrol
  | createChannel id =>
      obtain ⟨rfl, -⟩ := Prod.mk.inj (Option.some.inj hstep)
      refine ⟨?_, h.numbered⟩
      show (s.voice.createChannel id).channels.Filed
      unfold VoiceState.createChannel
      split
      · exact h.filed
      · exact h.filed.createGameChannel id
  | datagram ord peer bytes =>
      obtain ⟨rfl, -⟩ := Prod.mk.inj (Option.some.inj hstep)
      refine ⟨?_, h.numbered⟩
      show (s.voice.decryptFrom ord peer bytes).1.channels.Filed
      rw [channels_decryptFrom]
      exact h.filed

/-- What a handler does to the agreement of the maps. -/
theorem coherent_handle_iff (hsound : Sound s) (h : Coherent s.voice) {conn : Nat}
    {msg : ControlMessage} {netid : UInt32} (hnetid : s.remembered conn = some netid) :
    Coherent (s.voice.handle netid msg)
      ↔ HasSession past ⟨s, .control (.message conn msg), a, s'⟩ := by
  cases msg with
  | userState us =>
      refine (coherent_userState_iff h hsound.filed us).trans ?_
      show _ ↔ ∀ n ∈ s.remembered conn, us.files s.voice.channels = true → n ∈ s.voice.sessions
      rw [hnetid]
      constructor
      · intro hright n hn
        obtain rfl := Option.some.inj hn
        exact hright
      · intro hright
        exact hright netid rfl
  | voiceTarget vt =>
      refine iff_of_true ?_ trivial
      exact h.of_same (fun n => Map.mem_modify netid n _ _) rfl (fun n => Iff.rfl) rfl rfl rfl
  | cryptSetup nonce =>
      refine iff_of_true ?_ trivial
      exact h.of_same (fun n => Iff.rfl) rfl (fun n => Map.mem_modify netid n _ _) rfl rfl rfl
  | authenticate auth fresh => exact iff_of_true h trivial
  | other => exact iff_of_true h trivial

/-- **One step** from maps that agree: whether they agree after it. -/
theorem coherent_voiceStep_iff (hsound : Sound s) (h : Coherent s.voice)
    (hstep : VoiceServer.voiceStep op s = some (s', a)) :
    Coherent s'.voice ↔ HasSession past ⟨s, op, a, s'⟩ := by
  cases op with
  | createChannel id =>
      obtain ⟨rfl, -⟩ := Prod.mk.inj (Option.some.inj hstep)
      exact iff_of_true (h.createChannel id) trivial
  | datagram ord peer bytes =>
      obtain ⟨rfl, -⟩ := Prod.mk.inj (Option.some.inj hstep)
      exact iff_of_true (h.decryptFrom ord peer bytes) trivial
  | control op =>
      obtain ⟨⟨s'', u⟩, hcontrol, heq⟩ := Option.map_eq_some_iff.mp hstep
      obtain ⟨rfl, -⟩ := Prod.mk.inj heq
      cases voiceStep_of_step hcontrol with
      | accept => exact iff_of_true h trivial
      | letIn hclient haccepted => exact iff_of_true (h.authenticate hsound.filed _ _ _ _) trivial
      | refuse hclient haccepted => exact iff_of_true h trivial
      | handle hmsg hnetid => exact coherent_handle_iff hsound h hnetid
      | @ignore conn msg hmsg hnone =>
          refine iff_of_true h ?_
          cases msg with
          | userState us =>
              intro n hn
              have hsome : s.remembered conn = some n := hn
              exact absurd (hnone.symm.trans hsome) (by simp)
          | voiceTarget vt => trivial
          | cryptSetup nonce => trivial
          | authenticate auth fresh => trivial
          | other => trivial
      | close hnetid => exact iff_of_true (h.removeSession hsound.filed _) trivial
      | closeUnknown hnone => exact iff_of_true h trivial
      | drop netid => exact iff_of_true (h.removeSession hsound.filed netid) trivial

/-- **The maps of the voice server agree in every state of a run exactly when no step of it files an
id without a session in a channel.** -/
theorem voice_coherent_iff (run : Run VoiceServer.voiceStep {} past s) :
    ((∀ e ∈ past, Coherent e.post.voice) ↔ Along HasSession past)
      ∧ (Along HasSession past → Coherent s.voice) := by
  have hsound : ∀ {past s}, Run VoiceServer.voiceStep {} past s → Sound s := fun run =>
    run.safe sound_init fun h hstep => filed_voiceStep h hstep
  have hlast : ∀ {past s}, Run VoiceServer.voiceStep {} past s →
      (∀ e ∈ past, Coherent e.post.voice) → Coherent s.voice := by
    intro past s run hall
    cases run with
    | nil => exact coherent_init
    | snoc run hstep => exact hall _ List.mem_cons_self
  have hiff : (∀ e ∈ past, Coherent e.post.voice) ↔ Along HasSession past := by
    induction run with
    | nil => exact iff_of_true (fun e he => absurd he (by simp)) trivial
    | snoc run hstep ih =>
        rw [List.forall_mem_cons]
        constructor
        · rintro ⟨hpost, hall⟩
          exact ⟨(coherent_voiceStep_iff (hsound run) (hlast run hall) hstep).mp hpost, ih.mp hall⟩
        · rintro ⟨hright, halong⟩
          have hall := ih.mpr halong
          exact ⟨(coherent_voiceStep_iff (hsound run) (hlast run hall) hstep).mpr hright, hall⟩
  exact ⟨hiff, fun halong => hlast run (hiff.mpr halong)⟩

/-! ### After the player was dropped -/

/-- Two clients and a channel of their own; the second is dropped, and closes. -/
def inOrder : List VoiceOp :=
  [.control .accept, .control (login 0 "[7]"), .control .accept, .control (login 1 "[8]"),
    .createChannel 5, .control (.message 1 (.userState { channelId := some 5 })),
    .control (.playerDropped 8), .control (.close 1)]

/-- A client that is dropped and still moves to a channel. -/
def movesAfterDrop : List VoiceOp :=
  [.control .accept, .control (login 0 "[7]"), .control (.playerDropped 7),
    .control (.message 0 (.userState { channelId := some 5 }))]

theorem inOrder_coherent : ∃ past s, Run VoiceServer.voiceStep {} past s ∧ past.length = 8
    ∧ Coherent s.voice := by
  have run := run_of_ops VoiceServer.voiceStep {} inOrder rfl
  exact ⟨_, _, run, rfl, (voice_coherent_iff run).2 (by decide +kernel)⟩

/-- A member that is no session. -/
theorem not_coherent_of_member {st : VoiceState} (netid id : UInt32)
    (hmember : (st.channels.channels.lookup id).any (fun ch => netid ∈ ch.members) = true)
    (hnone : netid ∉ st.sessions) : ¬ Coherent st := by
  intro h
  obtain ⟨ch, hch, hmem⟩ := (Option.any_eq_true _ _).mp hmember
  exact hnone (h.members netid id ⟨ch, hch, of_decide_eq_true hmem⟩)

/-- **A client that was dropped is in a channel again.** -/
theorem dropped_member_remains :
    ¬ ∀ (past : List UdpEntry) (s : VoiceServer), Run VoiceServer.voiceStep {} past s →
      Coherent s.voice := by
  intro h
  have run := run_of_ops VoiceServer.voiceStep {} movesAfterDrop rfl
  exact not_coherent_of_member 7 5 (by decide +kernel) (by decide +kernel) (h _ _ run)

end Baston.Voice
