/-
Whose a voice session is.

What the server keeps for an id is put in place by an authentication and from then on
changed by the handlers of that id alone.  Which connection calls them is another matter:
any connection that remembers the id does.  So the session stays with the connection that
authenticated last as long as no other one that remembers its id closes or says anything
that changes it, and no session is left behind as long as a connection that has one does
not go on to another id.
-/
import Baston.Proofs.Channels
import Baston.Voice.Control

namespace Baston.Voice

open Assoc Trace

abbrev VoiceEntry := Entry VoiceServer ControlOp Unit

/-- What the server keeps for the id of a session. -/
structure Presence where
  session : Session
  channel : UInt32
  crypt : CryptState
  sender : Nat

/-- The server keeps this for an id. -/
structure Present (st : VoiceState) (netid : UInt32) (p : Presence) : Prop where
  session : st.sessions.lookup netid = some p.session
  channel : ∀ id, st.channels.Member netid id ↔ id = p.channel
  crypt : st.crypt.lookup netid = some p.crypt
  sender : st.controlTx.lookup netid = some p.sender

/-- What a message of the session's own connection makes of it. -/
def Presence.heard (p : Presence) : ControlMessage → Presence
  | .authenticate auth fresh =>
    match accepted auth fresh with
    | some (_, _, fresh) => { p with channel := ROOT_CHANNEL, crypt := fresh.crypt }
    | none => p
  | .userState us =>
    { p with session := p.session.userState us, channel := us.channelId.getD p.channel }
  | .voiceTarget vt => { p with session := p.session.voiceTarget vt }
  | .cryptSetup clientNonce => { p with crypt := p.crypt.setup clientNonce }
  | .other => p

/-- What a step makes of it: a message of its own connection changes it, nothing else does. -/
def Presence.after (e : VoiceEntry) (p : Presence) : Presence :=
  match e.op with
  | .message conn msg => if conn = p.sender then p.heard msg else p
  | _ => p

/-- What the steps since it was put in place make of it. -/
def presenceAfter (p : Presence) (later : List VoiceEntry) : Presence :=
  later.foldr Presence.after p

/-- What an authentication puts in place, for the id it is for.  The registry keeps a session it
has for that id. -/
def installed (e : VoiceEntry) : Option (UInt32 × Presence) :=
  match e.op with
  | .message conn (.authenticate auth fresh) =>
    (accepted auth fresh).map fun (netid, username, fresh) =>
      (netid,
        { session := (e.pre.voice.sessions.lookup netid).getD (Session.new netid username)
          channel := ROOT_CHANNEL
          crypt := fresh.crypt
          sender := conn })
  | _ => none

/-- A connection's time with an id ends: it closes, authenticates as another id, another connection
authenticates as this one, or the player is dropped. -/
def Ends (netid : UInt32) (conn : Nat) (e : VoiceEntry) : Prop :=
  match e.op with
  | .accept => False
  | .message c (.authenticate auth fresh) =>
    ∃ a ∈ accepted auth fresh, c = conn ∧ a.1 ≠ netid ∨ c ≠ conn ∧ a.1 = netid
  | .message _ _ => False
  | .close c => c = conn
  | .playerDropped n => n = netid

/-- A session belongs to its latest connection. -/
structure BelongsToLatest (past : List VoiceEntry) (s : VoiceServer) : Prop where
  kept : ∀ later e before netid p, past = later ++ e :: before → installed e = some (netid, p) →
    (∀ x ∈ later, ¬ Ends netid p.sender x) → Present s.voice netid (presenceAfter p later)
  gone : s.connections = ∅ → s.voice.sessions = ∅

/-! ### The condition -/

/-- The id a connection authenticated as last. -/
def VoiceServer.remembered (s : VoiceServer) (conn : Nat) : Option UInt32 :=
  (s.connections.lookup conn).bind ClientConn.session

/-- The id has no session of another connection. -/
def VoiceState.Free (st : VoiceState) (conn : Nat) (netid : UInt32) : Prop :=
  netid ∈ st.sessions → st.controlTx.lookup netid = some conn

instance (st : VoiceState) (conn : Nat) (netid : UInt32) : Decidable (st.Free conn netid) :=
  inferInstanceAs (Decidable (_ → _))

/-- Whether a message sets anything of a session. -/
def ControlMessage.alters : ControlMessage → Bool
  | .userState us => us.selfDeaf.isSome || us.pluginContext.isSome || us.channelId.isSome
  | .voiceTarget vt => vt.id.any fun id => id.toNat < 256
  | .cryptSetup clientNonce => clientNonce.any fun nonce => nonce.length = BLOCK
  | _ => false

/-- A connection changes or closes no session of another one, and does not go on to another id
while it has a session. -/
def Rightful (_past : List VoiceEntry) (e : VoiceEntry) : Prop :=
  match e.op with
  | .message conn (.authenticate auth fresh) =>
    ∀ old ∈ e.pre.remembered conn, ∀ a ∈ accepted auth fresh, a.1 ≠ old →
      old ∈ e.pre.voice.sessions → e.pre.voice.controlTx.lookup old ≠ some conn
  | .message conn msg =>
    msg.alters = true → ∀ netid ∈ e.pre.remembered conn, e.pre.voice.Free conn netid
  | .close conn => ∀ netid ∈ e.pre.remembered conn, e.pre.voice.Free conn netid
  | _ => True

instance (past : List VoiceEntry) (e : VoiceEntry) : Decidable (Rightful past e) := by
  unfold Rightful
  split
  · exact @Option.decidableForallMem _ _ (fun old => Option.decidableForallMem _) _
  · next conn msg _ _ =>
      have := Option.decidableForallMem (p := e.pre.voice.Free conn) (e.pre.remembered conn)
      exact inferInstanceAs (Decidable (_ → _))
  · exact Option.decidableForallMem _
  · exact isTrue trivial

/-! ### The handlers -/

/-- What is kept for an id is the same in two states. -/
structure SameFor (netid : UInt32) (st st' : VoiceState) : Prop where
  session : st'.sessions.lookup netid = st.sessions.lookup netid
  channel : ∀ id, st'.channels.Member netid id ↔ st.channels.Member netid id
  crypt : st'.crypt.lookup netid = st.crypt.lookup netid
  sender : st'.controlTx.lookup netid = st.controlTx.lookup netid

theorem Present.of_same {st st' : VoiceState} {netid : UInt32} {p : Presence}
    (h : Present st netid p) (hsame : SameFor netid st st') : Present st' netid p :=
  ⟨hsame.session.trans h.session, fun id => (hsame.channel id).trans (h.channel id),
    hsame.crypt.trans h.crypt, hsame.sender.trans h.sender⟩

section Handlers

variable {st : VoiceState} {netid other channelId : UInt32}

theorem member_enterChannel {channels : ChannelStore} (h : channels.Filed) {session id : UInt32} :
    (VoiceState.enterChannel channels netid channelId).Member session id
      ↔ if session = netid then id = channelId else channels.Member session id := by
  unfold VoiceState.enterChannel
  by_cases hexists : channels.contains channelId = true
  · rw [if_pos hexists, ChannelStore.member_join h]
  · rw [if_neg hexists, ChannelStore.member_join (h.createGameChannel channelId),
      ChannelStore.member_createGameChannel]

theorem filed_enterChannel {channels : ChannelStore} (h : channels.Filed) :
    (VoiceState.enterChannel channels netid channelId).Filed := by
  unfold VoiceState.enterChannel
  split
  · exact h.join netid channelId
  · exact (h.createGameChannel channelId).join netid channelId

/-- Listening moves nobody. -/
theorem listen_kept (us : UserState) {channels : ChannelStore} (h : channels.Filed) :
    (VoiceState.listen channels netid us).Filed
      ∧ ∀ session id,
        (VoiceState.listen channels netid us).Member session id ↔ channels.Member session id := by
  have hfold : ∀ (listening : Bool) (ids : List UInt32) {channels : ChannelStore}, channels.Filed →
      (ids.foldl (fun c ch => c.setListening netid ch listening) channels).Filed
        ∧ ∀ session id,
          (ids.foldl (fun c ch => c.setListening netid ch listening) channels).Member session id
            ↔ channels.Member session id := by
    intro listening ids
    induction ids with
    | nil =>
        intro channels h
        exact ⟨h, fun session id => Iff.rfl⟩
    | cons ch rest ih =>
        intro channels h
        obtain ⟨hfiled, hmember⟩ := ih (h.setListening netid ch listening)
        exact ⟨hfiled, fun session id =>
          (hmember session id).trans ChannelStore.member_setListening⟩
  obtain ⟨hadd, hadded⟩ := hfold true us.listeningChannelAdd h
  obtain ⟨hremove, hremoved⟩ := hfold false us.listeningChannelRemove hadd
  exact ⟨hremove, fun session id => (hremoved session id).trans (hadded session id)⟩

/-- Where a `UserState` leaves a session of its own, and any other. -/
theorem member_handleUserState (h : st.channels.Filed) (us : UserState) (session id : UInt32) :
    (st.handleUserState netid us).channels.Member session id
      ↔ match us.channelId with
        | some channelId =>
          if session = netid then id = channelId else st.channels.Member session id
        | none => st.channels.Member session id := by
  unfold VoiceState.handleUserState
  cases us.channelId with
  | none => exact (listen_kept us h).2 session id
  | some channelId =>
      exact ((listen_kept us (filed_enterChannel h)).2 session id).trans (member_enterChannel h)

theorem filed_handle (h : st.channels.Filed) (netid : UInt32) (msg : ControlMessage) :
    (st.handle netid msg).channels.Filed := by
  cases msg with
  | userState us =>
      show (VoiceState.listen _ netid us).Filed
      cases us.channelId with
      | none => exact (listen_kept us h).1
      | some channelId => exact (listen_kept us (filed_enterChannel h)).1
  | voiceTarget vt => exact h
  | cryptSetup clientNonce => exact h
  | authenticate auth fresh => exact h
  | other => exact h

/-- No handler opens or closes a session, or changes where its frames go. -/
theorem handle_frame (st : VoiceState) (netid : UInt32) (msg : ControlMessage) :
    (∀ n, n ∈ (st.handle netid msg).sessions ↔ n ∈ st.sessions)
      ∧ (st.handle netid msg).controlTx = st.controlTx := by
  cases msg with
  | userState us => exact ⟨fun n => Map.mem_modify netid n _ _, rfl⟩
  | voiceTarget vt => exact ⟨fun n => Map.mem_modify netid n _ _, rfl⟩
  | cryptSetup clientNonce => exact ⟨fun n => Iff.rfl, rfl⟩
  | authenticate auth fresh => exact ⟨fun n => Iff.rfl, rfl⟩
  | other => exact ⟨fun n => Iff.rfl, rfl⟩

/-- A handler for one id leaves what is kept for any other. -/
theorem handle_others (h : st.channels.Filed) (hne : other ≠ netid) (msg : ControlMessage) :
    SameFor other st (st.handle netid msg) := by
  have hmodify : ∀ {V : Type} (f : V → V) (m : Map UInt32 V),
      (m.modify netid f).lookup other = m.lookup other := by
    intro V f m
    rw [Map.lookup_modify, if_neg hne]
  cases msg with
  | userState us =>
      refine ⟨hmodify _ _, fun id => ?_, rfl, rfl⟩
      refine (member_handleUserState h us other id).trans ?_
      cases us.channelId with
      | none => exact Iff.rfl
      | some channelId => exact iff_of_eq (if_neg hne)
  | voiceTarget vt => exact ⟨hmodify _ _, fun id => Iff.rfl, rfl, rfl⟩
  | cryptSetup clientNonce => exact ⟨rfl, fun id => Iff.rfl, hmodify _ _, rfl⟩
  | authenticate auth fresh => exact ⟨rfl, fun id => Iff.rfl, rfl, rfl⟩
  | other => exact ⟨rfl, fun id => Iff.rfl, rfl, rfl⟩

/-- What a handler makes of the id it is for. -/
theorem Present.handle {p : Presence} (h : Present st netid p) (hfiled : st.channels.Filed)
    {msg : ControlMessage} (hmsg : ∀ auth fresh, msg ≠ .authenticate auth fresh) :
    Present (st.handle netid msg) netid (p.heard msg) := by
  have hmodify : ∀ {V : Type} (f : V → V) {m : Map UInt32 V} {v : V}, m.lookup netid = some v →
      (m.modify netid f).lookup netid = some (f v) := by
    intro V f m v hv
    rw [Map.lookup_modify_self, hv, Option.map_some]
  cases msg with
  | userState us =>
      refine ⟨hmodify _ h.session, fun id => ?_, h.crypt, h.sender⟩
      refine (member_handleUserState hfiled us netid id).trans ?_
      show _ ↔ id = us.channelId.getD p.channel
      cases us.channelId with
      | none => exact h.channel id
      | some channelId => exact iff_of_eq (if_pos rfl)
  | voiceTarget vt => exact ⟨hmodify _ h.session, h.channel, h.crypt, h.sender⟩
  | cryptSetup clientNonce => exact ⟨h.session, h.channel, hmodify _ h.crypt, h.sender⟩
  | authenticate auth fresh => exact absurd rfl (hmsg auth fresh)
  | other => exact h

/-- A message that sets nothing leaves what its own connection has as it is. -/
theorem Presence.heard_of_unaltering {p : Presence} {msg : ControlMessage}
    (hmsg : ∀ auth fresh, msg ≠ .authenticate auth fresh) (halters : ¬ msg.alters = true) :
    p.heard msg = p := by
  cases msg with
  | userState us =>
      simp only [ControlMessage.alters, Bool.or_eq_true, not_or, Option.not_isSome_iff_eq_none]
        at halters
      obtain ⟨⟨hdeaf, hcontext⟩, hchannel⟩ := halters
      simp [Presence.heard, Session.userState, hdeaf, hcontext, hchannel]
  | voiceTarget vt =>
      have hsame : Session.voiceTarget vt p.session = p.session := by
        unfold Session.voiceTarget
        cases hid : vt.id with
        | none => rfl
        | some id => exact if_neg (by simpa [ControlMessage.alters, hid] using halters)
      simp [Presence.heard, hsame]
  | cryptSetup clientNonce =>
      have hsame : CryptState.setup clientNonce p.crypt = p.crypt := by
        unfold CryptState.setup
        cases clientNonce with
        | none => rfl
        | some nonce => exact dif_neg (by simpa [ControlMessage.alters] using halters)
      simp [Presence.heard, hsame]
  | authenticate auth fresh => exact absurd rfl (hmsg auth fresh)
  | other => rfl

/-- An authentication for another id leaves what is kept for this one. -/
theorem authenticate_others (h : st.channels.Filed) (hne : other ≠ netid) (conn : Nat)
    (username : String) (fresh : Fresh) :
    SameFor other st (st.authenticate conn netid username fresh) := by
  refine ⟨?_, fun id => ?_, AList.lookup_insert_ne hne, AList.lookup_insert_ne hne⟩
  · exact (Map.lookup_entryOrInsert _ _ _ _).trans (if_neg hne)
  · exact (ChannelStore.member_join h).trans (iff_of_eq (if_neg hne))

/-- What an authentication puts in place. -/
theorem present_authenticate (h : st.channels.Filed) (conn : Nat) (netid : UInt32)
    (username : String) (fresh : Fresh) :
    Present (st.authenticate conn netid username fresh) netid
      { session := (st.sessions.lookup netid).getD (Session.new netid username)
        channel := ROOT_CHANNEL
        crypt := fresh.crypt
        sender := conn } := by
  refine ⟨?_, fun id => ?_, AList.lookup_insert _, AList.lookup_insert _⟩
  · exact (Map.lookup_entryOrInsert _ _ _ _).trans (if_pos rfl)
  · exact (ChannelStore.member_join h).trans (iff_of_eq (if_pos rfl))

/-- Tearing one id's session down leaves what is kept for any other. -/
theorem removeSession_others (h : st.channels.Filed) (hne : other ≠ netid) :
    SameFor other st (st.removeSession netid) := by
  unfold VoiceState.removeSession
  split
  · refine ⟨AList.lookup_erase_ne hne, fun id => ?_, AList.lookup_erase_ne hne,
      AList.lookup_erase_ne hne⟩
    exact (ChannelStore.member_dropSession h).trans (and_iff_right hne)
  · exact ⟨rfl, fun id => Iff.rfl, rfl, rfl⟩

theorem filed_removeSession (h : st.channels.Filed) (netid : UInt32) :
    (st.removeSession netid).channels.Filed := by
  unfold VoiceState.removeSession
  split
  · exact h.dropSession netid
  · exact h

/-- A session that is torn down is gone, and no other is. -/
theorem mem_removeSession :
    other ∈ (st.removeSession netid).sessions ↔ other ≠ netid ∧ other ∈ st.sessions := by
  unfold VoiceState.removeSession
  split
  · exact AList.mem_erase
  · next hnone =>
      refine ⟨fun h => ⟨?_, h⟩, fun h => h.2⟩
      rintro rfl
      exact hnone h

end Handlers

/-! ### Steps -/

/-- What a step can do. -/
inductive VoiceStep (s : VoiceServer) : ControlOp → VoiceServer → Prop
  | accept : VoiceStep s .accept
      { s with
        connections := s.connections.insert s.nextConnection {}
        nextConnection := s.nextConnection + 1 }
  | letIn {conn : Nat} {auth : Option Authenticate} {fresh : Option Fresh} {client : ClientConn}
      {netid : UInt32} {username : String} {keys : Fresh}
      (hclient : s.connections.lookup conn = some client)
      (haccepted : accepted auth fresh = some (netid, username, keys)) :
      VoiceStep s (.message conn (.authenticate auth fresh))
        { s with
          voice := s.voice.authenticate conn netid username keys
          connections := s.connections.insert conn { client with session := some netid } }
  | refuse {conn : Nat} {auth : Option Authenticate} {fresh : Option Fresh} {client : ClientConn}
      (hclient : s.connections.lookup conn = some client) (haccepted : accepted auth fresh = none) :
      VoiceStep s (.message conn (.authenticate auth fresh))
        { s with connections := s.connections.insert conn { client with reading := false } }
  | handle {conn : Nat} {msg : ControlMessage} {netid : UInt32}
      (hmsg : ∀ auth fresh, msg ≠ .authenticate auth fresh)
      (hnetid : s.remembered conn = some netid) :
      VoiceStep s (.message conn msg) { s with voice := s.voice.handle netid msg }
  | ignore {conn : Nat} {msg : ControlMessage} (hmsg : ∀ auth fresh, msg ≠ .authenticate auth fresh)
      (hnone : s.remembered conn = none) : VoiceStep s (.message conn msg) s
  | close {conn : Nat} {netid : UInt32} (hnetid : s.remembered conn = some netid) :
      VoiceStep s (.close conn)
        { s with voice := s.voice.removeSession netid, connections := s.connections.erase conn }
  | closeUnknown {conn : Nat} (hnone : s.remembered conn = none) :
      VoiceStep s (.close conn) { s with connections := s.connections.erase conn }
  | drop (netid : UInt32) :
      VoiceStep s (.playerDropped netid) { s with voice := s.voice.removeSession netid }

variable {s s' : VoiceServer} {op : ControlOp} {a : Unit} {past : List VoiceEntry}

theorem remembered_of_lookup {conn : Nat} {client : ClientConn}
    (h : s.connections.lookup conn = some client) : s.remembered conn = client.session := by
  unfold VoiceServer.remembered
  rw [h, Option.bind_some]

theorem remembered_insert {voice : VoiceState} {next conn other : Nat} {client : ClientConn} :
    VoiceServer.remembered ⟨voice, s.connections.insert conn client, next⟩ other
      = if other = conn then client.session else s.remembered other := by
  unfold VoiceServer.remembered
  rw [Map.lookup_insert_of]
  split
  · rfl
  · rfl

theorem remembered_erase {voice : VoiceState} {next conn other : Nat} (hne : other ≠ conn) :
    VoiceServer.remembered ⟨voice, s.connections.erase conn, next⟩ other = s.remembered other := by
  unfold VoiceServer.remembered
  rw [AList.lookup_erase_ne hne]

theorem voiceStep_of_step (h : VoiceServer.step op s = some (s', a)) : VoiceStep s op s' := by
  cases op with
  | accept =>
      obtain ⟨rfl, -⟩ := Prod.mk.inj (Option.some.inj h)
      exact .accept
  | playerDropped netid =>
      obtain ⟨rfl, -⟩ := Prod.mk.inj (Option.some.inj h)
      exact .drop netid
  | close conn =>
      obtain ⟨client, hclient, heq⟩ := Option.map_eq_some_iff.mp h
      obtain ⟨rfl, -⟩ := Prod.mk.inj heq
      have hremembered := remembered_of_lookup hclient
      cases hsession : client.session with
      | none => exact .closeUnknown (hremembered.trans hsession)
      | some netid => exact .close (hremembered.trans hsession)
  | message conn msg =>
      obtain ⟨client, hclient, hread⟩ := Option.bind_eq_some_iff.mp h
      have hs : s.handleMessage conn client msg = s' := by
        split at hread
        · exact (Prod.mk.inj (Option.some.inj hread)).1
        · exact absurd hread (by simp)
      subst hs
      by_cases hauth : ∃ auth fresh, msg = .authenticate auth fresh
      · obtain ⟨auth, fresh, rfl⟩ := hauth
        show VoiceStep s _ (s.handleAuthenticate conn client auth fresh)
        unfold VoiceServer.handleAuthenticate
        cases haccepted : accepted auth fresh with
        | none => exact .refuse hclient haccepted
        | some a => exact .letIn hclient haccepted
      · have hmsg : ∀ auth fresh, msg ≠ .authenticate auth fresh := fun auth fresh heq =>
          hauth ⟨auth, fresh, heq⟩
        have hhandle : s.handleMessage conn client msg = match client.session with
            | some netid => { s with voice := s.voice.handle netid msg }
            | none => s := by
          cases msg with
          | authenticate auth fresh => exact absurd rfl (hmsg auth fresh)
          | userState us => rfl
          | voiceTarget vt => rfl
          | cryptSetup clientNonce => rfl
          | other => rfl
        rw [hhandle]
        have hremembered := remembered_of_lookup hclient
        cases hsession : client.session with
        | none => exact .ignore hmsg (hremembered.trans hsession)
        | some netid => exact .handle hmsg (hremembered.trans hsession)

/-! ### What every run keeps -/

/-- Connections are numbered, and the channels are in order. -/
structure Sound (s : VoiceServer) : Prop where
  filed : s.voice.channels.Filed
  numbered : ∀ conn ∈ s.connections, conn < s.nextConnection

theorem sound_init : Sound {} :=
  ⟨ChannelStore.filed_new, fun conn h => absurd h (AList.notMem_empty conn)⟩

theorem Sound.fresh (h : Sound s) {conn : Nat} {netid : UInt32}
    (hconn : s.remembered conn = some netid) : conn ≠ s.nextConnection := by
  obtain ⟨client, hclient, -⟩ := Option.bind_eq_some_iff.mp hconn
  have hmem : conn ∈ s.connections := AList.lookup_isSome.mp (by rw [hclient]; rfl)
  exact Nat.ne_of_lt (h.numbered conn hmem)

theorem Sound.step (h : Sound s) (hstep : VoiceServer.step op s = some (s', a)) : Sound s' := by
  have hinsert : ∀ {conn : Nat} {client client' : ClientConn},
      s.connections.lookup conn = some client →
        ∀ c ∈ s.connections.insert conn client', c < s.nextConnection := by
    intro conn client client' hclient c hc
    rcases AList.mem_insert _ |>.mp hc with rfl | hc
    · exact h.numbered c (AList.lookup_isSome.mp (by rw [hclient]; rfl))
    · exact h.numbered c hc
  have herase : ∀ {conn : Nat}, ∀ c ∈ s.connections.erase conn, c < s.nextConnection := by
    intro conn c hc
    exact h.numbered c (AList.mem_erase.mp hc).2
  cases voiceStep_of_step hstep with
  | accept =>
      refine ⟨h.filed, fun c hc => ?_⟩
      rcases AList.mem_insert _ |>.mp hc with rfl | hc
      · exact Nat.lt_succ_self _
      · exact Nat.lt_succ_of_lt (h.numbered c hc)
  | letIn hclient haccepted => exact ⟨h.filed.join _ _, hinsert hclient⟩
  | refuse hclient haccepted => exact ⟨h.filed, hinsert hclient⟩
  | handle hmsg hnetid => exact ⟨filed_handle h.filed _ _, h.numbered⟩
  | ignore hmsg hnone => exact h
  | close hnetid => exact ⟨filed_removeSession h.filed _, herase⟩
  | closeUnknown hnone => exact ⟨h.filed, herase⟩
  | drop netid => exact ⟨filed_removeSession h.filed netid, h.numbered⟩

/-! ### Sessions with a connection -/

/-- Every session is written to by an open connection that remembers it. -/
def Owned (s : VoiceServer) : Prop :=
  ∀ netid ∈ s.voice.sessions, ∃ conn, s.voice.controlTx.lookup netid = some conn
    ∧ s.remembered conn = some netid

theorem Owned.removeSession (hsound : Sound s) (h : Owned s) {netid other : UInt32}
    (hmem : other ∈ (s.voice.removeSession netid).sessions) :
    other ≠ netid ∧ ∃ conn, (s.voice.removeSession netid).controlTx.lookup other = some conn
      ∧ s.remembered conn = some other := by
  obtain ⟨hne, hmem⟩ := mem_removeSession.mp hmem
  obtain ⟨conn, hsender, hconn⟩ := h other hmem
  exact ⟨hne, conn, ((removeSession_others hsound.filed hne).sender).trans hsender, hconn⟩

theorem Owned.step (hsound : Sound s) (h : Owned s)
    (hstep : VoiceServer.step op s = some (s', a)) (hright : Rightful past ⟨s, op, a, s'⟩) :
    Owned s' := by
  cases voiceStep_of_step hstep with
  | accept =>
      intro netid hnetid
      obtain ⟨conn, hsender, hconn⟩ := h netid hnetid
      exact ⟨conn, hsender, by rw [remembered_insert, if_neg (hsound.fresh hconn), hconn]⟩
  | @letIn conn auth fresh client netid username keys hclient haccepted =>
      intro other hother
      have hothers : other ≠ netid → SameFor other s.voice
          (s.voice.authenticate conn netid username keys) := fun hne =>
        authenticate_others hsound.filed hne conn username keys
      by_cases heq : other = netid
      · subst heq
        exact ⟨conn, AList.lookup_insert _, by rw [remembered_insert, if_pos rfl]⟩
      · have hmem : other ∈ s.voice.sessions := by
          rw [← AList.lookup_isSome, (hothers heq).session, AList.lookup_isSome] at hother
          exact hother
        obtain ⟨holder, hsender, hholder⟩ := h other hmem
        refine ⟨holder, (hothers heq).sender.trans hsender, ?_⟩
        rw [remembered_insert, if_neg, hholder]
        rintro rfl
        exact hright other hholder _ haccepted (Ne.symm heq) hmem hsender
  | @refuse conn auth fresh client hclient haccepted =>
      intro netid hnetid
      obtain ⟨holder, hsender, hholder⟩ := h netid hnetid
      refine ⟨holder, hsender, ?_⟩
      rw [remembered_insert]
      split
      · next heq => rw [← hholder, heq, remembered_of_lookup hclient]
      · exact hholder
  | @handle conn msg netid hmsg hnetid =>
      intro other hother
      obtain ⟨hsessions, hsenders⟩ := handle_frame s.voice netid msg
      obtain ⟨holder, hsender, hholder⟩ := h other ((hsessions other).mp hother)
      exact ⟨holder, by rw [hsenders, hsender], hholder⟩
  | ignore hmsg hnone => exact h
  | @close conn netid hnetid =>
      intro other hother
      obtain ⟨hne, holder, hsender, hholder⟩ := h.removeSession hsound hother
      refine ⟨holder, hsender, (remembered_erase ?_).trans hholder⟩
      rintro rfl
      exact hne (Option.some.inj (hholder.symm.trans hnetid))
  | @closeUnknown conn hnone =>
      intro other hother
      obtain ⟨holder, hsender, hholder⟩ := h other hother
      refine ⟨holder, hsender, (remembered_erase ?_).trans hholder⟩
      rintro rfl
      exact absurd (hnone.symm.trans hholder) (by simp)
  | drop netid =>
      intro other hother
      obtain ⟨-, holder, hsender, hholder⟩ := h.removeSession hsound hother
      exact ⟨holder, hsender, hholder⟩

/-! ### The time of a connection -/

/-- What the server keeps for an id, its connection open and with it. -/
structure Held (s : VoiceServer) (netid : UInt32) (p : Presence) : Prop where
  present : Present s.voice netid p
  open_ : s.remembered p.sender = some netid

@[simp] theorem Presence.heard_sender (p : Presence) (msg : ControlMessage) :
    (p.heard msg).sender = p.sender := by
  cases msg with
  | authenticate auth fresh =>
      unfold Presence.heard
      simp only
      split
      · rfl
      · rfl
  | userState us => rfl
  | voiceTarget vt => rfl
  | cryptSetup clientNonce => rfl
  | other => rfl

@[simp] theorem Presence.after_sender (e : VoiceEntry) (p : Presence) :
    (p.after e).sender = p.sender := by
  unfold Presence.after
  split
  · split
    · exact p.heard_sender _
    · rfl
  · rfl

@[simp] theorem presenceAfter_sender (p : Presence) (later : List VoiceEntry) :
    (presenceAfter p later).sender = p.sender := by
  induction later with
  | nil => rfl
  | cons e rest ih =>
      show (Presence.after e (presenceAfter p rest)).sender = p.sender
      rw [Presence.after_sender, ih]

theorem Presence.after_message {e : VoiceEntry} {p : Presence} {conn : Nat} {msg : ControlMessage}
    (hop : e.op = .message conn msg) : p.after e = if conn = p.sender then p.heard msg else p := by
  unfold Presence.after
  rw [hop]

theorem rightful_message {e : VoiceEntry} {conn : Nat} {msg : ControlMessage} {netid : UInt32}
    (h : Rightful past e) (hop : e.op = .message conn msg)
    (hmsg : ∀ auth fresh, msg ≠ .authenticate auth fresh) (halters : msg.alters = true)
    (hnetid : e.pre.remembered conn = some netid) : e.pre.voice.Free conn netid := by
  unfold Rightful at h
  rw [hop] at h
  cases msg with
  | authenticate auth fresh => exact absurd rfl (hmsg auth fresh)
  | userState us => exact h halters netid hnetid
  | voiceTarget vt => exact h halters netid hnetid
  | cryptSetup clientNonce => exact h halters netid hnetid
  | other => exact h halters netid hnetid

/-- A session that another connection has is not free. -/
theorem Present.not_free {st : VoiceState} {netid : UInt32} {p : Presence} {conn : Nat}
    (h : Present st netid p) (hne : conn ≠ p.sender) : ¬ st.Free conn netid := by
  intro hfree
  have hmem : netid ∈ st.sessions := AList.lookup_isSome.mp (by rw [h.session]; rfl)
  exact hne (Option.some.inj ((hfree hmem).symm.trans h.sender))

theorem Held.step {netid : UInt32} {p : Presence} (hsound : Sound s) (h : Held s netid p)
    (hstep : VoiceServer.step op s = some (s', a)) (hright : Rightful past ⟨s, op, a, s'⟩)
    (hends : ¬ Ends netid p.sender ⟨s, op, a, s'⟩) : Held s' netid (p.after ⟨s, op, a, s'⟩) := by
  obtain ⟨hpresent, hopen⟩ := h
  cases voiceStep_of_step hstep with
  | accept =>
      refine ⟨hpresent, ?_⟩
      show VoiceServer.remembered _ p.sender = _
      rw [remembered_insert, if_neg (hsound.fresh hopen), hopen]
  | @letIn conn auth fresh client netid' username keys hclient haccepted =>
      rw [Presence.after_message rfl]
      by_cases hconn : conn = p.sender
      · have hsame : netid' = netid := by
          by_contra hne
          exact hends ⟨_, haccepted, .inl ⟨hconn, hne⟩⟩
        subst hsame hconn
        have hheard : p.heard (.authenticate auth fresh)
            = { session := p.session, channel := ROOT_CHANNEL, crypt := keys.crypt,
                sender := p.sender } := by
          simp only [Presence.heard, haccepted]
        rw [if_pos rfl, hheard]
        have hplaced := present_authenticate hsound.filed p.sender netid' username keys
        rw [hpresent.session, Option.getD_some] at hplaced
        exact ⟨hplaced, by rw [remembered_insert, if_pos rfl]⟩
      · have hother : netid ≠ netid' := by
          rintro rfl
          exact hends ⟨_, haccepted, .inr ⟨hconn, rfl⟩⟩
        rw [if_neg hconn]
        refine ⟨hpresent.of_same (authenticate_others hsound.filed hother conn username keys), ?_⟩
        rw [remembered_insert, if_neg (Ne.symm hconn), hopen]
  | @refuse conn auth fresh client hclient haccepted =>
      have hheard : p.heard (.authenticate auth fresh) = p := by
        simp only [Presence.heard, haccepted]
      rw [Presence.after_message rfl, hheard, ite_self]
      refine ⟨hpresent, ?_⟩
      rw [remembered_insert]
      split
      · next heq => rw [← hopen, heq, remembered_of_lookup hclient]
      · exact hopen
  | @handle conn msg netid' hmsg hnetid =>
      rw [Presence.after_message rfl]
      by_cases hconn : conn = p.sender
      · subst hconn
        obtain rfl := Option.some.inj (hnetid.symm.trans hopen)
        rw [if_pos rfl]
        exact ⟨hpresent.handle hsound.filed hmsg, by rw [Presence.heard_sender]; exact hopen⟩
      · rw [if_neg hconn]
        refine ⟨?_, hopen⟩
        by_cases hother : netid = netid'
        · subst hother
          -- a connection that was here before this one has nothing to say
          have halters : ¬ msg.alters = true := fun halters =>
            hpresent.not_free hconn (rightful_message hright rfl hmsg halters hnetid)
          have hkept := hpresent.handle hsound.filed hmsg
          rw [Presence.heard_of_unaltering hmsg halters] at hkept
          exact hkept
        · exact hpresent.of_same (handle_others hsound.filed hother msg)
  | @ignore conn msg hmsg hnone =>
      rw [Presence.after_message rfl, if_neg]
      · exact ⟨hpresent, hopen⟩
      · rintro rfl
        exact absurd (hnone.symm.trans hopen) (by simp)
  | @close conn netid' hnetid =>
      have hconn : p.sender ≠ conn := fun heq => hends heq.symm
      have hother : netid ≠ netid' := by
        rintro rfl
        exact hpresent.not_free (Ne.symm hconn) (hright netid hnetid)
      exact ⟨hpresent.of_same (removeSession_others hsound.filed hother),
        (remembered_erase hconn).trans hopen⟩
  | @closeUnknown conn hnone =>
      have hconn : p.sender ≠ conn := fun heq => hends heq.symm
      exact ⟨hpresent, (remembered_erase hconn).trans hopen⟩
  | drop netid' =>
      have hother : netid ≠ netid' := fun heq => hends heq.symm
      exact ⟨hpresent.of_same (removeSession_others hsound.filed hother), hopen⟩

theorem installed_of_message {conn : Nat} {msg : ControlMessage}
    (hmsg : ∀ auth fresh, msg ≠ .authenticate auth fresh) :
    installed ⟨s, .message conn msg, a, s'⟩ = none := by
  cases msg with
  | authenticate auth fresh => exact absurd rfl (hmsg auth fresh)
  | userState us => rfl
  | voiceTarget vt => rfl
  | cryptSetup clientNonce => rfl
  | other => rfl

/-- An authentication that is let in begins the time of its connection. -/
theorem held_of_installed {netid : UInt32} {p : Presence} (hsound : Sound s)
    (hstep : VoiceServer.step op s = some (s', a))
    (hinstalled : installed ⟨s, op, a, s'⟩ = some (netid, p)) : Held s' netid p := by
  cases voiceStep_of_step hstep with
  | @letIn conn auth fresh client netid' username keys hclient haccepted =>
      simp only [installed, haccepted, Option.map_some, Option.some.injEq, Prod.mk.injEq]
        at hinstalled
      obtain ⟨rfl, rfl⟩ := hinstalled
      exact ⟨present_authenticate hsound.filed conn netid' username keys, by
        rw [remembered_insert, if_pos rfl]⟩
  | refuse hclient haccepted => exact absurd hinstalled (by simp [installed, haccepted])
  | accept => exact absurd hinstalled (by simp [installed])
  | handle hmsg hnetid => exact absurd hinstalled (by simp [installed_of_message hmsg])
  | ignore hmsg hnone => exact absurd hinstalled (by simp [installed_of_message hmsg])
  | close hnetid => exact absurd hinstalled (by simp [installed])
  | closeUnknown hnone => exact absurd hinstalled (by simp [installed])
  | drop netid => exact absurd hinstalled (by simp [installed])

/-! ### Runs -/

theorem sound_of_run (run : Run VoiceServer.step {} past s) : Sound s :=
  run.safe sound_init fun h hstep => h.step hstep

theorem owned_of_run (run : Run VoiceServer.step {} past s) (hright : Along Rightful past) :
    Owned s := by
  refine run.invariant (I := fun _ s => Owned s) (P := Rightful) ?_ ?_ hright
  · intro netid h
    exact absurd h (AList.notMem_empty netid)
  · intro past s op a s' run h hstep hright
    exact h.step (sound_of_run run) hstep hright

/-- Every connection whose time has not ended holds what its authentication put in place. -/
def AllHeld (past : List VoiceEntry) (s : VoiceServer) : Prop :=
  ∀ later e before netid p, past = later ++ e :: before → installed e = some (netid, p) →
    (∀ x ∈ later, ¬ Ends netid p.sender x) → Held s netid (presenceAfter p later)

theorem allHeld_of_run (run : Run VoiceServer.step {} past s) (hright : Along Rightful past) :
    AllHeld past s := by
  refine run.invariant (I := AllHeld) (P := Rightful) ?_ ?_ hright
  · intro later e before netid p hcut
    exact absurd hcut (by simp)
  · intro past s op a s' run h hstep hright later e before netid p hcut hinstalled hends
    cases later with
    | nil =>
        obtain ⟨rfl, rfl⟩ := List.cons.inj hcut
        exact held_of_installed (sound_of_run run) hstep hinstalled
    | cons x later =>
        obtain ⟨rfl, rfl⟩ := List.cons.inj hcut
        have hheld := h later e before netid p rfl hinstalled fun y hy =>
          hends y (List.mem_cons_of_mem _ hy)
        have hgoes : ¬ Ends netid (presenceAfter p later).sender ⟨s, op, a, s'⟩ := by
          rw [presenceAfter_sender]
          exact hends _ List.mem_cons_self
        exact hheld.step (sound_of_run run) hstep hright hgoes

/-- **A session stays with its latest connection in every run in which connections keep to their
own sessions**: what an authentication put in place is there, changed by nothing but the messages
of its connection, until the time of that connection ends; and with no connection open there is
no session. -/
theorem belongs_to_latest (run : Run VoiceServer.step {} past s) (hright : Along Rightful past) :
    BelongsToLatest past s := by
  refine ⟨?_, ?_⟩
  · intro later e before netid p hcut hinstalled hends
    exact (allHeld_of_run run hright later e before netid p hcut hinstalled hends).present
  · intro hnone
    refine AList.ext (List.eq_nil_iff_forall_not_mem.mpr fun x hx => ?_)
    obtain ⟨conn, -, hconn⟩ :=
      owned_of_run run hright x.1 (AList.mem_keys.mpr (List.mem_map_of_mem hx))
    rw [VoiceServer.remembered, hnone] at hconn
    exact absurd hconn (by simp)

/-! ### A reconnect -/

/-- Keys that change nothing. -/
def plainKeys : Fresh := ⟨Block.zero, ⟨Equiv.refl Block⟩, Block.zero, Block.zero⟩

/-- A connection says who it is. -/
def login (conn : Nat) (username : String) : ControlOp :=
  .message conn (.authenticate (some ⟨some username⟩) (some plainKeys))

/-- A player's second connection takes over; the first goes on as another player and closes, and
the second joins a channel. -/
def tookOver : List ControlOp :=
  [.accept, login 0 "[7] Ada", .accept, login 1 "[7]", login 0 "[8]", .close 0,
    .message 1 (.userState { channelId := some 5 })]

/-- A player reconnects before the server has seen the old connection close. -/
def reconnected : List ControlOp :=
  [.accept, login 0 "[7]", .accept, login 1 "[7]", .close 0]

theorem tookOver_belongs : ∃ past s, Run VoiceServer.step {} past s
    ∧ s.voice.controlTx.lookup 7 = some 1 ∧ BelongsToLatest past s := by
  have run := run_of_ops VoiceServer.step {} tookOver rfl
  exact ⟨_, _, run, by decide +kernel, belongs_to_latest run (by decide +kernel)⟩

/-- **The old connection's close takes the new one's session away.** -/
theorem reconnected_session_lost :
    ¬ ∀ (past : List VoiceEntry) (s : VoiceServer), Run VoiceServer.step {} past s →
      BelongsToLatest past s := by
  intro h
  have run := run_of_ops VoiceServer.step {} reconnected rfl
  have hkept := (h _ _ run).kept [_] _ _ 7 _ rfl rfl (by
    intro x hx
    rw [List.mem_singleton.mp hx]
    exact Nat.zero_ne_one)
  have hlost := hkept.sender
  exact absurd hlost (by decide +kernel)

end Baston.Voice
