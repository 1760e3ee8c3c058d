/-
The voice server (`server/control.rs`, `server/udp.rs`, `server/mod.rs`): its control
connections, its UDP socket and its channel native.

All of the server's state is behind one lock, and a message is handled under it.  A
connection keeps nothing but the net id it authenticated as: its messages act on whatever
session that id has by then, and when it closes the session of that id is torn down.  The
random source and the block cipher come with the message.

A datagram says who it is from by its address, if that is known, and else by opening under
somebody's keys, which are tried one after the other.  That binds the address.
-/
import Baston.Lib.Trace
import Baston.Voice.Crypto
import Baston.Voice.Session

namespace Baston.Voice

open Assoc

structure SocketAddr where
  ip : List UInt8
  port : UInt16
  deriving DecidableEq

/-- All mutable voice state, behind one mutex. -/
structure VoiceState where
  sessions : SessionRegistry := ∅
  channels : ChannelStore := .new
  /-- The connection a session's frames are written to. -/
  controlTx : Map UInt32 Nat := ∅
  /-- Made at `Authenticate`. -/
  crypt : Map UInt32 CryptState := ∅
  udpAddr : Map UInt32 SocketAddr := ∅
  addrIndex : Map SocketAddr UInt32 := ∅
  /-- Positions by player, each coordinate its bits. -/
  proximityOverrides : Map UInt32 (UInt32 × UInt32 × UInt32) := ∅

/-! ### Messages -/

/-- The keys drawn for a session, and the cipher keyed with them. -/
structure Fresh where
  key : Block
  ocb : Ocb2
  serverNonce : Block
  clientNonce : Block

def Fresh.crypt (fresh : Fresh) : CryptState :=
  CryptState.new fresh.ocb fresh.serverNonce fresh.clientNonce

structure Authenticate where
  username : Option String

/-- What a client may say about itself. -/
structure UserState where
  selfMute : Option Bool := none
  selfDeaf : Option Bool := none
  pluginContext : Option (List UInt8) := none
  channelId : Option UInt32 := none
  listeningChannelAdd : List UInt32 := []
  listeningChannelRemove : List UInt32 := []

structure VoiceTargetEntry where
  session : List UInt32
  channelId : Option UInt32
  links : Option Bool
  children : Option Bool

structure VoiceTarget where
  id : Option UInt32
  targets : List VoiceTargetEntry

/-- A control message, decoded. -/
inductive ControlMessage
  /-- `none` where the payload does not decode, and where the random source fails. -/
  | authenticate (auth : Option Authenticate) (fresh : Option Fresh)
  | userState (us : UserState)
  | voiceTarget (vt : VoiceTarget)
  | cryptSetup (clientNonce : Option (List UInt8))
  /-- What is only answered, ignored or does not decode; a tunnelled voice packet, which goes
  on through tunnels as long as no UDP address is known. -/
  | other

/-- Who an authentication lets in, if anyone: the net id, the username and the keys. -/
def accepted (auth : Option Authenticate) (fresh : Option Fresh) :
    Option (UInt32 × String × Fresh) := do
  let auth ← auth
  let username := auth.username.getD ""
  let netid ← parseNetid username
  let fresh ← fresh
  return (netid, username, fresh)

/-- What a `UserState` changes in a session; `self_mute` is only echoed. -/
def Session.userState (us : UserState) (sess : Session) : Session :=
  { sess with
    selfDeaf := us.selfDeaf.getD sess.selfDeaf
    context := us.pluginContext.or sess.context }

/-- The target a list of entries makes. -/
def VoiceTarget.target (vt : VoiceTarget) : Target :=
  { sessions := vt.targets.flatMap VoiceTargetEntry.session
    channels := vt.targets.filterMap fun t => t.channelId.map fun channelId =>
      { channelId, links := t.links.getD false, children := t.children.getD false } }

/-- What a `VoiceTarget` changes in a session. -/
def Session.voiceTarget (vt : VoiceTarget) (sess : Session) : Session :=
  match vt.id with
  | some id =>
    if id.toNat < 256 then
      if vt.targets.isEmpty then { sess with targets := sess.targets.clear id.toUInt8 }
      else { sess with targets := sess.targets.set id.toUInt8 vt.target }
    else sess
  | none => sess

/-- What a `CryptSetup` changes: sixteen bytes are the client's new nonce. -/
def CryptState.setup (clientNonce : Option (List UInt8)) (crypt : CryptState) : CryptState :=
  match clientNonce with
  | some nonce => if h : nonce.length = BLOCK then { crypt with decryptIv := ⟨nonce, h⟩ } else crypt
  | none => crypt

namespace VoiceState

/-- The locked part of `handle_authenticate`, for a client that is let in. -/
def authenticate (st : VoiceState) (conn : Nat) (netid : UInt32) (username : String)
    (fresh : Fresh) : VoiceState :=
  { st with
    sessions := st.sessions.register netid username
    channels := (st.channels.join netid ROOT_CHANNEL).1
    crypt := st.crypt.insert netid fresh.crypt
    controlTx := st.controlTx.insert netid conn }

/-- Move to a channel, which is made for good if there is none of this id. -/
def enterChannel (channels : ChannelStore) (netid channelId : UInt32) : ChannelStore :=
  let channels :=
    if channels.contains channelId then channels else channels.createGameChannel channelId
  (channels.join netid channelId).1

def listen (channels : ChannelStore) (netid : UInt32) (us : UserState) : ChannelStore :=
  let channels := us.listeningChannelAdd.foldl (fun c ch => c.setListening netid ch true) channels
  us.listeningChannelRemove.foldl (fun c ch => c.setListening netid ch false) channels

/-- The channels move also for an id that has no session. -/
def handleUserState (st : VoiceState) (netid : UInt32) (us : UserState) : VoiceState :=
  let channels := match us.channelId with
    | some channelId => enterChannel st.channels netid channelId
    | none => st.channels
  { st with
    sessions := st.sessions.modify netid (Session.userState us)
    channels := listen channels netid us }

def handleVoiceTarget (st : VoiceState) (netid : UInt32) (vt : VoiceTarget) : VoiceState :=
  { st with sessions := st.sessions.modify netid (Session.voiceTarget vt) }

def handleCryptSetup (st : VoiceState) (netid : UInt32) (clientNonce : Option (List UInt8)) :
    VoiceState :=
  { st with crypt := st.crypt.modify netid (CryptState.setup clientNonce) }

/-- The handlers that act on the session of an id. -/
def handle (st : VoiceState) (netid : UInt32) : ControlMessage → VoiceState
  | .userState us => st.handleUserState netid us
  | .voiceTarget vt => st.handleVoiceTarget netid vt
  | .cryptSetup clientNonce => st.handleCryptSetup netid clientNonce
  | _ => st

/-- Tear the session of an id down, if it has one. -/
def removeSession (st : VoiceState) (netid : UInt32) : VoiceState :=
  if netid ∈ st.sessions then
    { sessions := st.sessions.erase netid
      channels := st.channels.dropSession netid
      crypt := st.crypt.erase netid
      controlTx := st.controlTx.erase netid
      proximityOverrides := st.proximityOverrides.erase netid
      udpAddr := st.udpAddr.erase netid
      addrIndex := match st.udpAddr.lookup netid with
        | some addr => st.addrIndex.erase addr
        | none => st.addrIndex }
  else st

/-- When a connection that authenticated closes. -/
def teardown (st : VoiceState) (netid : UInt32) : VoiceState := st.removeSession netid

/-- When a player leaves the game server. -/
def onPlayerDropped (st : VoiceState) (netid : UInt32) : VoiceState := st.removeSession netid

end VoiceState

/-! ### Connections -/

/-- One client's control-channel state. -/
structure ClientConn where
  /-- The net id, once authenticated. -/
  session : Option UInt32 := none
  /-- Until a handler has asked to close. -/
  reading : Bool := true

/-- The server and the connections that are open. -/
structure VoiceServer where
  voice : VoiceState := {}
  connections : Map Nat ClientConn := ∅
  nextConnection : Nat := 0

inductive ControlOp
  /-- A client connects. -/
  | accept
  /-- A connection's next message. -/
  | message (conn : Nat) (msg : ControlMessage)
  /-- The read loop ends, at the client's wish or after a handler's. -/
  | close (conn : Nat)
  | playerDropped (netid : UInt32)

namespace VoiceServer

/-- `handle_authenticate`: a client that is not let in is read no further. -/
def handleAuthenticate (s : VoiceServer) (conn : Nat) (client : ClientConn)
    (auth : Option Authenticate) (fresh : Option Fresh) : VoiceServer :=
  match accepted auth fresh with
  | some (netid, username, fresh) =>
    { s with
      voice := s.voice.authenticate conn netid username fresh
      connections := s.connections.insert conn { client with session := some netid } }
  | none => { s with connections := s.connections.insert conn { client with reading := false } }

/-- `handle_message`; a client that has not authenticated has no session to act on. -/
def handleMessage (s : VoiceServer) (conn : Nat) (client : ClientConn) :
    ControlMessage → VoiceServer
  | .authenticate auth fresh => s.handleAuthenticate conn client auth fresh
  | msg =>
    match client.session with
    | some netid => { s with voice := s.voice.handle netid msg }
    | none => s

/-- One step; `none` when there is no such connection, or when it is read no further. -/
def step : ControlOp → VoiceServer → Option (VoiceServer × Unit)
  | .accept, s =>
    some ({ s with
            connections := s.connections.insert s.nextConnection {}
            nextConnection := s.nextConnection + 1 }, ())
  | .message conn msg, s =>
    (s.connections.lookup conn).bind fun client =>
      if client.reading then some (s.handleMessage conn client msg, ()) else none
  | .close conn, s =>
    (s.connections.lookup conn).map fun client =>
      ({ s with
         voice := match client.session with
           | some netid => s.voice.teardown netid
           | none => s.voice
         connections := s.connections.erase conn }, ())
  | .playerDropped netid, s => some ({ s with voice := s.voice.onPlayerDropped netid }, ())

end VoiceServer

/-! ### Datagrams -/

namespace VoiceState

/-- A datagram is tried with a session's keys. -/
def tryDecrypt (st : VoiceState) (session : UInt32) (crypt : CryptState) (datagram : List UInt8) :
    VoiceState × Option (List UInt8) :=
  let (crypt, plain) := crypt.decrypt datagram
  ({ st with crypt := st.crypt.insert session crypt }, plain)

/-- A session's datagrams come from a new address. -/
def bindAddress (st : VoiceState) (session : UInt32) (peer : SocketAddr) : VoiceState :=
  let addrIndex := match st.udpAddr.lookup session with
    | some old => st.addrIndex.erase old
    | none => st.addrIndex
  { st with
    udpAddr := st.udpAddr.insert session peer
    addrIndex := addrIndex.insert peer session }

/-- The loop over the candidates for an unknown address. -/
def tryAll (peer : SocketAddr) (datagram : List UInt8) :
    List UInt32 → VoiceState → VoiceState × Option (UInt32 × List UInt8)
  | [], st => (st, none)
  | session :: rest, st =>
    match st.crypt.lookup session with
    | none => tryAll peer datagram rest st
    | some crypt =>
      match st.tryDecrypt session crypt datagram with
      | (st, some plain) => (st.bindAddress session peer, some (session, plain))
      | (st, none) => tryAll peer datagram rest st

/-- Identify the sender and decrypt. -/
def decryptFrom (st : VoiceState) (ord : IterOrder UInt32) (peer : SocketAddr)
    (datagram : List UInt8) : VoiceState × Option (UInt32 × List UInt8) :=
  match st.addrIndex.lookup peer with
  | some session =>
    match st.crypt.lookup session with
    | none => (st, none)
    | some crypt =>
      let (st, plain) := st.tryDecrypt session crypt datagram
      (st, plain.map fun plain => (session, plain))
  | none => tryAll peer datagram (ord.arrange st.crypt.keys) st

/-- `MUMBLE_CREATE_CHANNEL`. -/
def createChannel (st : VoiceState) (id : UInt32) : VoiceState :=
  if st.channels.contains id then st
  else { st with channels := st.channels.createGameChannel id }

end VoiceState

/-- What can happen to the server. -/
inductive VoiceOp
  | control (op : ControlOp)
  | createChannel (id : UInt32)
  | datagram (ord : IterOrder UInt32) (peer : SocketAddr) (bytes : List UInt8)

namespace VoiceServer

/-- One step.  A datagram answers with its sender and what it says. -/
def voiceStep : VoiceOp → VoiceServer → Option (VoiceServer × Option (UInt32 × List UInt8))
  | .control op, s => (step op s).map fun r => (r.1, none)
  | .createChannel id, s => some ({ s with voice := s.voice.createChannel id }, none)
  | .datagram ord peer bytes, s =>
    let (voice, heard) := s.voice.decryptFrom ord peer bytes
    some ({ s with voice }, heard)

end VoiceServer

end Baston.Voice
