/-
Who hears a voice packet, and what each of them is sent (`router.rs`, `session.rs`,
`server/mod.rs`).

A packet for the speaker's channel goes to the members and the listeners of that channel, as far
as the proximity oracle does not exclude them; one for a whisper target goes to the target's
sessions and channels.  A recipient whose UDP address is known is sent a datagram under its own
keys, and any other a control frame that carries the packet.

The encoding of the tunnel message is generated code, so it is a parameter.
-/
import Mathlib.Data.Finset.Sort
import Baston.Voice.Packet
import Baston.Voice.Control

namespace Baston.Voice

open Assoc Checked

/-! ### Sessions -/

namespace Session

def canSpeak (s : Session) : Bool := !s.mute

def canHear (s : Session) : Bool := !s.deaf && !s.selfDeaf

end Session

namespace SessionRegistry

/-- Two sessions share a positional context. -/
def contextsMatch (sessions : SessionRegistry) (a b : UInt32) : Bool :=
  match sessions.lookup a, sessions.lookup b with
  | some sa, some sb =>
    match sa.context, sb.context with
    | some ca, some cb => ca = cb
    | _, _ => false
  | _, _ => false

end SessionRegistry

/-! ### Routing -/

/-- One resolved recipient, and whether it receives positional data. -/
structure Recipient where
  session : UInt32
  withPosition : Bool
  deriving DecidableEq

/-- Whether a listener is near enough to a speaker; `none` where that is not known. -/
abbrev AoiOracle := UInt32 → UInt32 → Option Bool

/-- Proximity is not looked at. -/
def noCulling : AoiOracle := fun _ _ => none

def Channel.candidates (ch : Channel) : List UInt32 :=
  ch.members.sort (· ≤ ·) ++ ch.listeners.sort (· ≤ ·)

namespace Router

/-- What the listener's flags say, and the oracle where it applies. -/
def canDeliver (speaker listener : UInt32) (sessions : SessionRegistry) (aoi : AoiOracle)
    (applyAoi : Bool) : Bool :=
  match sessions.lookup listener with
  | some s =>
    if s.canHear then
      if applyAoi then (aoi speaker listener).getD true else true
    else false
  | none => false

def recipient (speaker listener : UInt32) (packet : VoicePacket) (sessions : SessionRegistry) :
    Recipient :=
  { session := listener
    withPosition := packet.hasPosition && sessions.contextsMatch speaker listener }

/-- The rest of a list behind an element that stays. -/
def dedupFrom (r : Recipient) : List Recipient → List Recipient
  | [] => [r]
  | r' :: rest => if r'.session = r.session then dedupFrom r rest else r :: dedupFrom r' rest

/-- `dedup_by_key`: of neighbours with one session, the first stays. -/
def dedupByKey : List Recipient → List Recipient
  | [] => []
  | r :: rest => dedupFrom r rest

def dedup (v : List Recipient) : List Recipient :=
  dedupByKey (v.insertionSort fun a b => a.session ≤ b.session)

/-- The loop over the candidates of both kinds of packets. -/
def deliverable (speaker : UInt32) (packet : VoicePacket) (sessions : SessionRegistry)
    (aoi : AoiOracle) (applyAoi : Bool) (candidates : List UInt32) : List Recipient :=
  candidates.filterMap fun listener =>
    if listener = speaker then none
    else if canDeliver speaker listener sessions aoi applyAoi then
      some (recipient speaker listener packet sessions)
    else none

/-- A target's sessions, and whoever is in its channels or listens to them. -/
def whispered (channels : ChannelStore) (target : Target) : Finset UInt32 :=
  target.channels.foldl
    (fun set ct =>
      match channels.channels.lookup ct.channelId with
      | some ch => ch.candidates.foldl (fun set m => insert m set) set
      | none => set)
    (target.sessions.foldl (fun set sess => insert sess set) ∅)

/-- The recipients of a packet. -/
def resolve (speaker : UInt32) (packet : VoicePacket) (sessions : SessionRegistry)
    (channels : ChannelStore) (aoi : AoiOracle) : List Recipient :=
  match sessions.lookup speaker with
  | none => []
  | some s =>
    if s.canSpeak then
      match packet.target with
      | .loopback => [{ session := speaker, withPosition := false }]
      | .normal =>
        match (channels.channels.visit ascending).find? fun entry => speaker ∈ entry.2.members with
        | none => []
        | some (_, found) =>
          match channels.channels.lookup found.id with
          | some ch =>
            dedup (deliverable speaker packet sessions aoi true ch.candidates)
          | none => dedup []
      | .whisper id =>
        let set := match s.targets.lookup id with
          | some target => whispered channels target
          | none => ∅
        deliverable speaker packet sessions aoi false (set.sort (· ≤ ·))
    else []

end Router

/-! ### Sending -/

/-- The tag of a tunnelled packet, and the longest payload a frame has. -/
def UDP_TUNNEL : UInt16 := 1
def MAX_MSGSIZE : Nat := 8192 - 6

/-- `framing::encode`, from the encoded message; `none` where it is too large. -/
def encodeFrame (tag : UInt16) (message : List UInt8) : Option (List UInt8) :=
  if message.length > MAX_MSGSIZE then none
  else some ((tag >>> 8).toUInt8 :: tag.toUInt8 ::
    (beBytes32 (UInt32.ofNat message.length) ++ message))

/-- What leaves the server. -/
inductive Outgoing
  | datagram (session : UInt32) (addr : SocketAddr) (bytes : List UInt8)
  | control (session : UInt32) (conn : Nat) (frame : List UInt8)
  deriving DecidableEq

/-- Who it is for. -/
def Outgoing.to : Outgoing → UInt32
  | .datagram session _ _ => session
  | .control session _ _ => session

namespace VoiceState

/-- Queue a frame, if the session has a connection. -/
def sendControl (st : VoiceState) (session : UInt32) (frame : List UInt8) : List Outgoing :=
  match st.controlTx.lookup session with
  | some conn => [.control session conn frame]
  | none => []

/-- The bytes for a recipient leave as a datagram, if its address and its keys are known, and else
as a control frame. -/
def dispatch (tunnel : List UInt8 → List UInt8) (st : VoiceState) (session : UInt32)
    (out : List UInt8) : VoiceState × List Outgoing :=
  match st.udpAddr.lookup session, st.crypt.lookup session with
  | some addr, some crypt =>
    ({ st with crypt := st.crypt.insert session (crypt.encrypt out).1 },
      [.datagram session addr (crypt.encrypt out).2])
  | _, _ =>
    match encodeFrame UDP_TUNNEL (tunnel out) with
    | some frame => (st, st.sendControl session frame)
    | none => (st, [])

/-- What `route_voice` does for one recipient. -/
def deliver (tunnel : List UInt8 → List UInt8) (speaker : UInt32) (packet : VoicePacket)
    (st : VoiceState) (r : Recipient) : Checked (VoiceState × List Outgoing) := do
  let out ← encodeOutbound speaker.toUInt64 packet r.withPosition
  return st.dispatch tunnel r.session out

def deliverAll (tunnel : List UInt8 → List UInt8) (speaker : UInt32) (packet : VoicePacket) :
    List Recipient → VoiceState → Checked (VoiceState × List Outgoing)
  | [], st => return (st, [])
  | r :: rest, st => do
    let (st, sent) ← st.deliver tunnel speaker packet r
    let (st, more) ← deliverAll tunnel speaker packet rest st
    return (st, sent ++ more)

/-- Route one plaintext datagram from a speaker to its recipients. -/
def routeVoice (tunnel : List UInt8 → List UInt8) (st : VoiceState) (speaker : UInt32)
    (datagram : List UInt8) : Checked (VoiceState × List Outgoing) := do
  match ← parse datagram with
  | none => return (st, [])
  | some packet =>
    st.deliverAll tunnel speaker packet
      (Router.resolve speaker packet st.sessions st.channels noCulling)

end VoiceState

end Baston.Voice
