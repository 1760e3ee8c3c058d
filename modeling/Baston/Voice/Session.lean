/-
Voice sessions and their whisper targets (`session.rs`, `target.rs`).

A session's id is the player's net id, which the client names in its username.  So the
registry is keyed by a name any client can claim, and a session does not say which
connection it was opened by.

Voice channels (`channel.rs`): the root, the permanent channels scripts make, and temporary
ones, which go when the last session leaves them.

A session moves by leaving the first channel that has it as a member.  So that it is in one
channel at a time is not in the type; it is what every move keeps.
-/
import Mathlib.Algebra.Group.Nat.Defs
import Mathlib.Data.Finset.Basic
import Baston.Lib.Map

namespace Baston.Voice

open Assoc

/-! ### Usernames -/

/-- `str::parse::<u32>`: a sign if there is one, then digits. -/
def parseU32 (text : List Char) : Option UInt32 :=
  let digits := match text with
    | '+' :: rest => rest
    | _ => text
  if digits ≠ [] ∧ digits.all Char.isDigit then
    let value := digits.foldl (fun acc c => 10 * acc + (c.toNat - '0'.toNat)) 0
    if value < 2 ^ 32 then some (UInt32.ofNat value) else none
  else none

/-- The net id of a username `[netId]`, whatever comes after it. -/
def parseNetid (username : String) : Option UInt32 :=
  match username.toList with
  | '[' :: inner =>
    if ']' ∈ inner then parseU32 (inner.takeWhile (· ≠ ']')) else none
  | _ => none

example : parseNetid "[42] Lucas" = some 42 := by decide +kernel

/-! ### Whisper targets -/

def MIN_TARGET_ID : UInt8 := 1
def MAX_TARGET_ID : UInt8 := 30

/-- A channel included in a whisper target. -/
structure ChannelTarget where
  channelId : UInt32
  links : Bool
  children : Bool

/-- One registered target: explicit sessions and channels. -/
structure Target where
  sessions : List UInt32 := []
  channels : List ChannelTarget := []

/-- A client's targets by their id. -/
abbrev TargetRegistry := Map UInt8 Target

namespace TargetRegistry

/-- Ids out of range are ignored. -/
def set (targets : TargetRegistry) (id : UInt8) (target : Target) : TargetRegistry :=
  if MIN_TARGET_ID ≤ id ∧ id ≤ MAX_TARGET_ID then targets.insert id target else targets

def clear (targets : TargetRegistry) (id : UInt8) : TargetRegistry := targets.erase id

end TargetRegistry

/-! ### Sessions -/

/-- One connected voice client. -/
structure Session where
  /-- The player's net id. -/
  id : UInt32
  name : String
  /-- Forced by the server. -/
  mute : Bool := false
  selfDeaf : Bool := false
  deaf : Bool := false
  /-- Positions are exchanged between sessions whose contexts match. -/
  context : Option (List UInt8) := none
  targets : TargetRegistry := ∅

/-- `Session::new`. -/
def Session.new (id : UInt32) (name : String) : Session := { id, name }

/-- The sessions by net id. -/
abbrev SessionRegistry := Map UInt32 Session

/-- Register a client that authenticated: a session that is there already is kept. -/
def SessionRegistry.register (sessions : SessionRegistry) (netid : UInt32) (name : String) :
    SessionRegistry :=
  sessions.entryOrInsert netid (Session.new netid name)

/-! ## Channels -/

def ROOT_CHANNEL : UInt32 := 0

/-- One channel's state. -/
structure Channel where
  id : UInt32
  name : String
  parent : UInt32
  temporary : Bool
  members : Finset UInt32 := ∅
  /-- Sessions that listen without being in the channel. -/
  listeners : Finset UInt32 := ∅

structure ChannelStore where
  channels : Map UInt32 Channel

/-- The order a `BTreeMap` of numbers is visited in. -/
def ascending : IterOrder UInt32 :=
  ⟨fun l => l.insertionSort (· ≤ ·), fun l => List.perm_insertionSort _ l⟩

namespace ChannelStore

/-- Only the root. -/
def new : ChannelStore :=
  ⟨AList.singleton ROOT_CHANNEL
    { id := ROOT_CHANNEL, name := "Root", parent := ROOT_CHANNEL, temporary := false }⟩

/-- `Game Channel N`. -/
def gameChannel (id : UInt32) (temporary : Bool) : Channel :=
  { id, name := "Game Channel " ++ toString id, parent := ROOT_CHANNEL, temporary }

/-- A permanent channel, unless there is one of this id. -/
def createGameChannel (s : ChannelStore) (id : UInt32) : ChannelStore :=
  ⟨s.channels.entryOrInsert id (gameChannel id false)⟩

/-- `exists`. -/
def contains (s : ChannelStore) (id : UInt32) : Bool := (s.channels.lookup id).isSome

/-- Drop a temporary channel that nobody is in or listens to. -/
def gcTemporary (s : ChannelStore) (id : UInt32) : ChannelStore :=
  if id = ROOT_CHANNEL then s
  else
    match s.channels.lookup id with
    | some ch =>
      if ch.temporary ∧ ch.members = ∅ ∧ ch.listeners = ∅ then ⟨s.channels.erase id⟩ else s
    | none => s

/-- Take a session out of the first channel it is in; the channel it was in. -/
def leave (s : ChannelStore) (session : UInt32) : ChannelStore × Option UInt32 :=
  match (s.channels.visit ascending).find? fun entry => session ∈ entry.2.members with
  | some (key, ch) =>
    let left : ChannelStore :=
      ⟨s.channels.modify key fun ch => { ch with members := ch.members.erase session }⟩
    (left.gcTemporary ch.id, some ch.id)
  | none => (s, none)

/-- Move a session into a channel, which is made if it is unknown; the channel it left. -/
def join (s : ChannelStore) (session channelId : UInt32) : ChannelStore × Option UInt32 :=
  let (s, previous) := s.leave session
  let channels := s.channels.entryOrInsert channelId (gameChannel channelId true)
  (⟨channels.modify channelId fun ch => { ch with members := insert session ch.members }⟩,
    previous)

/-- Listen to a channel without joining, or stop. -/
def setListening (s : ChannelStore) (session channelId : UInt32) (listening : Bool) :
    ChannelStore :=
  ⟨s.channels.modify channelId fun ch =>
    if listening then { ch with listeners := insert session ch.listeners }
    else { ch with listeners := ch.listeners.erase session }⟩

/-- Drop a session everywhere. -/
def dropSession (s : ChannelStore) (session : UInt32) : ChannelStore :=
  let (s, _) := s.leave session
  ⟨s.channels.mapVals fun _ ch => { ch with listeners := ch.listeners.erase session }⟩

end ChannelStore

end Baston.Voice
