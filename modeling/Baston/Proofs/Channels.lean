/-
Who is in which voice channel.

Each operation is said by what it does to one relation, the membership of sessions in
channels, for a store in which a session is in one channel at most and every channel is
filed under its own id.  Both of these are kept.
-/
import Baston.Voice.Session

namespace Baston.Voice

open Assoc

namespace ChannelStore

/-- A session is in a part of a channel, its members or its listeners. -/
def Has (part : Channel → Finset UInt32) (s : ChannelStore) (session id : UInt32) : Prop :=
  ∃ ch, s.channels.lookup id = some ch ∧ session ∈ part ch

/-- A session is in a channel. -/
def Member (s : ChannelStore) (session id : UInt32) : Prop :=
  ∃ ch, s.channels.lookup id = some ch ∧ session ∈ ch.members

/-- A session listens to a channel. -/
def Listener (s : ChannelStore) (session id : UInt32) : Prop :=
  ∃ ch, s.channels.lookup id = some ch ∧ session ∈ ch.listeners

/-- Every channel is filed under its id, and a session is in one at most. -/
structure Filed (s : ChannelStore) : Prop where
  named : ∀ id ch, s.channels.lookup id = some ch → ch.id = id
  single : ∀ {session id id'}, s.Member session id → s.Member session id' → id = id'

variable {s s' : ChannelStore} {channels : Map UInt32 Channel}
  {session other id channelId : UInt32}

theorem filed_new : new.Filed := by
  have hroot : ∀ {id ch}, new.channels.lookup id = some ch → id = ROOT_CHANNEL ∧ ch.id = id := by
    intro id ch h
    by_cases hid : id = ROOT_CHANNEL
    · subst hid
      obtain rfl := Option.some.inj h
      exact ⟨rfl, rfl⟩
    · rw [AList.lookup_eq_none.mpr (by simpa [new, AList.mem_keys] using hid)] at h
      exact absurd h (by simp)
  refine ⟨fun id ch h => (hroot h).2, ?_⟩
  rintro session id id' ⟨ch, h, -⟩ ⟨ch', h', -⟩
  rw [(hroot h).1, (hroot h').1]

/-- Where no session comes in, a session stays in one channel at most. -/
theorem Filed.of_member (h : s.Filed)
    (hnamed : ∀ id ch, s'.channels.lookup id = some ch → ch.id = id)
    (hmember : ∀ {session id}, s'.Member session id → s.Member session id) : s'.Filed :=
  ⟨hnamed, fun hid hid' => h.single (hmember hid) (hmember hid')⟩

/-! ### Rewriting one channel -/

variable (part : Channel → Finset UInt32)

theorem has_modify {key : UInt32} {f : Channel → Channel} :
    Has part ⟨channels.modify key f⟩ session id
      ↔ ∃ ch, channels.lookup id = some ch
        ∧ session ∈ part (if id = key then f ch else ch) := by
  unfold Has
  simp only [Map.lookup_modify]
  by_cases hid : id = key
  · subst hid
    simp only [if_pos, Option.map_eq_some_iff]
    constructor
    · rintro ⟨ch, ⟨old, hold, rfl⟩, hmem⟩
      exact ⟨old, hold, hmem⟩
    · rintro ⟨ch, hch, hmem⟩
      exact ⟨f ch, ⟨ch, hch, rfl⟩, hmem⟩
  · simp only [if_neg hid]

/-- A rewriting that leaves a part alone. -/
theorem has_modify_of_same {key : UInt32} {f : Channel → Channel}
    (hf : ∀ ch, part (f ch) = part ch) :
    Has part ⟨channels.modify key f⟩ session id ↔ Has part ⟨channels⟩ session id := by
  rw [has_modify part]
  refine exists_congr fun ch => and_congr_right fun _ => ?_
  split
  · rw [hf]
  · rfl

theorem member_modify {key : UInt32} {f : Channel → Channel} :
    Member ⟨channels.modify key f⟩ session id
      ↔ ∃ ch, channels.lookup id = some ch
        ∧ session ∈ (if id = key then f ch else ch).members :=
  has_modify Channel.members

theorem named_modify (key : UInt32) {f : Channel → Channel}
    (h : ∀ id ch, channels.lookup id = some ch → ch.id = id) (hf : ∀ ch, (f ch).id = ch.id) :
    ∀ id ch, (channels.modify key f).lookup id = some ch → ch.id = id := by
  intro id ch hch
  rw [Map.lookup_modify] at hch
  split at hch
  · obtain ⟨old, hold, rfl⟩ := Option.map_eq_some_iff.mp hch
    rw [hf]
    exact h id old hold
  · exact h id ch hch

/-- A channel that is made has nobody in it. -/
theorem has_entryOrInsert {ch : Channel} (hempty : part ch = ∅) :
    Has part ⟨channels.entryOrInsert channelId ch⟩ session id
      ↔ Has part ⟨channels⟩ session id := by
  unfold Has
  simp only [Map.lookup_entryOrInsert]
  by_cases hid : id = channelId
  · subst hid
    rw [if_pos rfl]
    cases hold : channels.lookup id with
    | some old => simp
    | none => simp [hempty]
  · rw [if_neg hid]

theorem member_entryOrInsert {ch : Channel} (hempty : ch.members = ∅) :
    Member ⟨channels.entryOrInsert channelId ch⟩ session id ↔ Member ⟨channels⟩ session id :=
  has_entryOrInsert Channel.members hempty

theorem contains_modify {key : UInt32} {f : Channel → Channel} :
    contains ⟨channels.modify key f⟩ id = contains ⟨channels⟩ id := by
  unfold contains
  rw [Map.lookup_modify]
  split
  · rw [Option.isSome_map]
  · rfl

theorem named_entryOrInsert {ch : Channel}
    (h : ∀ id ch, channels.lookup id = some ch → ch.id = id) (hch : ch.id = channelId) :
    ∀ id ch', (channels.entryOrInsert channelId ch).lookup id = some ch' → ch'.id = id := by
  intro id ch' hlookup
  rw [Map.lookup_entryOrInsert] at hlookup
  split at hlookup
  · next hid =>
      obtain rfl := Option.some.inj hlookup
      rw [hid]
      cases hold : channels.lookup channelId with
      | some old => exact h channelId old hold
      | none => exact hch
  · exact h id ch' hlookup

/-! ### The operations -/

@[simp] theorem member_createGameChannel :
    (s.createGameChannel channelId).Member session id ↔ s.Member session id :=
  member_entryOrInsert rfl

theorem Filed.createGameChannel (h : s.Filed) (channelId : UInt32) :
    (s.createGameChannel channelId).Filed :=
  h.of_member (named_entryOrInsert h.named rfl) member_createGameChannel.mp

/-- Only a channel with nobody in it is dropped. -/
theorem has_gcTemporary (hpart : ∀ ch : Channel, ch.members = ∅ → ch.listeners = ∅ → part ch = ∅) :
    Has part (s.gcTemporary channelId) session id ↔ Has part s session id := by
  unfold gcTemporary
  split
  · rfl
  · split
    · next ch hch =>
        split
        · next hdrop =>
            unfold Has
            simp only [Map.lookup_erase_of]
            by_cases hid : id = channelId
            · subst hid
              simp [hch, hpart ch hdrop.2.1 hdrop.2.2]
            · simp [hid]
        · rfl
    · rfl

@[simp] theorem member_gcTemporary :
    (s.gcTemporary channelId).Member session id ↔ s.Member session id :=
  has_gcTemporary Channel.members fun _ hmembers _ => hmembers

theorem Filed.gcTemporary (h : s.Filed) (channelId : UInt32) : (s.gcTemporary channelId).Filed := by
  refine h.of_member ?_ member_gcTemporary.mp
  intro id ch hch
  unfold ChannelStore.gcTemporary at hch
  split at hch
  · exact h.named id ch hch
  · split at hch
    · split at hch
      · rw [Map.lookup_erase_of] at hch
        split at hch
        · exact absurd hch (by simp)
        · exact h.named id ch hch
      · exact h.named id ch hch
    · exact h.named id ch hch

/-- A session that leaves is in no channel, and nobody else moves. -/
theorem member_leave (h : s.Filed) :
    (s.leave session).1.Member other id ↔ other ≠ session ∧ s.Member other id := by
  unfold leave
  cases hfind : (s.channels.visit ascending).find? fun entry => session ∈ entry.2.members with
  | none =>
      refine ⟨fun hmem => ⟨?_, hmem⟩, fun hmem => hmem.2⟩
      rintro rfl
      obtain ⟨ch, hch, hin⟩ := hmem
      exact List.find?_eq_none.mp hfind (id, ch) (Map.mem_visit.mpr hch) (by simpa using hin)
  | some entry =>
      obtain ⟨key, ch⟩ := entry
      have hch : s.channels.lookup key = some ch :=
        Map.mem_visit.mp (List.mem_of_find?_eq_some hfind)
      have hin : session ∈ ch.members := by simpa using List.find?_some hfind
      simp only [member_gcTemporary, member_modify]
      constructor
      · rintro ⟨old, hold, hmem⟩
        by_cases hid : id = key
        · rw [if_pos hid] at hmem
          obtain ⟨hne, hmem⟩ := Finset.mem_erase.mp hmem
          exact ⟨hne, old, hold, hmem⟩
        · rw [if_neg hid] at hmem
          refine ⟨?_, old, hold, hmem⟩
          rintro rfl
          exact hid (h.single ⟨old, hold, hmem⟩ ⟨ch, hch, hin⟩)
      · rintro ⟨hne, old, hold, hmem⟩
        refine ⟨old, hold, ?_⟩
        split
        · exact Finset.mem_erase.mpr ⟨hne, hmem⟩
        · exact hmem

theorem Filed.leave (h : s.Filed) (session : UInt32) : (s.leave session).1.Filed := by
  refine h.of_member ?_ fun hmem => ((member_leave h).mp hmem).2
  unfold ChannelStore.leave
  split
  · next key ch hfind =>
      have hnamed := named_modify key h.named
        (f := fun ch => { ch with members := ch.members.erase session }) fun _ => rfl
      have hleft : Filed ⟨s.channels.modify key fun ch =>
          { ch with members := ch.members.erase session }⟩ := by
        refine h.of_member hnamed ?_
        intro other id hmem
        obtain ⟨old, hold, hin⟩ := member_modify.mp hmem
        refine ⟨old, hold, ?_⟩
        split at hin
        · exact Finset.mem_of_mem_erase hin
        · exact hin
      exact (hleft.gcTemporary ch.id).named
  · exact h.named

/-- A session that joins a channel is in that one and in no other. -/
theorem member_join (h : s.Filed) :
    (s.join session channelId).1.Member other id
      ↔ if other = session then id = channelId else s.Member other id := by
  have hmade : ∀ {other id}, Member ⟨(s.leave session).1.channels.entryOrInsert channelId
      (gameChannel channelId true)⟩ other id ↔ other ≠ session ∧ s.Member other id :=
    (member_entryOrInsert rfl).trans (member_leave h)
  unfold join
  rw [member_modify]
  by_cases hother : other = session
  · subst hother
    rw [if_pos rfl]
    constructor
    · rintro ⟨ch, hch, hmem⟩
      by_contra hid
      rw [if_neg hid] at hmem
      exact (hmade.mp ⟨ch, hch, hmem⟩).1 rfl
    · rintro rfl
      exact ⟨_, by rw [Map.lookup_entryOrInsert, if_pos rfl], by simp⟩
  · rw [if_neg hother]
    refine Iff.trans ?_ (hmade.trans (and_iff_right hother))
    refine exists_congr fun ch => and_congr_right fun _ => ?_
    split
    · simp [hother]
    · rfl

theorem Filed.join (h : s.Filed) (session channelId : UInt32) :
    (s.join session channelId).1.Filed := by
  refine ⟨?_, ?_⟩
  · unfold ChannelStore.join
    exact named_modify channelId (named_entryOrInsert (h.leave session).named rfl) fun _ => rfl
  · intro other id id' hid hid'
    rw [member_join h] at hid hid'
    split at hid
    · next heq =>
        rw [if_pos heq] at hid'
        rw [hid, hid']
    · next hne =>
        rw [if_neg hne] at hid'
        exact h.single hid hid'

@[simp] theorem member_setListening {listening : Bool} :
    (s.setListening session channelId listening).Member other id ↔ s.Member other id := by
  unfold setListening
  rw [member_modify]
  refine exists_congr fun ch => and_congr_right fun _ => ?_
  split
  · split
    · rfl
    · rfl
  · rfl

theorem Filed.setListening (h : s.Filed) (session channelId : UInt32) (listening : Bool) :
    (s.setListening session channelId listening).Filed := by
  refine h.of_member (named_modify channelId h.named fun ch => ?_) member_setListening.mp
  split
  · rfl
  · rfl

/-- A session that is dropped is in no channel. -/
theorem member_dropSession (h : s.Filed) :
    (s.dropSession session).Member other id ↔ other ≠ session ∧ s.Member other id := by
  refine Iff.trans ?_ (member_leave h)
  unfold dropSession Member
  simp only [Map.lookup_mapVals, Option.map_eq_some_iff]
  constructor
  · rintro ⟨ch, ⟨old, hold, rfl⟩, hmem⟩
    exact ⟨old, hold, hmem⟩
  · rintro ⟨ch, hch, hmem⟩
    exact ⟨_, ⟨ch, hch, rfl⟩, hmem⟩

theorem Filed.dropSession (h : s.Filed) (session : UInt32) : (s.dropSession session).Filed := by
  refine h.of_member ?_ fun hmem => ((member_dropSession h).mp hmem).2
  intro id ch hch
  unfold ChannelStore.dropSession at hch
  rw [Map.lookup_mapVals] at hch
  obtain ⟨old, hold, rfl⟩ := Option.map_eq_some_iff.mp hch
  exact (h.leave session).named id old hold

/-! ### Listening -/

@[simp] theorem listener_createGameChannel :
    (s.createGameChannel channelId).Listener session id ↔ s.Listener session id :=
  has_entryOrInsert Channel.listeners rfl

@[simp] theorem listener_leave :
    (s.leave session).1.Listener other id ↔ s.Listener other id := by
  unfold leave
  split
  · exact (has_gcTemporary Channel.listeners fun _ _ hlisteners => hlisteners).trans
      (has_modify_of_same Channel.listeners fun _ => rfl)
  · exact Iff.rfl

@[simp] theorem listener_join :
    (s.join session channelId).1.Listener other id ↔ s.Listener other id := by
  have hmade : Has Channel.listeners ⟨(s.leave session).1.channels.entryOrInsert channelId
      (gameChannel channelId true)⟩ other id ↔ s.Listener other id :=
    (has_entryOrInsert Channel.listeners rfl).trans listener_leave
  exact Iff.trans (has_modify_of_same Channel.listeners fun _ => rfl) hmade

theorem contains_setListening {listening : Bool} :
    (s.setListening session channelId listening).contains id = s.contains id :=
  contains_modify

/-- Listening to a channel, as far as there is one, changes who listens to that one. -/
theorem listener_setListening {listening : Bool} :
    (s.setListening session channelId listening).Listener other id
      ↔ if other = session ∧ id = channelId then listening = true ∧ s.contains id = true
        else s.Listener other id := by
  refine (has_modify Channel.listeners).trans ?_
  by_cases hid : id = channelId
  · subst hid
    simp only [if_pos, and_true]
    by_cases hother : other = session
    · subst hother
      rw [if_pos rfl]
      unfold contains
      cases hch : s.channels.lookup id with
      | none => simp
      | some ch =>
          cases listening with
          | true => simp
          | false => simp
    · rw [if_neg hother]
      refine exists_congr fun ch => and_congr_right fun _ => ?_
      cases listening with
      | true => simp [hother]
      | false => simp [hother]
  · rw [if_neg (fun h => hid h.2)]
    simp only [if_neg hid]
    rfl

/-- A session that is dropped listens to nothing. -/
theorem listener_dropSession :
    (s.dropSession session).Listener other id ↔ other ≠ session ∧ s.Listener other id := by
  have hleave : (s.leave session).1.Listener other id ↔ s.Listener other id := listener_leave
  rw [← hleave]
  unfold dropSession Listener
  simp only [Map.lookup_mapVals, Option.map_eq_some_iff]
  constructor
  · rintro ⟨ch, ⟨old, hold, rfl⟩, hmem⟩
    obtain ⟨hne, hmem⟩ := Finset.mem_erase.mp hmem
    exact ⟨hne, old, hold, hmem⟩
  · rintro ⟨hne, ch, hch, hmem⟩
    exact ⟨_, ⟨ch, hch, rfl⟩, Finset.mem_erase.mpr ⟨hne, hmem⟩⟩

end ChannelStore

end Baston.Voice
