/-
What every run of the channel store keeps, and when a temporary channel is left over.

Each operation is said once by the channels it leaves.  Leaving drops a temporary channel that
nobody is in or listens to any more; to stop listening does not, and neither does the part of a
disconnect that ends the listening.  A temporary channel is therefore never empty exactly as long
as neither of these takes its last session from it.
-/
import Baston.Lib.Trace
import Baston.Proofs.Channels

namespace Baston.Voice

open Assoc Trace

/-- A temporary channel that nobody is in or listens to. -/
def Channel.Deserted (ch : Channel) : Prop :=
  ch.temporary = true ∧ ch.members = ∅ ∧ ch.listeners = ∅

instance : DecidablePred Channel.Deserted := fun ch =>
  inferInstanceAs (Decidable (ch.temporary = true ∧ ch.members = ∅ ∧ ch.listeners = ∅))

/-- The channel once the session has left it. -/
def Channel.without (ch : Channel) (session : UInt32) : Channel :=
  { ch with members := ch.members.erase session }

/-- A temporary channel that is kept by one listener alone. -/
def Channel.LastListener (ch : Channel) (session : UInt32) : Prop :=
  ch.temporary = true ∧ ch.members = ∅ ∧ ch.listeners = {session}

namespace ChannelStore

/-- The root exists and is permanent. -/
def Rooted (s : ChannelStore) : Prop :=
  ∃ ch, s.channels.lookup ROOT_CHANNEL = some ch ∧ ch.temporary = false

/-- Every temporary channel has a member or a listener. -/
def Occupied (s : ChannelStore) : Prop :=
  ∀ id ch, s.channels.lookup id = some ch → ¬ ch.Deserted

variable {s : ChannelStore} {channels : Map UInt32 Channel} {session id channelId : UInt32}
  {ch : Channel}

/-! ### What the operations leave -/

/-- A permanent root is kept. -/
theorem Rooted.stays (hroot : s.Rooted) (h : s.channels.lookup ROOT_CHANNEL = some ch) :
    ¬ ch.Deserted := by
  obtain ⟨root, hlookup, hpermanent⟩ := hroot
  obtain rfl := Option.some.inj (hlookup.symm.trans h)
  intro hdeserted
  rw [hdeserted.1] at hpermanent
  exact Bool.noConfusion hpermanent

theorem lookup_gcTemporary (hroot : s.Rooted) :
    (s.gcTemporary channelId).channels.lookup id = some ch
      ↔ s.channels.lookup id = some ch ∧ (id = channelId → ¬ ch.Deserted) := by
  unfold gcTemporary
  by_cases hid : channelId = ROOT_CHANNEL
  · subst hid
    rw [if_pos rfl]
    refine ⟨fun h => ⟨h, fun heq => hroot.stays (heq ▸ h)⟩, And.left⟩
  · rw [if_neg hid]
    cases hold : s.channels.lookup channelId with
    | none =>
        refine ⟨fun h => ⟨h, fun heq => ?_⟩, And.left⟩
        rw [heq, hold] at h
        exact absurd h (by simp)
    | some old =>
        simp only
        split
        · next hdeserted =>
            rw [Map.lookup_erase_of]
            split
            · next heq =>
                subst heq
                rw [hold]
                refine ⟨fun h => absurd h (by simp), fun h => ?_⟩
                exact absurd (Option.some.inj h.1 ▸ hdeserted) (h.2 rfl)
            · next hne => exact ⟨fun h => ⟨h, fun heq => absurd heq hne⟩, And.left⟩
        · next hkept =>
            refine ⟨fun h => ⟨h, fun heq => ?_⟩, And.left⟩
            subst heq
            rw [hold] at h
            exact Option.some.inj h ▸ hkept

/-- **Leaving** takes the session out of its channel, which is dropped if that leaves it empty. -/
theorem lookup_leave (hfiled : s.Filed) (hroot : s.Rooted) :
    (s.leave session).1.channels.lookup id = some ch
      ↔ ∃ old, s.channels.lookup id = some old ∧ ch = old.without session
        ∧ (session ∈ old.members → ¬ ch.Deserted) := by
  have houtside : ∀ {old : Channel}, session ∉ old.members → old.without session = old := by
    intro old h
    unfold Channel.without
    rw [Finset.erase_eq_of_notMem h]
  unfold leave
  cases hfind : (s.channels.visit ascending).find? fun entry => session ∈ entry.2.members with
  | none =>
      have hout : ∀ {old}, s.channels.lookup id = some old → session ∉ old.members := by
        intro old hold
        simpa using List.find?_eq_none.mp hfind (id, old) (Map.mem_visit.mpr hold)
      constructor
      · intro h
        exact ⟨ch, h, (houtside (hout h)).symm, fun hin => absurd hin (hout h)⟩
      · rintro ⟨old, hold, rfl, -⟩
        rw [houtside (hout hold)]
        exact hold
  | some entry =>
      obtain ⟨key, found⟩ := entry
      have hfound : s.channels.lookup key = some found :=
        Map.mem_visit.mp (List.mem_of_find?_eq_some hfind)
      have hin : session ∈ found.members := by simpa using List.find?_some hfind
      have hroot' : Rooted ⟨s.channels.modify key fun ch => ch.without session⟩ := by
        obtain ⟨root, hlookup, hpermanent⟩ := hroot
        unfold Rooted
        rw [Map.lookup_modify, hlookup]
        split
        · exact ⟨_, rfl, hpermanent⟩
        · exact ⟨_, rfl, hpermanent⟩
      show (gcTemporary ⟨s.channels.modify key fun ch => ch.without session⟩
        found.id).channels.lookup id = some ch ↔ _
      rw [lookup_gcTemporary hroot', hfiled.named key found hfound]
      simp only
      rw [Map.lookup_modify]
      by_cases hid : id = key
      · subst hid
        rw [if_pos rfl, hfound]
        constructor
        · rintro ⟨h, hkept⟩
          exact ⟨found, rfl, (Option.some.inj h).symm, fun _ => hkept rfl⟩
        · rintro ⟨old, hold, rfl, hkept⟩
          obtain rfl := Option.some.inj hold
          exact ⟨rfl, fun _ => hkept hin⟩
      · rw [if_neg hid]
        have hout : ∀ {old}, s.channels.lookup id = some old → session ∉ old.members :=
          fun hold hmem => hid (hfiled.single ⟨_, hold, hmem⟩ ⟨found, hfound, hin⟩)
        constructor
        · rintro ⟨h, -⟩
          exact ⟨ch, h, (houtside (hout h)).symm, fun hmem => absurd hmem (hout h)⟩
        · rintro ⟨old, hold, rfl, -⟩
          rw [houtside (hout hold)]
          exact ⟨hold, fun heq => absurd heq hid⟩

theorem lookup_dropSession (hfiled : s.Filed) (hroot : s.Rooted) :
    (s.dropSession session).channels.lookup id = some ch
      ↔ ∃ old, s.channels.lookup id = some old
        ∧ (session ∈ old.members → ¬ (old.without session).Deserted)
        ∧ ch = { old.without session with listeners := old.listeners.erase session } := by
  unfold dropSession
  simp only [Map.lookup_mapVals, Option.map_eq_some_iff]
  constructor
  · rintro ⟨left, hleft, rfl⟩
    obtain ⟨old, hold, rfl, hkept⟩ := (lookup_leave hfiled hroot).mp hleft
    exact ⟨old, hold, hkept, rfl⟩
  · rintro ⟨old, hold, hkept, rfl⟩
    exact ⟨_, (lookup_leave hfiled hroot).mpr ⟨old, hold, rfl, hkept⟩, rfl⟩

/-! ### The root -/

theorem rooted_new : new.Rooted := ⟨_, rfl, rfl⟩

theorem Rooted.leave (hroot : s.Rooted) (hfiled : s.Filed) (session : UInt32) :
    (s.leave session).1.Rooted := by
  obtain ⟨root, hlookup, hpermanent⟩ := id hroot
  refine ⟨root.without session, ?_, hpermanent⟩
  refine (lookup_leave hfiled hroot).mpr ⟨root, hlookup, rfl, fun _ hdeserted => ?_⟩
  exact Bool.noConfusion (hpermanent.symm.trans hdeserted.1)

/-- Rewriting a channel without making it temporary. -/
theorem Rooted.modify {key : UInt32} {f : Channel → Channel}
    (hf : ∀ ch, (f ch).temporary = ch.temporary) (h : Rooted ⟨channels⟩) :
    Rooted ⟨channels.modify key f⟩ := by
  obtain ⟨root, hlookup, hpermanent⟩ := h
  unfold Rooted
  rw [Map.lookup_modify, hlookup]
  split
  · exact ⟨_, rfl, (hf root).trans hpermanent⟩
  · exact ⟨_, rfl, hpermanent⟩

theorem rooted_entryOrInsert {new : Channel} (h : Rooted ⟨channels⟩) :
    Rooted ⟨channels.entryOrInsert channelId new⟩ := by
  obtain ⟨root, hlookup, hpermanent⟩ := h
  unfold Rooted
  rw [Map.lookup_entryOrInsert]
  split
  · next heq =>
      rw [← heq, hlookup]
      exact ⟨root, rfl, hpermanent⟩
  · exact ⟨root, hlookup, hpermanent⟩

theorem Rooted.createGameChannel (h : s.Rooted) (channelId : UInt32) :
    (s.createGameChannel channelId).Rooted :=
  rooted_entryOrInsert h

theorem Rooted.join (hroot : s.Rooted) (hfiled : s.Filed) (session channelId : UInt32) :
    (s.join session channelId).1.Rooted :=
  .modify (fun _ => rfl) (rooted_entryOrInsert (hroot.leave hfiled session))

theorem Rooted.setListening (h : s.Rooted) (session channelId : UInt32) (listening : Bool) :
    (s.setListening session channelId listening).Rooted := by
  refine .modify (fun ch => ?_) h
  split
  · rfl
  · rfl

theorem Rooted.dropSession (hroot : s.Rooted) (hfiled : s.Filed) (session : UInt32) :
    (s.dropSession session).Rooted := by
  obtain ⟨root, hlookup, hpermanent⟩ := hroot.leave hfiled session
  unfold Rooted ChannelStore.dropSession
  simp only [Map.lookup_mapVals]
  rw [hlookup]
  exact ⟨_, rfl, hpermanent⟩

/-! ### Temporary channels -/

theorem occupied_new : new.Occupied := by
  intro id ch h hdeserted
  by_cases hid : id = ROOT_CHANNEL
  · subst hid
    exact rooted_new.stays h hdeserted
  · rw [AList.lookup_eq_none.mpr (by simpa [new, AList.mem_keys] using hid)] at h
    exact absurd h (by simp)

theorem Occupied.createGameChannel (h : s.Occupied) (channelId : UInt32) :
    (s.createGameChannel channelId).Occupied := by
  intro id ch hch
  unfold ChannelStore.createGameChannel at hch
  rw [Map.lookup_entryOrInsert] at hch
  split at hch
  · obtain rfl := Option.some.inj hch
    cases hold : s.channels.lookup channelId with
    | some old => exact h channelId old hold
    | none => exact fun hdeserted => Bool.noConfusion hdeserted.1
  · exact h id ch hch

theorem Occupied.leave (h : s.Occupied) (hfiled : s.Filed) (hroot : s.Rooted)
    (session : UInt32) : (s.leave session).1.Occupied := by
  intro id ch hch
  obtain ⟨old, hold, rfl, hkept⟩ := (lookup_leave hfiled hroot).mp hch
  by_cases hin : session ∈ old.members
  · exact hkept hin
  · unfold Channel.without
    rw [Finset.erase_eq_of_notMem hin]
    exact h id old hold

theorem Occupied.join (h : s.Occupied) (hfiled : s.Filed) (hroot : s.Rooted)
    (session channelId : UInt32) : (s.join session channelId).1.Occupied := by
  intro id ch hch
  unfold ChannelStore.join at hch
  simp only [Map.lookup_modify, Map.lookup_entryOrInsert] at hch
  split at hch
  · obtain rfl := Option.some.inj hch
    exact fun hdeserted => Finset.insert_ne_empty _ _ hdeserted.2.1
  · exact h.leave hfiled hroot session id ch hch

theorem occupied_setListening (h : s.Occupied) {listening : Bool} :
    (s.setListening session channelId listening).Occupied
      ↔ (listening = false →
        ∀ ch, s.channels.lookup channelId = some ch → ¬ ch.LastListener session) := by
  unfold Occupied setListening
  simp only [Map.lookup_modify]
  constructor
  · rintro hafter rfl ch hch ⟨htemporary, hmembers, hlisteners⟩
    refine hafter channelId { ch with listeners := ch.listeners.erase session }
      (by rw [if_pos rfl, hch]; simp) ⟨htemporary, hmembers, ?_⟩
    show ch.listeners.erase session = ∅
    rw [hlisteners, Finset.erase_singleton]
  · intro hspared id ch' hch' hdeserted
    split at hch'
    · next hid =>
        subst hid
        obtain ⟨old, hold, rfl⟩ := Option.map_eq_some_iff.mp hch'
        cases listening with
        | true => exact Finset.insert_ne_empty _ _ hdeserted.2.2
        | false =>
            obtain ⟨htemporary, hmembers, hlisteners⟩ := hdeserted
            rcases (Finset.erase_eq_empty_iff _ _).mp hlisteners with hnone | hone
            · exact h id old hold ⟨htemporary, hmembers, hnone⟩
            · exact hspared rfl old hold ⟨htemporary, hmembers, hone⟩
    · exact h id ch' hch' hdeserted

theorem occupied_dropSession (h : s.Occupied) (hfiled : s.Filed) (hroot : s.Rooted) :
    (s.dropSession session).Occupied ↔ ∀ id ch, s.channels.lookup id = some ch →
      ¬ (ch.without session).LastListener session := by
  unfold Occupied
  constructor
  · rintro hafter id ch hch ⟨htemporary, hmembers, hlisteners⟩
    refine hafter id _ ((lookup_dropSession hfiled hroot).mpr ⟨ch, hch, fun _ hempty => ?_, rfl⟩)
      ⟨htemporary, hmembers, ?_⟩
    · have hnone : (ch.without session).listeners = ∅ := hempty.2.2
      rw [hlisteners] at hnone
      exact Finset.singleton_ne_empty session hnone
    · have hone : ch.listeners = {session} := hlisteners
      show ch.listeners.erase session = ∅
      rw [hone, Finset.erase_singleton]
  · rintro hspared id ch hch ⟨htemporary, hmembers, hlisteners⟩
    obtain ⟨old, hold, hkept, rfl⟩ := (lookup_dropSession hfiled hroot).mp hch
    rcases (Finset.erase_eq_empty_iff _ _).mp hlisteners with hnone | hone
    · by_cases hin : session ∈ old.members
      · exact hkept hin ⟨htemporary, hmembers, hnone⟩
      · have hout : old.members.erase session = ∅ := hmembers
        rw [Finset.erase_eq_of_notMem hin] at hout
        exact h id old hold ⟨htemporary, hout, hnone⟩
    · exact hspared id old hold ⟨htemporary, hmembers, hone⟩

end ChannelStore

/-! ### Runs -/

/-- One of the calls a store takes. -/
inductive ChannelOp
  | createGameChannel (id : UInt32)
  | join (session channelId : UInt32)
  | leave (session : UInt32)
  | setListening (session channelId : UInt32) (listening : Bool)
  | dropSession (session : UInt32)

namespace ChannelStore

def step : ChannelOp → ChannelStore → Option (ChannelStore × Unit)
  | .createGameChannel id, s => some (s.createGameChannel id, ())
  | .join session channelId, s => some ((s.join session channelId).1, ())
  | .leave session, s => some ((s.leave session).1, ())
  | .setListening session channelId listening, s =>
    some (s.setListening session channelId listening, ())
  | .dropSession session, s => some (s.dropSession session, ())

/-- What is true of the store after a history of calls. -/
structure Coherent (past : List (Entry ChannelStore ChannelOp Unit)) (s : ChannelStore) :
    Prop where
  single : ∀ {session id id'}, s.Member session id → s.Member session id' → id = id'
  rooted : s.Rooted
  dropped : ∀ e ∈ past.head?, ∀ session, e.op = .dropSession session →
    ∀ id, ¬ s.Member session id ∧ ¬ s.Listener session id
  occupied : s.Occupied

/-- The call does not end the listening that alone keeps a temporary channel. -/
def Spares (s : ChannelStore) : ChannelOp → Prop
  | .setListening session channelId false =>
    ∀ ch, s.channels.lookup channelId = some ch → ¬ ch.LastListener session
  | .dropSession session =>
    ∀ id ch, s.channels.lookup id = some ch → ¬ (ch.without session).LastListener session
  | _ => True

variable {past : List (Entry ChannelStore ChannelOp Unit)} {s s' : ChannelStore} {op : ChannelOp}

theorem step_kept {a : Unit} (hfiled : s.Filed) (hroot : s.Rooted)
    (h : step op s = some (s', a)) : s'.Filed ∧ s'.Rooted := by
  cases op with
  | createGameChannel id =>
      obtain ⟨rfl, -⟩ := Prod.mk.inj (Option.some.inj h)
      exact ⟨hfiled.createGameChannel id, hroot.createGameChannel id⟩
  | join session channelId =>
      obtain ⟨rfl, -⟩ := Prod.mk.inj (Option.some.inj h)
      exact ⟨hfiled.join session channelId, hroot.join hfiled session channelId⟩
  | leave session =>
      obtain ⟨rfl, -⟩ := Prod.mk.inj (Option.some.inj h)
      exact ⟨hfiled.leave session, hroot.leave hfiled session⟩
  | setListening session channelId listening =>
      obtain ⟨rfl, -⟩ := Prod.mk.inj (Option.some.inj h)
      exact ⟨hfiled.setListening session channelId listening,
        hroot.setListening session channelId listening⟩
  | dropSession session =>
      obtain ⟨rfl, -⟩ := Prod.mk.inj (Option.some.inj h)
      exact ⟨hfiled.dropSession session, hroot.dropSession hfiled session⟩

/-- Nobody is in two channels, and the root stays. -/
theorem run_kept (run : Run step new past s) : s.Filed ∧ s.Rooted :=
  run.safe (I := fun s => s.Filed ∧ s.Rooted) ⟨filed_new, rooted_new⟩
    fun hkept h => step_kept hkept.1 hkept.2 h

/-- A session that was dropped has left no trace. -/
theorem step_dropped {a : Unit} {session : UInt32} (hfiled : s.Filed)
    (h : step (.dropSession session) s = some (s', a)) (id : UInt32) :
    ¬ s'.Member session id ∧ ¬ s'.Listener session id := by
  obtain ⟨rfl, -⟩ := Prod.mk.inj (Option.some.inj h)
  exact ⟨fun hmem => ((member_dropSession hfiled).mp hmem).1 rfl,
    fun hlistens => (listener_dropSession.mp hlistens).1 rfl⟩

/-- A call leaves no temporary channel empty exactly if it spares the last listeners. -/
theorem step_occupied {a : Unit} (hfiled : s.Filed) (hroot : s.Rooted) (hoccupied : s.Occupied)
    (h : step op s = some (s', a)) : s'.Occupied ↔ s.Spares op := by
  cases op with
  | createGameChannel id =>
      obtain ⟨rfl, -⟩ := Prod.mk.inj (Option.some.inj h)
      exact iff_of_true (hoccupied.createGameChannel id) trivial
  | join session channelId =>
      obtain ⟨rfl, -⟩ := Prod.mk.inj (Option.some.inj h)
      exact iff_of_true (hoccupied.join hfiled hroot session channelId) trivial
  | leave session =>
      obtain ⟨rfl, -⟩ := Prod.mk.inj (Option.some.inj h)
      exact iff_of_true (hoccupied.leave hfiled hroot session) trivial
  | setListening session channelId listening =>
      obtain ⟨rfl, -⟩ := Prod.mk.inj (Option.some.inj h)
      refine (occupied_setListening hoccupied).trans ?_
      cases listening with
      | true => exact iff_of_true (fun h => Bool.noConfusion h) trivial
      | false => exact ⟨fun h => h rfl, fun h _ => h⟩
  | dropSession session =>
      obtain ⟨rfl, -⟩ := Prod.mk.inj (Option.some.inj h)
      exact occupied_dropSession hoccupied hfiled hroot

/-- **Every temporary channel has somebody**, all through a run, exactly if no call ended the
listening that alone kept one.  The rest holds of every run. -/
theorem coherent_iff_spares (run : Run step new past s) :
    (∀ later before s', past = later ++ before → Run step new before s' → Coherent before s')
      ↔ Along (fun _ e => e.pre.Spares e.op) past := by
  have hnew : Coherent [] new :=
    ⟨filed_new.single, rooted_new, fun e he => absurd he (by simp), occupied_new⟩
  refine Run.always_iff hnew ?_ run
  intro past s op a s' run _ hcoherent h
  obtain ⟨hfiled, hroot⟩ := run_kept run
  obtain ⟨hfiled', hroot'⟩ := step_kept hfiled hroot h
  rw [← step_occupied hfiled hroot hcoherent.occupied h]
  refine ⟨Coherent.occupied, fun hoccupied => ⟨hfiled'.single, hroot', ?_, hoccupied⟩⟩
  intro e he session hop id
  obtain rfl := Option.some.inj he
  simp only at hop
  subst hop
  exact step_dropped hfiled h id

/-- A listener that keeps a channel, and stops. -/
theorem listener_strands_channel : ∃ past s, Run step new past s ∧ ¬ s.Occupied := by
  obtain ⟨past, s, run, hdeserted⟩ := exists_run step new
    [.join 1 100, .setListening 2 100 true, .leave 1, .setListening 2 100 false]
    (fun _ s => (s.channels.lookup 100).any fun ch => ch.Deserted) (by decide +kernel)
  obtain ⟨ch, hch, hempty⟩ := (Option.any_eq_true _ _).mp hdeserted
  exact ⟨past, s, run, fun h => h 100 ch hch (of_decide_eq_true hempty)⟩

/-- A channel that a listener keeps, and the rule for it. -/
theorem listener_keeps_channel :
    ∃ past s, Run step new past s ∧
      ((∀ later before s', past = later ++ before → Run step new before s' → Coherent before s')
        ↔ Along (fun _ e => e.pre.Spares e.op) past) := by
  obtain ⟨past, s, run, -⟩ := exists_run step new [.join 1 100, .setListening 2 100 true, .leave 1]
    (fun _ _ => true) (by decide +kernel)
  exact ⟨past, s, run, coherent_iff_spares run⟩

end ChannelStore

end Baston.Voice
