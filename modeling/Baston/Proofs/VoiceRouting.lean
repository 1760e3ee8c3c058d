/-
Who a voice packet reaches, and what it lets them know.

The recipients are a set that can be said without an order: the audience of a packet.  The list is
that set, each once, with the position for whoever shares the speaker's context.  A recipient that
does not is sent the audio alone, so two datagrams that differ behind the audio look the same to
it.
-/
import Baston.Voice.Router
import Baston.Proofs.Channels
import Baston.Proofs.VoicePackets

namespace Baston.Voice

open Assoc Checked

/-! ### The audience -/

/-- A session that is there and not deaf. -/
def Hears (sessions : SessionRegistry) (listener : UInt32) : Prop :=
  ∃ s, sessions.lookup listener = some s ∧ s.deaf = false ∧ s.selfDeaf = false

/-- A session is in a channel or listens to it. -/
def InEarshot (channels : ChannelStore) (listener id : UInt32) : Prop :=
  channels.Member listener id ∨ channels.Listener listener id

/-- Whom a packet is for. -/
def Audience (speaker : UInt32) (packet : VoicePacket) (sessions : SessionRegistry)
    (channels : ChannelStore) (aoi : AoiOracle) (listener : UInt32) : Prop :=
  ∃ s, sessions.lookup speaker = some s ∧ s.mute = false ∧
    match packet.target with
    | .loopback => listener = speaker
    | .normal => listener ≠ speaker ∧ Hears sessions listener ∧
        aoi speaker listener ≠ some false ∧
        ∃ id, channels.Member speaker id ∧ InEarshot channels listener id
    | .whisper n => listener ≠ speaker ∧ Hears sessions listener ∧
        ∃ target, s.targets.lookup n = some target ∧
          (listener ∈ target.sessions ∨
            ∃ ct ∈ target.channels, InEarshot channels listener ct.channelId)

/-- Both sessions have a context, and it is the same. -/
def SharesContext (sessions : SessionRegistry) (a b : UInt32) : Prop :=
  ∃ sa sb c, sessions.lookup a = some sa ∧ sessions.lookup b = some sb ∧
    sa.context = some c ∧ sb.context = some c

theorem contextsMatch_iff (sessions : SessionRegistry) (a b : UInt32) :
    sessions.contextsMatch a b = true ↔ SharesContext sessions a b := by
  unfold SessionRegistry.contextsMatch SharesContext
  cases ha : sessions.lookup a with
  | none => simp
  | some sa =>
      cases hb : sessions.lookup b with
      | none => simp
      | some sb =>
          cases hca : sa.context with
          | none => simp [hca]
          | some ca =>
              cases hcb : sb.context with
              | none => simp [hca, hcb]
              | some cb =>
                  simp only [decide_eq_true_eq, Option.some.injEq, hca, hcb]
                  constructor
                  · intro h
                    exact ⟨sa, sb, ca, rfl, rfl, hca, h ▸ hcb⟩
                  · rintro ⟨sa', sb', c, rfl, rfl, hc, hc'⟩
                    rw [hca] at hc
                    rw [hcb] at hc'
                    exact (Option.some.inj hc).trans (Option.some.inj hc').symm

/-! ### Lists of recipients -/

namespace Router

variable {speaker listener : UInt32} {packet : VoicePacket} {sessions : SessionRegistry}
  {channels : ChannelStore} {aoi : AoiOracle} {applyAoi : Bool} {candidates : List UInt32}

theorem canDeliver_iff : canDeliver speaker listener sessions aoi applyAoi = true ↔
    Hears sessions listener ∧ (applyAoi = true → aoi speaker listener ≠ some false) := by
  unfold canDeliver Hears Session.canHear
  cases hs : sessions.lookup listener with
  | none => simp
  | some s =>
      cases hd : s.deaf <;> cases hsd : s.selfDeaf <;> cases applyAoi <;>
        cases ha : aoi speaker listener <;> simp [hd, hsd]

/-- A recipient as the router makes it. -/
theorem mem_deliverable {r : Recipient} :
    r ∈ deliverable speaker packet sessions aoi applyAoi candidates ↔
      r = recipient speaker r.session packet sessions ∧ r.session ∈ candidates ∧
        r.session ≠ speaker ∧ canDeliver speaker r.session sessions aoi applyAoi = true := by
  unfold deliverable
  rw [List.mem_filterMap]
  constructor
  · rintro ⟨l, hl, h⟩
    by_cases hspeaker : l = speaker
    · rw [if_pos hspeaker] at h
      cases h
    · rw [if_neg hspeaker] at h
      by_cases hcan : canDeliver speaker l sessions aoi applyAoi = true
      · rw [if_pos hcan] at h
        cases h
        exact ⟨rfl, hl, hspeaker, hcan⟩
      · rw [if_neg hcan] at h
        cases h
  · rintro ⟨heq, hl, hspeaker, hcan⟩
    refine ⟨r.session, hl, ?_⟩
    rw [if_neg hspeaker, if_pos hcan, ← heq]

/-- The candidates that are kept, in their order. -/
theorem sessions_deliverable (candidates : List UInt32) :
    (deliverable speaker packet sessions aoi applyAoi candidates).map Recipient.session
      = candidates.filter fun l => l ≠ speaker ∧ canDeliver speaker l sessions aoi applyAoi = true
    := by
  induction candidates with
  | nil => rfl
  | cons l rest ih =>
      unfold deliverable at ih ⊢
      rw [List.filterMap_cons, List.filter_cons]
      by_cases hspeaker : l = speaker
      · simpa [hspeaker] using ih
      · by_cases hcan : canDeliver speaker l sessions aoi applyAoi = true
        · simpa [hspeaker, hcan, recipient] using ih
        · simpa [hspeaker, hcan] using ih

/-! ### Neighbours with one session -/

/-- Ordered by their session. -/
def Ascending (l : List Recipient) : Prop :=
  l.Pairwise fun a b => a.session.toNat ≤ b.session.toNat

theorem dedupFrom_sublist (l : List Recipient) : ∀ r : Recipient,
    (dedupFrom r l).Sublist (r :: l) := by
  induction l with
  | nil =>
      intro r
      exact List.Sublist.refl _
  | cons r' rest ih =>
      intro r
      unfold dedupFrom
      split
      · exact (ih r).trans (List.Sublist.cons_cons r (List.sublist_cons_self r' rest))
      · exact (ih r').cons_cons r

/-- No session is lost, and each is left once. -/
theorem dedupFrom_spec (l : List Recipient) : ∀ r : Recipient, Ascending (r :: l) →
    (∀ x ∈ r :: l, ∃ y ∈ dedupFrom r l, y.session = x.session) ∧
      (dedupFrom r l).Pairwise fun a b => a.session.toNat < b.session.toNat := by
  induction l with
  | nil =>
      intro r _
      exact ⟨fun x hx => ⟨x, hx, rfl⟩, List.pairwise_singleton _ r⟩
  | cons r' rest ih =>
      intro r hsorted
      obtain ⟨hfirst, hrest⟩ := List.pairwise_cons.mp hsorted
      unfold dedupFrom
      by_cases heq : r'.session = r.session
      · rw [if_pos heq]
        obtain ⟨hfirst', hrest'⟩ := List.pairwise_cons.mp hrest
        obtain ⟨hkept, hstrict⟩ := ih r (List.pairwise_cons.mpr
          ⟨fun x hx => hfirst x (List.mem_cons_of_mem _ hx), hrest'⟩)
        refine ⟨?_, hstrict⟩
        intro x hx
        rcases List.mem_cons.mp hx with rfl | hx'
        · exact hkept x List.mem_cons_self
        · rcases List.mem_cons.mp hx' with rfl | hx''
          · obtain ⟨y, hy, hsession⟩ := hkept r List.mem_cons_self
            exact ⟨y, hy, hsession.trans heq.symm⟩
          · exact hkept x (List.mem_cons_of_mem _ hx'')
      · rw [if_neg heq]
        obtain ⟨hkept, hstrict⟩ := ih r' hrest
        have hne : r.session.toNat ≠ r'.session.toNat :=
          fun h => heq (UInt32.toNat_inj.mp h).symm
        refine ⟨?_, List.pairwise_cons.mpr ⟨?_, hstrict⟩⟩
        · intro x hx
          rcases List.mem_cons.mp hx with rfl | hx'
          · exact ⟨x, List.mem_cons_self, rfl⟩
          · obtain ⟨y, hy, hsession⟩ := hkept x hx'
            exact ⟨y, List.mem_cons_of_mem _ hy, hsession⟩
        · intro x hx
          have hle := hfirst r' List.mem_cons_self
          rcases List.mem_cons.mp ((dedupFrom_sublist rest r').subset hx) with rfl | hx'
          · omega
          · have hle' := (List.pairwise_cons.mp hrest).1 x hx'
            omega

theorem ascending_insertionSort (l : List Recipient) :
    Ascending (l.insertionSort fun a b => a.session ≤ b.session) := by
  have : Std.Total fun a b : Recipient => a.session ≤ b.session :=
    ⟨fun a b => UInt32.le_total a.session b.session⟩
  have : IsTrans Recipient fun a b => a.session ≤ b.session :=
    ⟨fun _ _ _ h h' => UInt32.le_trans h h'⟩
  exact (List.pairwise_insertionSort _ l).imp fun h => UInt32.le_iff_toNat_le.mp h

theorem dedup_spec (l : List Recipient) :
    (∀ x ∈ dedup l, x ∈ l) ∧ (∀ x ∈ l, ∃ y ∈ dedup l, y.session = x.session) ∧
      ((dedup l).map Recipient.session).Nodup := by
  have hsorted := ascending_insertionSort l
  have hmem : ∀ x, x ∈ l.insertionSort (fun a b => a.session ≤ b.session) ↔ x ∈ l :=
    fun x => List.mem_insertionSort _
  unfold dedup
  cases hs : l.insertionSort fun a b => a.session ≤ b.session with
  | nil =>
      refine ⟨fun x hx => absurd hx List.not_mem_nil, ?_, List.nodup_nil⟩
      intro x hx
      rw [← hmem, hs] at hx
      exact absurd hx List.not_mem_nil
  | cons r rest =>
      rw [hs] at hsorted
      obtain ⟨hkept, hstrict⟩ := dedupFrom_spec rest r hsorted
      refine ⟨?_, ?_, ?_⟩
      · intro x hx
        rw [← hmem, hs]
        exact (dedupFrom_sublist rest r).subset hx
      · intro x hx
        rw [← hmem, hs] at hx
        exact hkept x hx
      · refine List.pairwise_map.mpr (hstrict.imp ?_)
        intro a b h heq
        rw [heq] at h
        exact Nat.lt_irrefl _ h

/-! ### Recipients -/

theorem mem_candidates {ch : Channel} : listener ∈ ch.candidates ↔
    listener ∈ ch.members ∨ listener ∈ ch.listeners := by
  unfold Channel.candidates
  rw [List.mem_append, Finset.mem_sort, Finset.mem_sort]

theorem inEarshot_iff {id : UInt32} : InEarshot channels listener id ↔
    ∃ ch, channels.channels.lookup id = some ch ∧ listener ∈ ch.candidates := by
  unfold InEarshot ChannelStore.Member ChannelStore.Listener
  simp only [mem_candidates]
  constructor
  · rintro (⟨ch, hch, h⟩ | ⟨ch, hch, h⟩)
    · exact ⟨ch, hch, .inl h⟩
    · exact ⟨ch, hch, .inr h⟩
  · rintro ⟨ch, hch, h | h⟩
    · exact .inl ⟨ch, hch, h⟩
    · exact .inr ⟨ch, hch, h⟩

theorem mem_foldl_insert (l : List UInt32) : ∀ set : Finset UInt32,
    listener ∈ l.foldl (fun set m => insert m set) set ↔ listener ∈ set ∨ listener ∈ l := by
  induction l with
  | nil =>
      intro set
      simp
  | cons m rest ih =>
      intro set
      rw [List.foldl_cons, ih, Finset.mem_insert, List.mem_cons]
      tauto

theorem mem_foldl_candidates (l : List ChannelTarget) : ∀ set : Finset UInt32,
    listener ∈ l.foldl (fun set ct => match channels.channels.lookup ct.channelId with
      | some ch => ch.candidates.foldl (fun set m => insert m set) set
      | none => set) set
    ↔ listener ∈ set ∨ ∃ ct ∈ l, InEarshot channels listener ct.channelId := by
  induction l with
  | nil =>
      intro set
      simp
  | cons ct rest ih =>
      intro set
      rw [List.foldl_cons, ih, List.exists_mem_cons_iff, inEarshot_iff]
      cases channels.channels.lookup ct.channelId with
      | none => simp
      | some ch =>
          simp only [mem_foldl_insert, Option.some.injEq, exists_eq_left']
          tauto

theorem mem_whispered {target : Target} : listener ∈ whispered channels target ↔
    listener ∈ target.sessions ∨ ∃ ct ∈ target.channels, InEarshot channels listener ct.channelId
    := by
  refine (mem_foldl_candidates target.channels _).trans ?_
  rw [mem_foldl_insert]
  simp

/-- What the position of a recipient depends on. -/
def Placed (speaker : UInt32) (packet : VoicePacket) (sessions : SessionRegistry)
    (r : Recipient) : Prop :=
  r.withPosition = true ↔ packet.target ≠ .loopback ∧ packet.hasPosition = true ∧
    SharesContext sessions speaker r.session

/-- The recipients are these sessions, each once, with the position where it is due. -/
structure Resolved (speaker : UInt32) (packet : VoicePacket) (sessions : SessionRegistry)
    (wanted : UInt32 → Prop) (out : List Recipient) : Prop where
  nodup : (out.map Recipient.session).Nodup
  wanted_iff : ∀ listener, listener ∈ out.map Recipient.session ↔ wanted listener
  placed : ∀ r ∈ out, Placed speaker packet sessions r

theorem resolved_nil {wanted : UInt32 → Prop} (h : ∀ listener, ¬ wanted listener) :
    Resolved speaker packet sessions wanted [] :=
  ⟨List.nodup_nil, fun listener => iff_of_false List.not_mem_nil (h listener),
    fun _ hr => absurd hr List.not_mem_nil⟩

theorem placed_of_mem {r : Recipient} (htarget : packet.target ≠ .loopback)
    (h : r ∈ deliverable speaker packet sessions aoi applyAoi candidates) :
    Placed speaker packet sessions r := by
  obtain ⟨heq, -⟩ := mem_deliverable.mp h
  unfold Placed
  rw [heq]
  unfold recipient
  rw [Bool.and_eq_true, contextsMatch_iff]
  exact ⟨fun h => ⟨htarget, h⟩, fun h => h.2⟩

theorem mem_sessions_deliverable :
    listener ∈ (deliverable speaker packet sessions aoi applyAoi candidates).map
        Recipient.session ↔
      listener ∈ candidates ∧ listener ≠ speaker ∧ Hears sessions listener ∧
        (applyAoi = true → aoi speaker listener ≠ some false) := by
  rw [sessions_deliverable, List.mem_filter, decide_eq_true_eq, canDeliver_iff]

theorem resolved_whisper {set : Finset UInt32} (htarget : packet.target ≠ .loopback) :
    Resolved speaker packet sessions
      (fun listener => listener ∈ set ∧ listener ≠ speaker ∧ Hears sessions listener)
      (deliverable speaker packet sessions aoi false (set.sort (· ≤ ·))) := by
  refine ⟨?_, ?_, fun r hr => placed_of_mem htarget hr⟩
  · rw [sessions_deliverable]
    exact (Finset.sort_nodup set _).filter _
  · intro listener
    rw [mem_sessions_deliverable, Finset.mem_sort]
    simp

theorem resolved_normal (htarget : packet.target ≠ .loopback) :
    Resolved speaker packet sessions
      (fun listener => listener ∈ candidates ∧ listener ≠ speaker ∧ Hears sessions listener ∧
        aoi speaker listener ≠ some false)
      (dedup (deliverable speaker packet sessions aoi true candidates)) := by
  obtain ⟨hsub, hkept, hnodup⟩ := dedup_spec (deliverable speaker packet sessions aoi true candidates)
  refine ⟨hnodup, ?_, fun r hr => placed_of_mem htarget (hsub r hr)⟩
  intro listener
  have hmem : listener ∈ (dedup (deliverable speaker packet sessions aoi true candidates)).map
        Recipient.session ↔
      listener ∈ (deliverable speaker packet sessions aoi true candidates).map
        Recipient.session := by
    simp only [List.mem_map]
    constructor
    · rintro ⟨r, hr, heq⟩
      exact ⟨r, hsub r hr, heq⟩
    · rintro ⟨r, hr, heq⟩
      obtain ⟨r', hr', heq'⟩ := hkept r hr
      exact ⟨r', hr', heq'.trans heq⟩
  rw [hmem, mem_sessions_deliverable]
  simp

/-- The channel a speaker is found in is the one it is a member of. -/
theorem find_channel (speaker : UInt32) (hf : channels.Filed) :
    match (channels.channels.visit ascending).find? fun entry => speaker ∈ entry.2.members with
    | none => ∀ id, ¬ channels.Member speaker id
    | some (key, ch) => channels.channels.lookup ch.id = some ch ∧
        channels.channels.lookup key = some ch ∧ ∀ id, channels.Member speaker id ↔ id = key := by
  cases hfind : (channels.channels.visit ascending).find? fun entry =>
      speaker ∈ entry.2.members with
  | none =>
      intro id hmem
      obtain ⟨ch, hch, hin⟩ := hmem
      exact List.find?_eq_none.mp hfind (id, ch) (Map.mem_visit.mpr hch) (by simpa using hin)
  | some entry =>
      obtain ⟨key, ch⟩ := entry
      have hch : channels.channels.lookup key = some ch :=
        Map.mem_visit.mp (List.mem_of_find?_eq_some hfind)
      have hin : speaker ∈ ch.members := by simpa using List.find?_some hfind
      refine ⟨by rw [hf.named key ch hch, hch], hch, ?_⟩
      intro id
      constructor
      · intro hmem
        exact hf.single hmem ⟨ch, hch, hin⟩
      · intro hid
        subst hid
        exact ⟨ch, hch, hin⟩

theorem Resolved.congr {wanted wanted' : UInt32 → Prop} {out : List Recipient}
    (h : Resolved speaker packet sessions wanted out)
    (hiff : ∀ listener, wanted listener ↔ wanted' listener) :
    Resolved speaker packet sessions wanted' out :=
  ⟨h.nodup, fun listener => (h.wanted_iff listener).trans (hiff listener), h.placed⟩

theorem resolve_spec (speaker : UInt32) (packet : VoicePacket) (sessions : SessionRegistry)
    (aoi : AoiOracle) (hf : channels.Filed) :
    Resolved speaker packet sessions (Audience speaker packet sessions channels aoi)
      (resolve speaker packet sessions channels aoi) := by
  unfold resolve
  cases hs : sessions.lookup speaker with
  | none =>
      refine resolved_nil ?_
      rintro listener ⟨s, hs', -⟩
      rw [hs] at hs'
      cases hs'
  | some s =>
      cases hmute : s.mute with
      | true =>
          have hsilent : s.canSpeak = false := by
            unfold Session.canSpeak
            rw [hmute]
            rfl
          dsimp only
          rw [hsilent]
          refine resolved_nil ?_
          rintro listener ⟨s', hs', hmute', -⟩
          rw [hs] at hs'
          cases hs'
          rw [hmute] at hmute'
          cases hmute'
      | false =>
          have hspeaks : s.canSpeak = true := by
            unfold Session.canSpeak
            rw [hmute]
            rfl
          dsimp only
          rw [if_pos hspeaks]
          have haudience : ∀ listener, Audience speaker packet sessions channels aoi listener ↔
              match packet.target with
              | .loopback => listener = speaker
              | .normal => listener ≠ speaker ∧ Hears sessions listener ∧
                  aoi speaker listener ≠ some false ∧
                  ∃ id, channels.Member speaker id ∧ InEarshot channels listener id
              | .whisper n => listener ≠ speaker ∧ Hears sessions listener ∧
                  ∃ target, s.targets.lookup n = some target ∧
                    (listener ∈ target.sessions ∨
                      ∃ ct ∈ target.channels, InEarshot channels listener ct.channelId) := by
            intro listener
            unfold Audience
            rw [hs]
            simp only [Option.some.injEq, exists_eq_left', hmute, true_and]
          cases htarget : packet.target with
          | loopback =>
              refine ⟨List.nodup_singleton _, ?_, ?_⟩
              · intro listener
                rw [haudience, htarget]
                exact List.mem_singleton
              · intro r hr
                obtain rfl := List.mem_singleton.mp hr
                exact ⟨fun h => absurd h Bool.false_ne_true, fun h => absurd htarget h.1⟩
          | normal =>
              have hne : packet.target ≠ .loopback := by
                rw [htarget]
                exact VoiceTargetKind.noConfusion
              have hfound := find_channel speaker hf
              dsimp only
              cases hfind : (channels.channels.visit ascending).find? fun entry =>
                  speaker ∈ entry.2.members with
              | none =>
                  rw [hfind] at hfound
                  refine resolved_nil ?_
                  intro listener h
                  rw [haudience, htarget] at h
                  obtain ⟨-, -, -, id, hid, -⟩ := h
                  exact hfound id hid
              | some entry =>
                  obtain ⟨key, ch⟩ := entry
                  rw [hfind] at hfound
                  obtain ⟨hlookup, hkey, hmember⟩ := hfound
                  dsimp only
                  rw [hlookup]
                  refine (resolved_normal hne).congr ?_
                  intro listener
                  rw [haudience, htarget]
                  simp only [hmember, exists_eq_left, inEarshot_iff, hkey, Option.some.injEq,
                    exists_eq_left']
                  tauto
          | whisper n =>
              have hne : packet.target ≠ .loopback := by
                rw [htarget]
                exact VoiceTargetKind.noConfusion
              refine (resolved_whisper hne).congr ?_
              intro listener
              rw [haudience, htarget]
              dsimp only
              cases htarget' : s.targets.lookup n with
              | none => simp
              | some target =>
                  simp only [mem_whispered, Option.some.injEq, exists_eq_left']
                  tauto

/-! ### Two packets to one target -/

/-- A recipient, whatever it is given of the position. -/
def blank (r : Recipient) : Recipient := { r with withPosition := false }

theorem dedupFrom_blank (l : List Recipient) : ∀ r : Recipient,
    (dedupFrom r l).map blank = dedupFrom (blank r) (l.map blank) := by
  induction l with
  | nil =>
      intro r
      rfl
  | cons r' rest ih =>
      intro r
      rw [List.map_cons, dedupFrom, dedupFrom]
      by_cases h : r'.session = r.session
      · rw [if_pos h, if_pos (show (blank r').session = (blank r).session from h), ih]
      · rw [if_neg h, if_neg (show ¬ (blank r').session = (blank r).session from h),
          List.map_cons, ih]

theorem dedup_blank (l : List Recipient) : (dedup l).map blank = dedup (l.map blank) := by
  have hsort := List.map_insertionSort (fun a b : Recipient => a.session ≤ b.session)
    (fun a b : Recipient => a.session ≤ b.session) blank l (fun a _ b _ => Iff.rfl)
  unfold dedup
  rw [← hsort]
  cases l.insertionSort fun a b => a.session ≤ b.session with
  | nil => rfl
  | cons r rest => exact dedupFrom_blank rest r

theorem deliverable_blank (v v' : VoicePacket) :
    (deliverable speaker v sessions aoi applyAoi candidates).map blank
      = (deliverable speaker v' sessions aoi applyAoi candidates).map blank := by
  unfold deliverable
  rw [List.map_filterMap, List.map_filterMap]
  refine List.filterMap_congr fun l _ => ?_
  split
  · rfl
  · split
    · rfl
    · rfl

/-- Of the packet, only the target decides on the recipients. -/
theorem resolve_blank (speaker : UInt32) (sessions : SessionRegistry) (channels : ChannelStore)
    (aoi : AoiOracle) {v v' : VoicePacket} (htarget : v'.target = v.target) :
    (resolve speaker v sessions channels aoi).map blank
      = (resolve speaker v' sessions channels aoi).map blank := by
  unfold resolve
  rw [htarget]
  split
  · rfl
  · split
    · split
      · rfl
      · split
        · rfl
        · split
          · rw [dedup_blank, dedup_blank, deliverable_blank v v']
          · rfl
      · exact deliverable_blank v v'
    · rfl

end Router

/-! ### What is sent -/

namespace VoiceState

variable {tunnel : List UInt8 → List UInt8} {speaker : UInt32} {v v' : VoicePacket}
  {header : UInt8} {audio tail tail' : List UInt8} {st : VoiceState}

/-- What is sent reaches nobody but the recipient. -/
theorem to_dispatch (st : VoiceState) (session : UInt32) (out : List UInt8) :
    ∀ sent ∈ (st.dispatch tunnel session out).2, sent.to = session := by
  intro sent hsent
  unfold dispatch sendControl at hsent
  split at hsent
  · rw [List.mem_singleton.mp hsent]
    rfl
  · split at hsent
    · dsimp only at hsent
      split at hsent
      · rw [List.mem_singleton.mp hsent]
        rfl
      · exact absurd hsent List.not_mem_nil
    · exact absurd hsent List.not_mem_nil

/-- The nonce moves on whatever is encrypted. -/
theorem dispatch_state (st : VoiceState) (session : UInt32) (out out' : List UInt8) :
    (st.dispatch tunnel session out).1 = (st.dispatch tunnel session out').1 := by
  unfold dispatch
  split
  · rfl
  · split <;> split <;> rfl

/-- The part of what is sent that a listener sees. -/
def seenBy (listener : UInt32) (sent : List Outgoing) : List Outgoing :=
  sent.filter fun out => out.to = listener

theorem seenBy_append (listener : UInt32) (sent more : List Outgoing) :
    seenBy listener (sent ++ more) = seenBy listener sent ++ seenBy listener more :=
  List.filter_append _ _

theorem seenBy_dispatch_of_ne {listener session : UInt32} (h : session ≠ listener)
    (st : VoiceState) (out : List UInt8) :
    seenBy listener (st.dispatch tunnel session out).2 = [] := by
  refine List.filter_eq_nil_iff.mpr fun sent hsent heq => h ?_
  rw [← to_dispatch st session out sent hsent]
  exact of_decide_eq_true heq

/-- The bytes for a recipient. -/
def outbound (speaker : UInt32) (v : VoicePacket) (header : UInt8) (withPosition : Bool) :
    List UInt8 :=
  header :: (writeU64 speaker.toUInt64 ++
    if withPosition then v.payload.drop 1 else (v.payload.take v.audioEnd).drop 1)

theorem outbound_audio (hl : Layout v header audio tail) :
    outbound speaker v header false = header :: (writeU64 speaker.toUInt64 ++ audio) := by
  unfold outbound
  rw [if_neg Bool.false_ne_true, hl.take_audioEnd]
  rfl

theorem deliver_eq (hl : Layout v header audio tail) (r : Recipient) (st : VoiceState) :
    st.deliver tunnel speaker v r
      = .ok (st.dispatch tunnel r.session (outbound speaker v header r.withPosition)) := by
  unfold deliver
  rw [hl.encodeOutbound]
  rfl

theorem deliverAll_cons (hl : Layout v header audio tail) {r : Recipient}
    {rest : List Recipient} {st st' : VoiceState} {more : List Outgoing}
    (hrest : deliverAll tunnel speaker v rest
      (st.dispatch tunnel r.session (outbound speaker v header r.withPosition)).1
        = .ok (st', more)) :
    st.deliverAll tunnel speaker v (r :: rest) = .ok (st',
      (st.dispatch tunnel r.session (outbound speaker v header r.withPosition)).2 ++ more) := by
  unfold deliverAll
  rw [deliver_eq hl, ok_bind]
  dsimp only
  rw [hrest]
  rfl

/-- Two packets that are alike to the end of the audio, sent to the same recipients, look the
same to a listener that is given no position. -/
theorem deliverAll_same (tunnel : List UInt8 → List UInt8) (speaker listener : UInt32)
    (hl : Layout v header audio tail)
    (hl' : Layout v' header audio tail') (rs : List Recipient) :
    ∀ (rs' : List Recipient) (st : VoiceState), rs.map Router.blank = rs'.map Router.blank →
      (∀ r ∈ rs ++ rs', r.session = listener → r.withPosition = false) →
      ∃ st' sent sent', st.deliverAll tunnel speaker v rs = .ok (st', sent) ∧
        st.deliverAll tunnel speaker v' rs' = .ok (st', sent') ∧
        seenBy listener sent = seenBy listener sent' := by
  induction rs with
  | nil =>
      intro rs' st hsame _
      obtain rfl := List.map_eq_nil_iff.mp hsame.symm
      exact ⟨st, [], [], rfl, rfl, rfl⟩
  | cons r rest ih =>
      intro rs' st hsame hblind
      cases rs' with
      | nil => cases hsame
      | cons r' rest' =>
          obtain ⟨hhead, htail⟩ := List.cons.inj hsame
          have hsession : r.session = r'.session := (Recipient.mk.inj hhead).1
          obtain ⟨st', sent, sent', hrest, hrest', hseen⟩ := ih rest'
            (st.dispatch tunnel r.session (outbound speaker v header r.withPosition)).1 htail
            (fun x hx => hblind x (List.mem_append.mpr ((List.mem_append.mp hx).imp
              (List.mem_cons_of_mem r) (List.mem_cons_of_mem r'))))
          have hstate : (st.dispatch tunnel r.session (outbound speaker v header r.withPosition)).1
              = (st.dispatch tunnel r'.session (outbound speaker v' header r'.withPosition)).1 := by
            rw [hsession]
            exact dispatch_state st r'.session _ _
          have hfirst : seenBy listener
                (st.dispatch tunnel r.session (outbound speaker v header r.withPosition)).2
              = seenBy listener
                (st.dispatch tunnel r'.session (outbound speaker v' header r'.withPosition)).2 := by
            by_cases hto : r.session = listener
            · have hr := hblind r (List.mem_append_left _ List.mem_cons_self) hto
              have hr' := hblind r' (List.mem_append_right _ List.mem_cons_self)
                (hsession.symm.trans hto)
              rw [hr, hr', hsession, outbound_audio hl, outbound_audio hl']
            · rw [seenBy_dispatch_of_ne hto, seenBy_dispatch_of_ne (hsession ▸ hto)]
          rw [hstate] at hrest'
          refine ⟨st', _, _, deliverAll_cons hl hrest, deliverAll_cons hl' hrest', ?_⟩
          rw [seenBy_append, seenBy_append, hfirst, hseen]

/-- The recipient that is this listener, if there is one, is given no position. -/
theorem not_withPosition {listener : UInt32} {wanted : UInt32 → Prop} {out : List Recipient}
    (hspec : Router.Resolved speaker v st.sessions wanted out)
    (hblind : v.target = .loopback ∨ ¬ SharesContext st.sessions speaker listener) :
    ∀ r ∈ out, r.session = listener → r.withPosition = false := by
  intro r hr hto
  by_contra hne
  obtain ⟨hloop, -, hshares⟩ := (hspec.placed r hr).mp (Bool.not_eq_false _ ▸ hne)
  rw [hto] at hshares
  exact hblind.elim hloop (fun h => h hshares)

/-- Where a listener is given no position, it sees nothing of what is behind the audio. -/
theorem routeVoice_same {listener : UInt32} {datagram datagram' : List UInt8}
    (hf : st.channels.Filed) (hparse : parse datagram = .ok (some v))
    (hsame : datagram'.take v.audioEnd = datagram.take v.audioEnd)
    (hblind : v.target = .loopback ∨ ¬ SharesContext st.sessions speaker listener) :
    ∃ st' sent sent', st.routeVoice tunnel speaker datagram = .ok (st', sent) ∧
      st.routeVoice tunnel speaker datagram' = .ok (st', sent') ∧
      seenBy listener sent = seenBy listener sent' := by
  obtain ⟨hpayload, header, audio, tail, hl⟩ := layout_of_parse hparse
  have hdatagram' : datagram' = header :: (audio ++ datagram'.drop v.audioEnd) := by
    rw [← hpayload, hl.take_audioEnd] at hsame
    rw [← List.cons_append, ← hsame, List.take_append_drop]
  obtain ⟨v', hparse', hl', htarget⟩ := hl.parse_same_audio (datagram'.drop v.audioEnd)
  rw [← hdatagram'] at hparse'
  have hspec := Router.resolve_spec speaker v st.sessions noCulling hf
  have hspec' := Router.resolve_spec speaker v' st.sessions noCulling hf
  obtain ⟨st', sent, sent', hsent, hsent', hseen⟩ := deliverAll_same tunnel speaker listener
    hl hl' _ _ st (Router.resolve_blank speaker st.sessions st.channels noCulling htarget) (by
      intro r hr
      rcases List.mem_append.mp hr with hr | hr
      · exact not_withPosition hspec hblind r hr
      · exact not_withPosition hspec' (htarget ▸ hblind) r hr)
  refine ⟨st', sent, sent', ?_, ?_, hseen⟩
  · unfold routeVoice
    rw [hparse]
    exact hsent
  · unfold routeVoice
    rw [hparse']
    exact hsent'

end VoiceState

/-- **Voice routing is exact, and keeps a position among those who share a context.**  The
recipients of a packet are its audience, each once, and the position is for those whose context is
the speaker's.  What anybody else is sent, and what is left of the server, is the same for any two
datagrams that are alike to the end of the audio. -/
theorem routing_exact (st : VoiceState) (hf : st.channels.Filed) (speaker : UInt32)
    (packet : VoicePacket) (aoi : AoiOracle) :
    ((Router.resolve speaker packet st.sessions st.channels aoi).map Recipient.session).Nodup
    ∧ (∀ listener, (∃ r ∈ Router.resolve speaker packet st.sessions st.channels aoi,
          r.session = listener) ↔
        Audience speaker packet st.sessions st.channels aoi listener)
    ∧ (∀ r ∈ Router.resolve speaker packet st.sessions st.channels aoi, r.withPosition = true →
          SharesContext st.sessions speaker r.session)
    ∧ ∀ (tunnel : List UInt8 → List UInt8) (datagram datagram' : List UInt8) (v : VoicePacket)
        (listener : UInt32), parse datagram = .ok (some v) →
        datagram'.take v.audioEnd = datagram.take v.audioEnd →
        v.target = .loopback ∨ ¬ SharesContext st.sessions speaker listener →
        ∃ st' sent sent', st.routeVoice tunnel speaker datagram = .ok (st', sent) ∧
          st.routeVoice tunnel speaker datagram' = .ok (st', sent') ∧
          VoiceState.seenBy listener sent = VoiceState.seenBy listener sent' := by
  have hspec := Router.resolve_spec speaker packet st.sessions aoi hf
  refine ⟨hspec.nodup, ?_, ?_, ?_⟩
  · intro listener
    rw [← hspec.wanted_iff listener, List.mem_map]
  · intro r hr hposition
    exact ((hspec.placed r hr).mp hposition).2.2
  · intro tunnel datagram datagram' v listener hparse hsame hblind
    exact VoiceState.routeVoice_same hf hparse hsame hblind

/-- Two sessions in the root channel; the second has no context. -/
def twoInRoot : VoiceState :=
  { sessions := ((∅ : SessionRegistry).insert 1 { id := 1, name := "[1]", context := some [7] }).insert
      2 { id := 2, name := "[2]" }
    channels := ((ChannelStore.new.join 1 ROOT_CHANNEL).1.join 2 ROOT_CHANNEL).1
    controlTx := (∅ : Map UInt32 Nat).insert 2 0 }

/-- One Opus frame of one byte, for the speaker's channel. -/
def shortTalk : VoicePacket :=
  { codec := .opus, target := .normal, payload := [0x80, 1, 1, 0xAA], audioEnd := 4
    position := none }

theorem talk_in_root :
    (∃ r ∈ Router.resolve 1 shortTalk twoInRoot.sessions twoInRoot.channels noCulling,
      r.session = 2)
    ∧ ∃ st' sent sent', twoInRoot.routeVoice id 1 [0x80, 1, 1, 0xAA] = .ok (st', sent) ∧
        twoInRoot.routeVoice id 1 ([0x80, 1, 1, 0xAA] ++ List.replicate 12 1) = .ok (st', sent') ∧
        VoiceState.seenBy 2 sent = VoiceState.seenBy 2 sent' := by
  have hf : twoInRoot.channels.Filed :=
    (ChannelStore.filed_new.join 1 ROOT_CHANNEL).join 2 ROOT_CHANNEL
  obtain ⟨-, haudience, -, hsame⟩ := routing_exact twoInRoot hf 1 shortTalk noCulling
  refine ⟨(haudience 2).mpr ?_, hsame id _ _ shortTalk 2 rfl rfl (.inr ?_)⟩
  · refine ⟨_, rfl, rfl, by decide, ⟨_, rfl, rfl, rfl⟩, by decide, ROOT_CHANNEL,
      ⟨_, rfl, by decide +kernel⟩, .inl ⟨_, rfl, by decide +kernel⟩⟩
  · rintro ⟨sa, sb, c, -, hb, -, hc⟩
    cases hb
    cases hc

end Baston.Voice
