/-
What the fragments of a frame look like: whether each carries its timestamp, and whether
their numbers tell them apart.
-/
import Baston.Proofs.PackedWriter
import Baston.Rage.LiteralRun
import Baston.Lib.Trace

namespace Baston.Rage

open MessageBuffer

namespace Batches

/-! ### Timestamps -/

/-- Every clone of the fragment has a timestamp before it. -/
def SelfTimed (batch : List Written) : Prop :=
  ∀ before c after, batch = before ++ .clone c :: after → timed before = true

/-- The clone fits behind its timestamp, so that it opens no batch of its own. -/
def fits (lengthHack : Bool) (b : Batches) : WriterCall → Bool
  | .clone ts c => !full lengthHack (b.ensureTimestamp lengthHack ts).batch (.clone c)
  | .remove .. => true

def isClone : Written → Bool
  | .clone _ => true
  | _ => false

theorem selfTimed_append {batch : List Written} {r : Written} :
    SelfTimed (batch ++ [r]) ↔ SelfTimed batch ∧ (isClone r = true → timed batch = true) := by
  constructor
  · intro h
    refine ⟨?_, ?_⟩
    · rintro before c after rfl
      exact h before c (after ++ [r]) (by simp)
    · intro hr
      cases r with
      | clone c => exact h batch c [] rfl
      | timestamp ts => cases hr
      | remove forceSteal objectId uniqifier => cases hr
  · rintro ⟨hbatch, hlast⟩ before c after heq
    rcases Trace.cut_concat heq with ⟨-, rfl, rfl⟩ | ⟨front, -, hfront⟩
    · exact hlast rfl
    · exact hbatch before c front hfront

/-- Every fragment so far is self-timed, and so is the batch. -/
def AllTimed (b : Batches) : Prop := ∀ batch ∈ b.fragments, SelfTimed batch

theorem allTimed_push {lengthHack : Bool} {b : Batches} {r : Written} :
    AllTimed (b.push lengthHack r) ↔ AllTimed b
      ∧ (isClone r = true → full lengthHack b.batch r = false ∧ timed b.batch = true) := by
  have hone : SelfTimed [r] ↔ isClone r = false := by
    have h : SelfTimed ([] ++ [r]) ↔ _ := selfTimed_append
    rw [List.nil_append] at h
    rw [h]
    have hnil : SelfTimed [] := by
      intro before c after heq
      simp at heq
    simp [hnil, timed]
  unfold AllTimed fragments push
  by_cases hfull : full lengthHack b.batch r = true
  · rw [if_pos hfull]
    simp only [List.forall_mem_append, List.forall_mem_singleton, hone, hfull]
    simp
  · rw [if_neg hfull]
    rw [Bool.not_eq_true] at hfull
    simp only [List.forall_mem_append, List.forall_mem_singleton, selfTimed_append, hfull,
      and_assoc, true_and]

theorem allTimed_ensureTimestamp {lengthHack : Bool} {b : Batches} {ts : UInt64} :
    AllTimed (b.ensureTimestamp lengthHack ts) ↔ AllTimed b := by
  unfold ensureTimestamp
  by_cases htimed : timed b.batch = true
  · rw [if_pos htimed]
  · rw [if_neg htimed, allTimed_push]
    simp [isClone]

theorem timed_ensureTimestamp (lengthHack : Bool) (b : Batches) (ts : UInt64) :
    timed (b.ensureTimestamp lengthHack ts).batch = true := by
  unfold ensureTimestamp
  by_cases htimed : timed b.batch = true
  · rw [if_pos htimed]
    exact htimed
  · rw [if_neg htimed]
    unfold push
    split <;> simp [timed]

/-- One call keeps every fragment self-timed exactly when its clone fits. -/
theorem allTimed_write {lengthHack : Bool} {b : Batches} {call : WriterCall} :
    AllTimed (b.write lengthHack call) ↔ AllTimed b ∧ fits lengthHack b call = true := by
  cases call with
  | clone ts c =>
      simp only [write, allTimed_push, allTimed_ensureTimestamp, timed_ensureTimestamp, fits,
        isClone, and_true, true_imp_iff, Bool.not_eq_true']
  | remove forceSteal objectId uniqifier =>
      simp [write, allTimed_push, fits, isClone]

theorem ofCalls_append (lengthHack : Bool) (calls : List WriterCall) (call : WriterCall) :
    ofCalls lengthHack (calls ++ [call]) = (ofCalls lengthHack calls).write lengthHack call := by
  unfold ofCalls
  rw [List.foldl_append]
  rfl

theorem allTimed_ofCalls (lengthHack : Bool) (calls : List WriterCall) :
    AllTimed (ofCalls lengthHack calls) ↔
      ∀ before call after, calls = before ++ call :: after →
        fits lengthHack (ofCalls lengthHack before) call = true := by
  induction calls using List.reverseRecOn with
  | nil =>
      refine ⟨fun _ before call after h => absurd h (by simp), fun _ => ?_⟩
      intro batch hbatch before c after heq
      rw [List.mem_singleton.mp hbatch] at heq
      exact absurd heq (by simp [ofCalls])
  | append_singleton calls call ih =>
      rw [ofCalls_append, allTimed_write, ih]
      constructor
      · rintro ⟨hcalls, hlast⟩ before x after heq
        rcases Trace.cut_concat heq with ⟨-, rfl, rfl⟩ | ⟨front, -, hfront⟩
        · exact hlast
        · exact hcalls before x front hfront
      · intro h
        refine ⟨?_, h calls call [] rfl⟩
        rintro before x after rfl
        exact h before x (after ++ [call]) (by simp)

end Batches

/-- Packet number `n` of the stream is the fragment of a batch in which every clone has a
timestamp before it. -/
def TimedPacket (lz4 : Lz4) (msgType : UInt32) (frameIndex : UInt64) (lengthHack : Bool)
    (calls : List WriterCall) (n : Nat) (packet : List UInt8) : Prop :=
  ∃ batch last, (Batches.ofCalls lengthHack calls).fragments[n]? = some batch
    ∧ IsFragment lz4 msgType frameIndex lengthHack last (n + 1) packet batch
    ∧ Batches.SelfTimed batch

/-- **Every fragment carries its own timestamp** exactly when every clone of the frame fits
behind its timestamp. -/
theorem fragments_self_timed_iff (lz4 : Lz4) (msgType : UInt32) (frameIndex : UInt64)
    (lengthHack : Bool) (calls : List WriterCall) :
    (∀ n packet, (packedStream lz4 msgType frameIndex lengthHack calls)[n]? = some packet →
        TimedPacket lz4 msgType frameIndex lengthHack calls n packet)
      ↔ ∀ before call after, calls = before ++ call :: after →
        Batches.fits lengthHack (Batches.ofCalls lengthHack before) call = true := by
  obtain ⟨hlen, hfragment⟩ := packedStream_fragments lz4 msgType frameIndex lengthHack calls
  rw [← Batches.allTimed_ofCalls]
  constructor
  · intro h batch hbatch
    obtain ⟨n, hn, hget⟩ := List.getElem_of_mem hbatch
    obtain ⟨packet, hpacket⟩ : ∃ packet,
        (packedStream lz4 msgType frameIndex lengthHack calls)[n]? = some packet :=
      ⟨_, List.getElem?_eq_getElem (by omega)⟩
    obtain ⟨batch', last, hbatch', -, htimed⟩ := h n packet hpacket
    rw [List.getElem?_eq_getElem hn, hget] at hbatch'
    rw [Option.some.inj hbatch']
    exact htimed
  · intro h n packet hpacket
    have hn := (List.getElem?_eq_some_iff.mp hpacket).1
    have hbatch := List.getElem?_eq_getElem (by omega :
      n < (Batches.ofCalls lengthHack calls).fragments.length)
    exact ⟨_, _, hbatch, hfragment n packet _ hpacket hbatch, h _ (List.getElem_mem _)⟩

/-- A create of an object with a blob of `n` zero bytes. -/
def bigCreate (n : Nat) : OutboundClone where
  syncType := Rec.create
  objectId := 5
  ownerNetId := 1
  entityType := some .object
  creationToken := 0
  uniqifier := 1
  dependentFrameIndex := 0
  timestamp := 0
  firstFrameUpdate := false
  data := List.replicate n 0

/-- A clone that fills a fragment alone goes out without a timestamp: the timestamp written
for it is flushed away before it. -/
theorem big_clone_without_timestamp :
    ¬ ∀ n packet, (packedStream LiteralRun.lz4 msgPackedClones 1 false
        [.clone 7 (bigCreate 1100)])[n]? = some packet →
      TimedPacket LiteralRun.lz4 msgPackedClones 1 false [.clone 7 (bigCreate 1100)] n packet := by
  have hbatches : (Batches.ofCalls false [.clone 7 (bigCreate 1100)]).fragments
      = [[.timestamp 7], [.clone (bigCreate 1100)]] := by decide +kernel
  intro h
  obtain ⟨hlen, -⟩ := packedStream_fragments LiteralRun.lz4 msgPackedClones 1 false
    [.clone 7 (bigCreate 1100)]
  rw [hbatches] at hlen
  obtain ⟨batch, -, hbatch, -, htimed⟩ := h 1 _ (List.getElem?_eq_getElem (by rw [hlen]; decide))
  rw [hbatches] at hbatch
  obtain rfl : [.clone (bigCreate 1100)] = batch := Option.some.inj hbatch
  exact absurd (htimed [] (bigCreate 1100) [] rfl) (by decide)

end Baston.Rage
