/-
The control channel: what is sent is what is read.

TCP keeps the order of the bytes and nothing else.  The read loop is the reader of a framed stream
(`simulates`), so the pieces in which the bytes arrive make no difference: what it handles is what
the whole stream holds (`reads_the_frames`), and of what a peer has sent it handles every message
the moment its last byte has arrived (`sent_is_read`).
-/
import Mathlib.Algebra.Group.Nat.Defs
import Baston.Lib.Framing
import Baston.Proofs.VoicePackets
import Baston.Voice.Framing

namespace Baston.Voice

open Framing

variable {arrived payload left more : List UInt8} {tag : UInt16} {ty : MessageType}
  {verdict : Nat → Bool} {frames : List (UInt16 × List UInt8)}

/-! ### Numbers -/

theorem MessageType.fromU16_tag (ty : MessageType) : fromU16 ty.tag = some ty := by
  cases ty <;> rfl

theorem toNat_fromBe16 (b0 b1 : UInt8) :
    (fromBe16 b0 b1).toNat = b0.toNat * 2 ^ 8 + b1.toNat := by
  have h0 := b0.toNat_lt
  have h1 := b1.toNat_lt
  have s8 : (8 : UInt16).toNat % 16 = 8 := rfl
  have hsmall : b0.toNat <<< 8 % 2 ^ 16 = b0.toNat <<< 8 := by
    rw [Nat.shiftLeft_eq]
    omega
  simp only [fromBe16, UInt16.toNat_or, UInt16.toNat_shiftLeft, UInt8.toNat_toUInt16, s8, hsmall]
  exact shift_or_byte h1

theorem toNat_fromBe32 (b0 b1 b2 b3 : UInt8) :
    (fromBe32 b0 b1 b2 b3).toNat
      = b0.toNat * 2 ^ 24 + b1.toNat * 2 ^ 16 + b2.toNat * 2 ^ 8 + b3.toNat := by
  have h0 := b0.toNat_lt
  have h1 := b1.toNat_lt
  have h2 := b2.toNat_lt
  have h3 := b3.toNat_lt
  have s24 : (24 : UInt32).toNat % 32 = 24 := rfl
  have s16 : (16 : UInt32).toNat % 32 = 16 := rfl
  have s8 : (8 : UInt32).toNat % 32 = 8 := rfl
  have hsmall0 : b0.toNat <<< 24 % 2 ^ 32 = b0.toNat <<< 24 := by
    rw [Nat.shiftLeft_eq]
    omega
  have hsmall1 : b1.toNat <<< 16 % 2 ^ 32 = b1.toNat <<< 16 := by
    rw [Nat.shiftLeft_eq]
    omega
  have hsmall2 : b2.toNat <<< 8 % 2 ^ 32 = b2.toNat <<< 8 := by
    rw [Nat.shiftLeft_eq]
    omega
  simp only [fromBe32, UInt32.toNat_or, UInt32.toNat_shiftLeft, UInt8.toNat_toUInt32, s24, s16,
    s8, hsmall0, hsmall1, hsmall2]
  exact or_bytes h1 h2 h3

/-- `to_be_bytes` undoes `from_be_bytes`. -/
theorem bytes_fromBe16 (b0 b1 : UInt8) :
    (fromBe16 b0 b1 >>> 8).toUInt8 = b0 ∧ (fromBe16 b0 b1).toUInt8 = b1 := by
  have h0 := b0.toNat_lt
  have h1 := b1.toNat_lt
  have s8 : (8 : UInt16).toNat % 16 = 8 := rfl
  refine ⟨?_, ?_⟩
  · apply UInt8.toNat_inj.mp
    rw [UInt16.toNat_toUInt8, UInt16.toNat_shiftRight, s8, toNat_fromBe16,
      Nat.shiftRight_eq_div_pow]
    omega
  · apply UInt8.toNat_inj.mp
    rw [UInt16.toNat_toUInt8, toNat_fromBe16]
    omega

theorem beBytes32_fromBe32 (b0 b1 b2 b3 : UInt8) :
    beBytes32 (fromBe32 b0 b1 b2 b3) = [b0, b1, b2, b3] := by
  have h0 := b0.toNat_lt
  have h1 := b1.toNat_lt
  have h2 := b2.toNat_lt
  have h3 := b3.toNat_lt
  have hbyte : ∀ s : UInt32, s.toNat < 32 → (fromBe32 b0 b1 b2 b3 >>> s).toUInt8.toNat
      = (b0.toNat * 2 ^ 24 + b1.toNat * 2 ^ 16 + b2.toNat * 2 ^ 8 + b3.toNat) / 2 ^ s.toNat
        % 256 := by
    intro s hs
    rw [UInt32.toNat_toUInt8, UInt32.toNat_shiftRight, Nat.mod_eq_of_lt hs, toNat_fromBe32,
      Nat.shiftRight_eq_div_pow]
  have b24 : (fromBe32 b0 b1 b2 b3 >>> 24).toUInt8 = b0 := by
    apply UInt8.toNat_inj.mp
    rw [hbyte 24 (by decide)]
    simp only [UInt32.reduceToNat]
    omega
  have b16 : (fromBe32 b0 b1 b2 b3 >>> 16).toUInt8 = b1 := by
    apply UInt8.toNat_inj.mp
    rw [hbyte 16 (by decide)]
    simp only [UInt32.reduceToNat]
    omega
  have b8 : (fromBe32 b0 b1 b2 b3 >>> 8).toUInt8 = b2 := by
    apply UInt8.toNat_inj.mp
    rw [hbyte 8 (by decide)]
    simp only [UInt32.reduceToNat]
    omega
  have bLow : (fromBe32 b0 b1 b2 b3 >>> 0).toUInt8 = b3 := by
    apply UInt8.toNat_inj.mp
    rw [hbyte 0 (by decide)]
    simp only [UInt32.reduceToNat]
    omega
  simp only [beBytes32, List.map_cons, List.map_nil, b24, b16, b8, bLow]

theorem fromBe16_bytes (v : UInt16) : fromBe16 (v >>> 8).toUInt8 v.toUInt8 = v := by
  have hv : v.toNat < 2 ^ 16 := v.toNat_lt
  have s8 : (8 : UInt16).toNat % 16 = 8 := rfl
  apply UInt16.toNat_inj.mp
  rw [toNat_fromBe16, UInt16.toNat_toUInt8, UInt16.toNat_toUInt8, UInt16.toNat_shiftRight, s8,
    Nat.shiftRight_eq_div_pow]
  omega

/-! ### Frames -/

/-- The preamble of a frame. -/
def preambleOf (tag : UInt16) (len : Nat) : List UInt8 :=
  (tag >>> 8).toUInt8 :: tag.toUInt8 :: beBytes32 (UInt32.ofNat len)

/-- The bytes of a frame. -/
def wire (tag : UInt16) (payload : List UInt8) : List UInt8 :=
  preambleOf tag payload.length ++ payload

def wireAll (frames : List (UInt16 × List UInt8)) : List UInt8 :=
  (frames.map fun frame => wire frame.1 frame.2).flatten

/-- The frames of the control channel. -/
def controlFormat : Format UInt8 UInt16 where
  headerSize := preambleSize
  parse header :=
    match Preamble.parse header with
    | some pre => (pre.ty, pre.len.toNat)
    | none => (0, 0)
  limit := MAX_MSGSIZE
  headerSize_pos := Nat.succ_pos 5

/-- What a frame is for the connection: a type that is not known is nothing. -/
def known (frame : UInt16 × List UInt8) : Option (MessageType × List UInt8) :=
  (MessageType.fromU16 frame.1).map fun ty => (ty, frame.2)

theorem parse_preambleOf (tag : UInt16) (len : Nat) :
    Preamble.parse (preambleOf tag len) = some ⟨tag, UInt32.ofNat len⟩ := by
  have htag := fromBe16_bytes tag
  have hlen := fromBe_toBe (UInt32.ofNat len)
  simp only [preambleOf, beBytes32, List.map_cons, List.map_nil, Preamble.parse, htag, fromBe32,
    hlen]

theorem isFrame_preambleOf (tag : UInt16) (h : payload.length ≤ MAX_MSGSIZE) :
    IsFrame controlFormat tag payload (preambleOf tag payload.length) where
  size := rfl
  parses := by
    have hlen : (UInt32.ofNat payload.length).toNat = payload.length := by
      rw [UInt32.toNat_ofNat']
      refine Nat.mod_eq_of_lt ?_
      simp only [MAX_MSGSIZE] at h
      omega
    simp only [controlFormat, parse_preambleOf, hlen]
  fits := h

/-- A frame has one preamble only. -/
theorem header_of_isFrame {header : List UInt8} (h : IsFrame controlFormat tag payload header) :
    header = preambleOf tag payload.length := by
  have hsize : header.length = 6 := h.size
  obtain ⟨b0, b1, b2, b3, b4, b5, rfl⟩ : ∃ b0 b1 b2 b3 b4 b5, header = [b0, b1, b2, b3, b4, b5] := by
    match header, hsize with
    | [b0, b1, b2, b3, b4, b5], _ => exact ⟨b0, b1, b2, b3, b4, b5, rfl⟩
  have hparse : (fromBe16 b0 b1, (fromBe32 b2 b3 b4 b5).toNat) = (tag, payload.length) := h.parses
  obtain ⟨rfl, hlen⟩ := Prod.mk.inj hparse
  obtain ⟨high, low⟩ := bytes_fromBe16 b0 b1
  rw [← hlen, preambleOf, UInt32.ofNat_toNat, high, low, beBytes32_fromBe32]

/-- A stream of frames, said of the headers and said of the frames. -/
theorem wireAll_of_isFrame {headers : List (List UInt8)}
    (h : List.Forall₂ (fun frame header => IsFrame controlFormat frame.1 frame.2 header) frames
      headers) :
    (List.zipWith (fun frame header => header ++ frame.2) frames headers).flatten = wireAll frames ∧
      ∀ frame ∈ frames, frame.2.length ≤ MAX_MSGSIZE := by
  induction h with
  | nil => exact ⟨rfl, fun frame hframe => absurd hframe List.not_mem_nil⟩
  | @cons frame header frames headers hframe _ ih =>
      obtain ⟨hwire, hfits⟩ := ih
      refine ⟨?_, ?_⟩
      · rw [List.zipWith_cons_cons, List.flatten_cons, hwire, header_of_isFrame hframe]
        rfl
      · intro other hother
        rcases List.mem_cons.mp hother with rfl | hother
        · exact hframe.fits
        · exact hfits other hother

/-- Frames at the start of a stream are the first that are taken. -/
theorem feed_wireAll (more : List UInt8) (h : ∀ frame ∈ frames, frame.2.length ≤ MAX_MSGSIZE) :
    (feed controlFormat (wireAll frames ++ more)).1
      = frames ++ (feed controlFormat more).1 := by
  have hall : List.Forall₂ (fun frame header => IsFrame controlFormat frame.1 frame.2 header) frames
      (frames.map fun frame => preambleOf frame.1 frame.2.length) :=
    List.forall₂_map_right_iff.mpr
      (List.forall₂_same.mpr fun frame hframe => isFrame_preambleOf frame.1 (h frame hframe))
  rw [← (wireAll_of_isFrame hall).1, feed_frames more hall]

/-- What is taken of a part of the stream is the first of what is taken of the stream. -/
theorem feed_isPrefix (h : arrived <+: more) :
    (feed controlFormat arrived).1 <+: (feed controlFormat more).1 := by
  obtain ⟨rest, rfl⟩ := h
  rw [feed_append]
  cases (feed controlFormat arrived).2 with
  | pending bytes => exact List.prefix_append _ _
  | refused => exact List.prefix_rfl

/-! ### The read loop -/

/-- A turn of the loop, by the frame at the start of what has arrived. -/
def turnOf : Next UInt8 UInt16 → Turn
  | .starved => .waits
  | .refused => .closes
  | .frame tag payload rest =>
    match MessageType.fromU16 tag with
    | none => .skips rest
    | some ty => .handles ty payload rest

theorem readTurn_eq (arrived : List UInt8) :
    readTurn arrived = turnOf (next controlFormat arrived) := by
  unfold readTurn next
  by_cases hshort : arrived.length < preambleSize
  · have hread : readExact preambleSize arrived = none := if_pos hshort
    have hsize : arrived.length < controlFormat.headerSize := hshort
    rw [hread, if_pos hsize]
    rfl
  · have hread : readExact preambleSize arrived
        = some (arrived.take preambleSize, arrived.drop preambleSize) := if_neg hshort
    have hsize : ¬ arrived.length < controlFormat.headerSize := hshort
    have hlen : (arrived.take preambleSize).length = 6 := by
      rw [List.length_take]
      exact Nat.min_eq_left (Nat.le_of_not_lt hshort)
    obtain ⟨pre, hpre⟩ : ∃ pre, Preamble.parse (arrived.take preambleSize) = some pre := by
      match arrived.take preambleSize, hlen with
      | [b0, b1, b2, b3, b4, b5], _ => exact ⟨_, rfl⟩
    have hparse : controlFormat.parse (arrived.take controlFormat.headerSize)
        = (pre.ty, pre.len.toNat) := by
      show (match Preamble.parse (arrived.take preambleSize) with
        | some pre => (pre.ty, pre.len.toNat)
        | none => (0, 0)) = _
      rw [hpre]
    rw [hread, if_neg hsize, hparse]
    simp only [hpre]
    by_cases hlimit : MAX_MSGSIZE < pre.len.toNat
    · have hlimit' : controlFormat.limit < pre.len.toNat := hlimit
      rw [if_pos hlimit, if_pos hlimit']
      rfl
    · have hlimit' : ¬ controlFormat.limit < pre.len.toNat := hlimit
      rw [if_neg hlimit, if_neg hlimit']
      by_cases hbody : (arrived.drop preambleSize).length < pre.len.toNat
      · have hbody' : (arrived.drop controlFormat.headerSize).length < pre.len.toNat := hbody
        rw [readExact, if_pos hbody, if_pos hbody']
        rfl
      · have hbody' : ¬ (arrived.drop controlFormat.headerSize).length < pre.len.toNat := hbody
        rw [readExact, if_neg hbody, if_neg hbody']
        rfl

/-- The loop and the reader of a framed stream are at the same place. -/
structure Same (reader : ClientReader) (r : Reader UInt8) : Prop where
  isOpen : reader.isOpen = r.reading
  arrived : r.reading = true → reader.arrived = r.pending
  handled : r.reading = true → reader.handled = r.handed

/-- The turns of the loop take all frames. -/
theorem turns_same (verdict : Nat → Bool) : ∀ (n : Nat) (reader : ClientReader), reader.isOpen = true →
    reader.arrived.length ≤ n →
    (ClientReader.turns verdict n reader).2
        = (handOn known verdict reader.handled (feed controlFormat reader.arrived).1).1 ∧
      Same (ClientReader.turns verdict n reader).1
        (.after (feed controlFormat reader.arrived).2
          (handOn known verdict reader.handled (feed controlFormat reader.arrived).1).2.1
          (handOn known verdict reader.handled (feed controlFormat reader.arrived).1).2.2) := by
  intro n
  induction n with
  | zero =>
      intro reader hopen hle
      have hnil : reader.arrived = [] := List.length_eq_zero_iff.mp (Nat.le_zero.mp hle)
      rw [hnil]
      exact ⟨rfl, hopen, fun _ => hnil, fun _ => rfl⟩
  | succ n ih =>
      intro reader hopen hle
      simp only [ClientReader.turns, readTurn_eq]
      cases hnext : next controlFormat reader.arrived with
      | starved =>
          rw [feed_starved hnext]
          exact ⟨rfl, hopen, fun _ => rfl, fun _ => rfl⟩
      | refused =>
          rw [feed_refused hnext]
          exact ⟨rfl, rfl, fun h => absurd h (by simp [Reader.after]),
            fun h => absurd h (by simp [Reader.after])⟩
      | frame tag payload rest =>
          have hlt := next_frame_length hnext
          have hrest : rest.length ≤ n := by omega
          rw [feed_frame hnext]
          cases htag : MessageType.fromU16 tag with
          | none =>
              have hknown : known (tag, payload) = none := by rw [known, htag]; rfl
              simp only [turnOf, htag, handOn, hknown]
              exact ih { reader with arrived := rest } hopen hrest
          | some ty =>
              have hknown : known (tag, payload) = some (ty, payload) := by rw [known, htag]; rfl
              simp only [turnOf, htag, handOn, hknown]
              cases hverdict : verdict reader.handled with
              | false =>
                  refine ⟨rfl, ?_, ?_, ?_⟩
                  · cases (feed controlFormat rest).2 <;> rfl
                  · intro h
                    cases htail : (feed controlFormat rest).2 <;>
                      simp [htail, Reader.after] at h
                  · intro h
                    cases htail : (feed controlFormat rest).2 <;>
                      simp [htail, Reader.after] at h
              | true =>
                  obtain ⟨hmessages, hsame⟩ := ih
                    { reader with arrived := rest, handled := reader.handled + 1 } hopen hrest
                  exact ⟨congrArg ((ty, payload) :: ·) hmessages, hsame⟩

/-- **The read loop is the reader of a framed stream.** -/
theorem simulates : ∀ (pieces : List (List UInt8)) (reader : ClientReader) (r : Reader UInt8),
    Same reader r →
    reader.arriveAll verdict pieces = r.arriveAll controlFormat known verdict pieces := by
  intro pieces
  induction pieces with
  | nil => exact fun _ _ _ => rfl
  | cons piece pieces ih =>
      intro reader r hsame
      simp only [ClientReader.arriveAll, Reader.arriveAll]
      cases hreading : r.reading with
      | false =>
          have hstays : reader.arrive verdict piece = (reader, []) := by
            rw [ClientReader.arrive, hsame.isOpen, hreading]
            rfl
          have hstays' : r.arrive controlFormat known verdict piece = (r, []) := by
            rw [Reader.arrive, hreading]
            rfl
          rw [hstays, hstays']
          exact ih reader r hsame
      | true =>
          have hopen : reader.isOpen = true := hsame.isOpen.trans hreading
          obtain ⟨hmessages, hafter⟩ := turns_same verdict (reader.arrived ++ piece).length
            { reader with arrived := reader.arrived ++ piece } hopen (Nat.le_refl _)
          rw [hsame.arrived hreading, hsame.handled hreading] at hmessages hafter
          simp only [ClientReader.arrive, Reader.arrive, if_pos hopen, if_pos hreading]
          rw [hsame.arrived hreading, hsame.handled hreading, hmessages]
          exact congrArg (_ ++ ·) (ih _ _ hafter)

/-- What is handled is what a consumer takes of the frames of the stream. -/
theorem runClient_handedOn (verdict : Nat → Bool) (pieces : List (List UInt8)) :
    HandedOn verdict ((feed controlFormat pieces.flatten).1.filterMap known)
      (runClient verdict pieces) := by
  have hsame : Same {} {} := ⟨rfl, fun _ => rfl, fun _ => rfl⟩
  have hstarved : next controlFormat [] = .starved := rfl
  have hhanded := handedOn_of_handOn known verdict (feed controlFormat pieces.flatten).1 0
  simp only [Nat.zero_add] at hhanded
  rw [runClient, simulates pieces {} {} hsame, handed_eq pieces {} rfl hstarved]
  exact hhanded

/-- **The pieces do not matter.**  The stream is frames, one after the other, and a rest that does
not start with one; the messages that are handled are those of the frames of known types, up to
the first after which the connection is closed. -/
theorem reads_the_frames (verdict : Nat → Bool) (pieces : List (List UInt8)) :
    ∃ frames left, pieces.flatten = wireAll frames ++ left ∧
      (∀ frame ∈ frames, frame.2.length ≤ MAX_MSGSIZE) ∧
      (∀ tag payload more, payload.length ≤ MAX_MSGSIZE → left ≠ wire tag payload ++ more) ∧
      HandedOn verdict (frames.filterMap known) (runClient verdict pieces) := by
  obtain ⟨headers, left, hall, hbytes, hstuck⟩ := feed_spec (f := controlFormat) pieces.flatten
  obtain ⟨hwire, hfits⟩ := wireAll_of_isFrame hall
  rw [hwire] at hbytes
  refine ⟨(feed controlFormat pieces.flatten).1, left, hbytes, hfits, ?_, ?_⟩
  · intro tag payload more hfit hleft
    have hnext := next_frame (isFrame_preambleOf tag hfit) more
    rw [hleft] at hstuck
    cases htail : (feed controlFormat pieces.flatten).2 with
    | pending bytes =>
        rw [htail] at hstuck
        cases hnext.symm.trans hstuck.2
    | refused =>
        rw [htail] at hstuck
        cases hnext.symm.trans hstuck
  · exact runClient_handedOn verdict pieces

/-! ### What is sent -/

/-- What `encode` takes. -/
def fits (message : MessageType × List UInt8) : Bool := message.2.length ≤ MAX_MSGSIZE

def frameOf (message : MessageType × List UInt8) : UInt16 × List UInt8 :=
  (message.1.tag, message.2)

theorem sent_eq (messages : List (MessageType × List UInt8)) :
    sent messages = wireAll ((messages.filter fits).map frameOf) := by
  induction messages with
  | nil => rfl
  | cons message messages ih =>
      by_cases hfits : message.2.length ≤ MAX_MSGSIZE
      · have hencode : (encode message.1 message.2).toOption
            = some (wire message.1.tag message.2) := by
          rw [encode, encodeFrame, if_neg (Nat.not_lt.mpr hfits)]
          rfl
        have hkept : fits message = true := decide_eq_true hfits
        rw [List.filter_cons_of_pos hkept]
        rw [sent, List.filterMap_cons]
        simp only [hencode, List.flatten_cons]
        exact congrArg (wire message.1.tag message.2 ++ ·) ih
      · have hencode : (encode message.1 message.2).toOption = none := by
          rw [encode, encodeFrame, if_pos (Nat.lt_of_not_le hfits)]
          rfl
        have hdropped : ¬ fits message = true := by
          simp only [fits, hfits, decide_false, Bool.false_eq_true, not_false_eq_true]
        rw [List.filter_cons_of_neg hdropped]
        rw [sent, List.filterMap_cons]
        simp only [hencode]
        exact ih

theorem filterMap_known_frameOf (messages : List (MessageType × List UInt8)) :
    (messages.map frameOf).filterMap known = messages := by
  induction messages with
  | nil => rfl
  | cons message messages ih =>
      have hknown : known (frameOf message) = some message := by
        rw [known, frameOf, MessageType.fromU16_tag]
        rfl
      rw [List.map_cons, List.filterMap_cons_some hknown, ih]

/-- The frames of what is sent are the messages that fit. -/
theorem feed_sent (messages : List (MessageType × List UInt8)) :
    (feed controlFormat (sent messages)).1 = (messages.filter fits).map frameOf := by
  have hfits : ∀ frame ∈ (messages.filter fits).map frameOf, frame.2.length ≤ MAX_MSGSIZE := by
    intro frame hframe
    obtain ⟨message, hmessage, rfl⟩ := List.mem_map.mp hframe
    exact of_decide_eq_true (List.mem_filter.mp hmessage).2
  have h := feed_wireAll [] hfits
  rw [List.append_nil] at h
  rw [sent_eq, h]
  exact List.append_nil _

/-- The messages of what has arrived are the first of those that fit. -/
theorem arrived_isPrefix {messages : List (MessageType × List UInt8)}
    (h : arrived <+: sent messages) :
    (feed controlFormat arrived).1.filterMap known <+: messages.filter fits := by
  have hframes := (feed_isPrefix h).filterMap known
  rwa [feed_sent, filterMap_known_frameOf] at hframes

/-- And all of those whose last byte has arrived are among them. -/
theorem isPrefix_arrived {messages : List (MessageType × List UInt8)}
    (h : sent messages <+: arrived) :
    messages.filter fits <+: (feed controlFormat arrived).1.filterMap known := by
  have hframes := (feed_isPrefix h).filterMap known
  rwa [feed_sent, filterMap_known_frameOf] at hframes

/-- **What is sent is what is read.**  In whatever pieces the bytes arrive, wherever the connection
breaks off and whatever the handler says, the messages that are handled are the first of those that
fit in a frame, in their order.  None is handled after one whose handler has closed the connection,
and one whose last byte has arrived is handled unless the connection was closed before it. -/
theorem sent_is_read (verdict : Nat → Bool) (messages : List (MessageType × List UInt8))
    (pieces : List (List UInt8)) (hpieces : pieces.flatten <+: sent messages) :
    runClient verdict pieces <+: messages.filter fits ∧
      (∀ n, n + 1 < (runClient verdict pieces).length → verdict n = true) ∧
      ∀ k, sent (messages.take k) <+: pieces.flatten →
        ∀ i < ((messages.take k).filter fits).length, (∀ n < i, verdict n = true) →
          i < (runClient verdict pieces).length := by
  have hhanded := runClient_handedOn verdict pieces
  refine ⟨hhanded.isPrefix.trans (arrived_isPrefix hpieces), hhanded.before_last, ?_⟩
  intro k hk i hi hopen
  exact hhanded.reaches (Nat.lt_of_lt_of_le hi (isPrefix_arrived hk).length_le) hopen

/-- A ping, a user name that is not known, and a ping that is not read any more. -/
def refused : List (MessageType × List UInt8) :=
  [(.ping, [7]), (.authenticate, [1, 1]), (.ping, [8])]

/-- Cut in the middle of a preamble, and broken off in the last one. -/
def refusedPieces : List (List UInt8) :=
  [[0, 3, 0], [0, 0, 1, 7, 0, 2], [0, 0, 0, 2, 1, 1, 0, 3, 0]]

theorem refused_after_two :
    runClient (· == 0) refusedPieces <+: refused.filter fits ∧
      (∀ n, n + 1 < (runClient (· == 0) refusedPieces).length → (n == 0) = true) ∧
      ∀ k, sent (refused.take k) <+: refusedPieces.flatten →
        ∀ i < ((refused.take k).filter fits).length, (∀ n < i, (n == 0) = true) →
          i < (runClient (· == 0) refusedPieces).length :=
  sent_is_read (· == 0) refused refusedPieces (by decide)

example : runClient (· == 0) (refusedPieces ++ [[0, 0, 1, 8]])
    = [(.ping, [7]), (.authenticate, [1, 1])] := by decide

end Baston.Voice
