/-
Voice packets, parsed and written again.

What is behind the audio frames has no say in where they end.  The walk over them reads some bytes
of its own, and reads the same from those bytes whatever stands behind; so a packet is a header
byte, the frames, and a tail that can be exchanged for another.
-/
import Baston.Voice.Packet
import Baston.Proofs.Pds

namespace Baston.Voice

open Checked

/-! ### The walk over the frames -/

theorem skip_spec (n : Nat) : ∀ r r' : PdsReader, skip n r = some r' →
    ∃ used, r = used ++ r' ∧ ∀ more, skip n (used ++ more) = some more := by
  induction n with
  | zero =>
      intro r r' h
      cases h
      exact ⟨[], rfl, fun _ => rfl⟩
  | succ n ih =>
      intro r r' h
      cases r with
      | nil => cases h
      | cons b rest =>
          obtain ⟨used, rfl, hused⟩ := ih rest r' h
          exact ⟨b :: used, rfl, hused⟩

/-- With more turns than bytes, the loop ends by itself. -/
theorem celtFrames_ends (turns : Nat) : ∀ r : PdsReader, r.length < turns →
    ∃ o, celtFrames turns r = .ok o := by
  induction turns with
  | zero =>
      intro r h
      exact absurd h (Nat.not_lt_zero _)
  | succ turns ih =>
      intro r hturns
      unfold celtFrames
      cases hread : r.readU64 with
      | none => exact ⟨none, rfl⟩
      | some p =>
          obtain ⟨h, r1⟩ := p
          obtain ⟨used, hne, rfl, -⟩ := PdsReader.readU64_spec r h r1 hread
          have hpos := List.length_pos_iff.mpr hne
          rw [List.length_append] at hturns
          dsimp only
          cases hskip : skip (h.toUInt8 &&& 0x7F).toNat r1 with
          | none => exact ⟨none, rfl⟩
          | some r2 =>
              obtain ⟨used', rfl, -⟩ := skip_spec _ r1 r2 hskip
              rw [List.length_append] at hturns
              dsimp only
              split
              · exact ⟨some r2, rfl⟩
              · exact ih r2 (by omega)

theorem celtFrames_spec (turns : Nat) : ∀ r r' : PdsReader,
    celtFrames turns r = .ok (some r') →
      ∃ used, r = used ++ r' ∧ ∀ more turns', (used ++ more).length < turns' →
        celtFrames turns' (used ++ more) = .ok (some more) := by
  induction turns with
  | zero =>
      intro r r' h
      cases h
  | succ turns ih =>
      intro r r' h
      unfold celtFrames at h
      cases hread : r.readU64 with
      | none =>
          rw [hread] at h
          cases h
      | some p =>
          obtain ⟨hdr, r1⟩ := p
          obtain ⟨used, hne, rfl, hused⟩ := PdsReader.readU64_spec r hdr r1 hread
          have hpos := List.length_pos_iff.mpr hne
          rw [hread] at h
          dsimp only at h
          cases hskip : skip (hdr.toUInt8 &&& 0x7F).toNat r1 with
          | none =>
              rw [hskip] at h
              cases h
          | some r2 =>
              obtain ⟨used', rfl, hused'⟩ := skip_spec _ r1 r2 hskip
              rw [hskip] at h
              dsimp only at h
              by_cases hlast : hdr.toUInt8 &&& 0x80 = 0
              · rw [if_pos hlast] at h
                cases h
                refine ⟨used ++ used', (List.append_assoc _ _ _).symm, ?_⟩
                intro more turns' hturns
                cases turns' with
                | zero => exact absurd hturns (Nat.not_lt_zero _)
                | succ turns' =>
                    rw [celtFrames, List.append_assoc, hused]
                    dsimp only
                    rw [hused']
                    exact if_pos hlast
              · rw [if_neg hlast] at h
                obtain ⟨used'', rfl, hused''⟩ := ih r2 r' h
                refine ⟨used ++ (used' ++ used''), by simp only [List.append_assoc], ?_⟩
                intro more turns' hturns
                cases turns' with
                | zero => exact absurd hturns (Nat.not_lt_zero _)
                | succ turns' =>
                    rw [celtFrames, List.append_assoc, hused]
                    dsimp only
                    rw [List.append_assoc, hused']
                    dsimp only
                    rw [if_neg hlast]
                    refine hused'' more turns' ?_
                    simp only [List.length_append] at hturns ⊢
                    omega

theorem audioFrames_ends (codec : VoicePacketType) (r : PdsReader) :
    ∃ o, audioFrames codec r = .ok o := by
  have hchain := celtFrames_ends (r.length + 1) r (Nat.lt_succ_self _)
  cases codec with
  | opus =>
      unfold audioFrames
      dsimp only
      cases r.readU64 with
      | none => exact ⟨none, rfl⟩
      | some p => exact ⟨_, rfl⟩
  | ping => exact ⟨some r, rfl⟩
  | celtAlpha => exact hchain
  | speex => exact hchain
  | celtBeta => exact hchain

theorem audioFrames_spec (codec : VoicePacketType) (r r' : PdsReader)
    (h : audioFrames codec r = .ok (some r')) :
    ∃ used, r = used ++ r' ∧ ∀ more, audioFrames codec (used ++ more) = .ok (some more) := by
  have hchain : celtFrames (r.length + 1) r = .ok (some r') →
      ∃ used, r = used ++ r' ∧ ∀ more,
        celtFrames ((used ++ more).length + 1) (used ++ more) = .ok (some more) := by
    intro h
    obtain ⟨used, heq, hused⟩ := celtFrames_spec _ r r' h
    exact ⟨used, heq, fun more => hused more _ (Nat.lt_succ_self _)⟩
  cases codec with
  | opus =>
      unfold audioFrames at h
      dsimp only at h
      cases hread : r.readU64 with
      | none =>
          rw [hread] at h
          cases h
      | some p =>
          obtain ⟨hdr, r1⟩ := p
          rw [hread] at h
          obtain ⟨used, -, rfl, hused⟩ := PdsReader.readU64_spec r hdr r1 hread
          obtain ⟨used', rfl, hused'⟩ := skip_spec _ r1 r' (Except.ok.inj h)
          refine ⟨used ++ used', (List.append_assoc _ _ _).symm, ?_⟩
          intro more
          unfold audioFrames
          dsimp only
          rw [List.append_assoc, hused]
          dsimp only
          rw [hused']
          rfl
  | ping =>
      cases h
      exact ⟨[], rfl, fun _ => rfl⟩
  | celtAlpha => exact hchain h
  | speex => exact hchain h
  | celtBeta => exact hchain h

/-! ### The positional block -/

theorem coordinate_ok (tail : List UInt8) (i : Nat) (h : i + 3 < tail.length) :
    ∃ x, coordinate tail i = .ok x := by
  unfold coordinate
  rw [index_eq (show i < tail.length by omega) 0, index_eq (show i + 1 < tail.length by omega) 0,
    index_eq (show i + 2 < tail.length by omega) 0, index_eq h 0]
  exact ⟨_, rfl⟩

theorem decodePosition_ok (tail : List UInt8) : ∃ o, decodePosition tail = .ok o := by
  unfold decodePosition
  by_cases h : tail.length ≠ 12
  · exact ⟨none, if_pos h⟩
  · obtain ⟨x, hx⟩ := coordinate_ok tail 0 (by omega)
    obtain ⟨y, hy⟩ := coordinate_ok tail 4 (by omega)
    obtain ⟨z, hz⟩ := coordinate_ok tail 8 (by omega)
    rw [if_neg h, hx, hy, hz]
    exact ⟨some (x, y, z), rfl⟩

/-- Bytes that do not overlap. -/
theorem or_bytes {a b c d : Nat} (hb : b < 256) (hc : c < 256) (hd : d < 256) :
    (a <<< 24) ||| (b <<< 16) ||| (c <<< 8) ||| d
      = a * 2 ^ 24 + b * 2 ^ 16 + c * 2 ^ 8 + d := by
  have h1 : (c <<< 8) ||| d = c * 256 + d := shift_or_byte hd
  have h2 : (b <<< 16) ||| (c * 256 + d) = b <<< 16 + (c * 256 + d) :=
    (Nat.shiftLeft_add_eq_or_of_lt (by omega) b).symm
  have h3 : (a <<< 24) ||| (b <<< 16 + (c * 256 + d)) = a <<< 24 + (b <<< 16 + (c * 256 + d)) :=
    (Nat.shiftLeft_add_eq_or_of_lt (by rw [Nat.shiftLeft_eq]; omega) a).symm
  rw [Nat.or_assoc, Nat.or_assoc, h1, h2, h3, Nat.shiftLeft_eq, Nat.shiftLeft_eq]
  omega

/-- `from_be_bytes` undoes `to_be_bytes`. -/
theorem fromBe_toBe (x : UInt32) :
    ((x >>> 24).toUInt8.toUInt32 <<< 24) ||| ((x >>> 16).toUInt8.toUInt32 <<< 16)
      ||| ((x >>> 8).toUInt8.toUInt32 <<< 8) ||| (x >>> 0).toUInt8.toUInt32 = x := by
  have hx : x.toNat < 2 ^ 32 := x.toNat_lt
  have hbyte : ∀ s : UInt32, s.toNat < 32 →
      (x >>> s).toUInt8.toUInt32.toNat = x.toNat / 2 ^ s.toNat % 256 := by
    intro s hs
    rw [UInt8.toNat_toUInt32, UInt32.toNat_toUInt8, UInt32.toNat_shiftRight,
      Nat.mod_eq_of_lt hs, Nat.shiftRight_eq_div_pow]
  have h24 : (x >>> 24).toUInt8.toUInt32.toNat = x.toNat / 2 ^ 24 % 256 := hbyte 24 (by decide)
  have h16 : (x >>> 16).toUInt8.toUInt32.toNat = x.toNat / 2 ^ 16 % 256 := hbyte 16 (by decide)
  have h8 : (x >>> 8).toUInt8.toUInt32.toNat = x.toNat / 2 ^ 8 % 256 := hbyte 8 (by decide)
  have h0 : (x >>> 0).toUInt8.toUInt32.toNat = x.toNat / 2 ^ 0 % 256 := hbyte 0 (by decide)
  have s24 : (24 : UInt32).toNat % 32 = 24 := rfl
  have s16 : (16 : UInt32).toNat % 32 = 16 := rfl
  have s8 : (8 : UInt32).toNat % 32 = 8 := rfl
  apply UInt32.toNat_inj.mp
  simp only [UInt32.toNat_or, UInt32.toNat_shiftLeft, h24, h16, h8, h0, s24, s16, s8]
  have hsmall : ∀ a k : Nat, a < 256 → k ≤ 24 → a <<< k % 2 ^ 32 = a <<< k := by
    intro a k ha hk
    refine Nat.mod_eq_of_lt ?_
    rw [Nat.shiftLeft_eq]
    calc a * 2 ^ k < 256 * 2 ^ k := Nat.mul_lt_mul_of_pos_right ha (Nat.two_pow_pos k)
      _ ≤ 256 * 2 ^ 24 := Nat.mul_le_mul_left _ (Nat.pow_le_pow_right (by omega) hk)
      _ = 2 ^ 32 := by norm_num
  rw [hsmall _ 24 (by omega) (by omega), hsmall _ 16 (by omega) (by omega),
    hsmall _ 8 (by omega) (by omega), or_bytes (by omega) (by omega) (by omega)]
  omega

/-- A position is read back from its twelve bytes. -/
theorem decodePosition_positionBytes (pos : Position) :
    decodePosition (VoicePacket.positionBytes pos) = .ok (some pos) := by
  obtain ⟨x, y, z⟩ := pos
  have hx : coordinate (VoicePacket.positionBytes (x, y, z)) 0 = .ok x :=
    congrArg Except.ok (fromBe_toBe x)
  have hy : coordinate (VoicePacket.positionBytes (x, y, z)) 4 = .ok y :=
    congrArg Except.ok (fromBe_toBe y)
  have hz : coordinate (VoicePacket.positionBytes (x, y, z)) 8 = .ok z :=
    congrArg Except.ok (fromBe_toBe z)
  have hlen : (VoicePacket.positionBytes (x, y, z)).length = 12 := rfl
  unfold decodePosition
  rw [if_neg (not_not_intro hlen), hx, hy, hz]
  rfl

/-! ### Packets -/

/-- A packet's header, its frames, and what is behind them. -/
structure Layout (v : VoicePacket) (header : UInt8) (audio tail : List UInt8) : Prop where
  payload : v.payload = header :: (audio ++ tail)
  codec : VoicePacketType.fromBits (header >>> 5) = some v.codec
  target : v.target = VoiceTargetKind.fromBits (header &&& 0x1F)
  audioEnd : v.audioEnd = 1 + audio.length
  /-- The session and the frames end where they do, whatever comes after. -/
  frames : ∀ more, ∃ w r, PdsReader.readU64 (audio ++ more) = some (w, r) ∧
    audioFrames v.codec r = .ok (some more)
  ping : v.codec = .ping → v.position = none
  position : v.codec ≠ .ping → decodePosition tail = .ok v.position

theorem slice_from {xs : List UInt8} {k : Nat} (h : k ≤ xs.length) :
    slice xs k xs.length = .ok (xs.drop k) := by
  rw [slice_eq h (Nat.le_refl _), List.take_of_length_le (by rw [List.length_drop])]

/-- What is read of a datagram that begins like a packet. -/
theorem parse_of_frames {header : UInt8} {codec : VoicePacketType} {audio tail : List UInt8}
    (hcodec : VoicePacketType.fromBits (header >>> 5) = some codec) {w : UInt64} {r : PdsReader}
    (hread : PdsReader.readU64 (audio ++ tail) = some (w, r))
    (hframes : audioFrames codec r = .ok (some tail)) {position : Option Position}
    (hping : codec = .ping → position = none)
    (hposition : codec ≠ .ping → decodePosition tail = .ok position) :
    parse (header :: (audio ++ tail)) = .ok (some
      { codec, target := VoiceTargetKind.fromBits (header &&& 0x1F)
        payload := header :: (audio ++ tail), audioEnd := 1 + audio.length, position }) := by
  have hlen : (header :: (audio ++ tail)).length = 1 + audio.length + tail.length := by
    rw [List.length_cons, List.length_append]
    omega
  have hoffset : 1 + PdsReader.offset (audio ++ tail) tail = 1 + audio.length := by
    unfold PdsReader.offset
    rw [List.length_append, Nat.add_sub_cancel]
  have hmin : min (1 + audio.length) (header :: (audio ++ tail)).length = 1 + audio.length := by
    rw [hlen]
    omega
  have hbody : slice (header :: (audio ++ tail)) 1 (header :: (audio ++ tail)).length
      = .ok (audio ++ tail) := slice_from (by rw [hlen]; omega)
  unfold parse
  rw [List.head?_cons]
  dsimp only
  rw [hcodec]
  dsimp only
  rw [hbody, ok_bind, hread]
  dsimp only
  rw [hframes, ok_bind]
  dsimp only
  rw [hoffset, hmin]
  by_cases hp : codec = .ping
  · rw [if_pos hp, hping hp]
    rfl
  · have htail : slice (header :: (audio ++ tail)) (1 + audio.length)
        (header :: (audio ++ tail)).length = .ok tail := by
      rw [slice_from (by rw [hlen]; omega), Nat.add_comm 1, List.drop_succ_cons, List.drop_left]
    rw [if_neg hp, htail, ok_bind, hposition hp]
    rfl

/-- The first part of `parse`: the header byte, the session and the frames. -/
theorem parse_none {header : UInt8} {body : List UInt8} {codec : VoicePacketType}
    (hcodec : VoicePacketType.fromBits (header >>> 5) = some codec)
    (h : PdsReader.readU64 body = none ∨
      ∃ w r, PdsReader.readU64 body = some (w, r) ∧ audioFrames codec r = .ok none) :
    parse (header :: body) = .ok none := by
  have hbody : slice (header :: body) 1 (header :: body).length = .ok body :=
    slice_from (Nat.le_add_left _ _)
  unfold parse
  rw [List.head?_cons]
  dsimp only
  rw [hcodec]
  dsimp only
  rw [hbody, ok_bind]
  rcases h with hread | ⟨w, r, hread, hframes⟩
  · rw [hread]
    rfl
  · rw [hread]
    dsimp only
    rw [hframes]
    rfl

/-- Every datagram is read to an answer, and a packet has the layout of one. -/
theorem parse_spec (payload : List UInt8) :
    parse payload = .ok none ∨ ∃ v header audio tail, parse payload = .ok (some v) ∧
      v.payload = payload ∧ Layout v header audio tail := by
  cases payload with
  | nil => exact .inl rfl
  | cons header body =>
      cases hcodec : VoicePacketType.fromBits (header >>> 5) with
      | none =>
          left
          unfold parse
          rw [List.head?_cons]
          dsimp only
          rw [hcodec]
          rfl
      | some codec =>
          cases hread : PdsReader.readU64 body with
          | none => exact .inl (parse_none hcodec (.inl hread))
          | some p =>
              obtain ⟨w, r⟩ := p
              obtain ⟨o, hframes⟩ := audioFrames_ends codec r
              cases o with
              | none => exact .inl (parse_none hcodec (.inr ⟨w, r, hread, hframes⟩))
              | some tail =>
                  right
                  obtain ⟨session, -, rfl, hsession⟩ := PdsReader.readU64_spec body w r hread
                  obtain ⟨used, rfl, hused⟩ := audioFrames_spec codec r tail hframes
                  obtain ⟨o, hposition⟩ := decodePosition_ok tail
                  rw [← List.append_assoc] at hread ⊢
                  have hplaced : codec ≠ .ping → decodePosition tail
                      = .ok (if codec = .ping then none else o) := by
                    intro hp
                    rw [if_neg hp]
                    exact hposition
                  have hparse := parse_of_frames hcodec hread hframes (fun hp => if_pos hp) hplaced
                  refine ⟨_, header, session ++ used, tail, hparse, rfl, ?_⟩
                  refine ⟨rfl, hcodec, rfl, rfl, ?_, fun hp => if_pos hp, hplaced⟩
                  intro more
                  rw [List.append_assoc]
                  exact ⟨w, used ++ more, hsession _, hused more⟩

theorem layout_of_parse {payload : List UInt8} {v : VoicePacket}
    (h : parse payload = .ok (some v)) :
    v.payload = payload ∧ ∃ header audio tail, Layout v header audio tail := by
  rcases parse_spec payload with hnone | ⟨v', header, audio, tail, hparse, hpayload, hl⟩
  · rw [hnone] at h
    cases h
  · rw [hparse] at h
    cases h
    exact ⟨hpayload, header, audio, tail, hl⟩

namespace Layout

variable {v : VoicePacket} {header : UInt8} {audio tail : List UInt8}

theorem audioEnd_le (hl : Layout v header audio tail) : v.audioEnd ≤ v.payload.length := by
  rw [hl.audioEnd, hl.payload, List.length_cons, List.length_append]
  omega

/-- Up to the end of the audio. -/
theorem take_audioEnd (hl : Layout v header audio tail) :
    v.payload.take v.audioEnd = header :: audio := by
  rw [hl.audioEnd, hl.payload, Nat.add_comm, List.take_succ_cons, List.take_left]

theorem withoutPosition (hl : Layout v header audio tail) :
    v.withoutPosition = .ok (header :: audio) := by
  unfold VoicePacket.withoutPosition
  rw [slice_eq (Nat.zero_le _) hl.audioEnd_le, List.drop_zero, Nat.sub_zero, hl.take_audioEnd]

theorem withRewrittenPosition (hl : Layout v header audio tail) (pos : Position) :
    v.withRewrittenPosition pos
      = .ok (header :: (audio ++ VoicePacket.positionBytes pos)) := by
  have h := hl.withoutPosition
  unfold VoicePacket.withoutPosition at h
  unfold VoicePacket.withRewrittenPosition
  rw [h]
  rfl

/-- The tail exchanged for another one, in a packet that is not a ping. -/
theorem parse_exchanged (hl : Layout v header audio tail) (hping : v.codec ≠ .ping)
    {more : List UInt8} {position : Option Position} (h : decodePosition more = .ok position) :
    parse (header :: (audio ++ more)) = .ok (some
      { codec := v.codec, target := v.target, payload := header :: (audio ++ more)
        audioEnd := v.audioEnd, position }) := by
  obtain ⟨w, r, hread, hframes⟩ := hl.frames more
  rw [parse_of_frames hl.codec hread hframes (fun hp => absurd hp hping) (fun _ => h),
    hl.target, hl.audioEnd]

/-- A datagram that is alike to the end of the audio is a packet with the same audio. -/
theorem parse_same_audio (hl : Layout v header audio tail) (more : List UInt8) :
    ∃ v', parse (header :: (audio ++ more)) = .ok (some v') ∧ Layout v' header audio more ∧
      v'.target = v.target := by
  obtain ⟨w, r, hread, hframes⟩ := hl.frames more
  obtain ⟨o, ho⟩ := decodePosition_ok more
  have hposition : v.codec ≠ .ping →
      decodePosition more = .ok (if v.codec = .ping then none else o) := by
    intro hp
    rw [if_neg hp, ho]
  exact ⟨_, parse_of_frames hl.codec hread hframes (fun hp => if_pos hp) hposition,
    ⟨rfl, hl.codec, rfl, rfl, hl.frames, fun hp => if_pos hp, hposition⟩, hl.target.symm⟩

theorem encodeOutbound (hl : Layout v header audio tail) (session : UInt64)
    (withPosition : Bool) :
    encodeOutbound session v withPosition = .ok (header :: (writeU64 session ++
      if withPosition then v.payload.drop 1 else (v.payload.take v.audioEnd).drop 1)) := by
  have hle := hl.audioEnd_le
  have hpos : 1 ≤ v.audioEnd := by
    rw [hl.audioEnd]
    omega
  have hheader : index v.payload 0 = .ok header := by
    rw [hl.payload]
    rfl
  unfold Voice.encodeOutbound
  cases withPosition with
  | true =>
      rw [if_pos rfl, slice_from (by omega), ok_bind, hheader]
      rfl
  | false =>
      rw [if_neg Bool.false_ne_true, Nat.min_eq_left hle, slice_eq hpos hle, ok_bind, hheader,
        List.drop_take]
      rfl

end Layout

/-- **A voice packet is written again as it was read.**  Parsing ends, without reading out of
bounds, and the audio ends within the payload.  A packet with another position is read as the same
packet with that position.  What a recipient is sent is the header byte, the speaker's session, and
the rest of the payload, to the end or to the end of the audio. -/
theorem voice_rewriting :
    (∀ payload, ∃ o, parse payload = .ok o ∧
      ∀ v, o = some v → v.payload = payload ∧ v.audioEnd ≤ v.payload.length)
    ∧ (∀ payload v pos, parse payload = .ok (some v) → v.codec ≠ .ping →
        ∃ out v' audio, v.withRewrittenPosition pos = .ok out ∧ parse out = .ok (some v') ∧
          v'.position = some pos ∧ v'.codec = v.codec ∧ v'.target = v.target ∧
          v.withoutPosition = .ok audio ∧ v'.withoutPosition = .ok audio)
    ∧ ∀ payload v session withPosition, parse payload = .ok (some v) →
        ∃ header rest, encodeOutbound session v withPosition = .ok (header :: rest) ∧
          v.payload.head? = some header ∧
          PdsReader.readU64 rest = some (session,
            if withPosition then v.payload.drop 1 else (v.payload.take v.audioEnd).drop 1) := by
  refine ⟨?_, ?_, ?_⟩
  · intro payload
    rcases parse_spec payload with hnone | ⟨v, header, audio, tail, hparse, hpayload, hl⟩
    · exact ⟨none, hnone, fun v hv => nomatch hv⟩
    · refine ⟨some v, hparse, ?_⟩
      intro v' hv'
      cases hv'
      exact ⟨hpayload, hl.audioEnd_le⟩
  · intro payload v pos hparse hping
    obtain ⟨-, header, audio, tail, hl⟩ := layout_of_parse hparse
    have hagain := hl.parse_exchanged hping (decodePosition_positionBytes pos)
    obtain ⟨-, header', audio', tail', hl'⟩ := layout_of_parse hagain
    have hsame : header' :: audio' = header :: audio := by
      rw [← hl'.take_audioEnd]
      show (header :: (audio ++ VoicePacket.positionBytes pos)).take v.audioEnd = header :: audio
      rw [hl.audioEnd, Nat.add_comm, List.take_succ_cons, List.take_left]
    exact ⟨_, _, header :: audio, hl.withRewrittenPosition pos, hagain, rfl, rfl, rfl,
      hl.withoutPosition, hsame ▸ hl'.withoutPosition⟩
  · intro payload v session withPosition hparse
    obtain ⟨-, header, audio, tail, hl⟩ := layout_of_parse hparse
    refine ⟨header, _, hl.encodeOutbound session withPosition, ?_,
      PdsReader.readU64_writeU64 session _⟩
    rw [hl.payload]
    rfl

/-- A whispered Opus frame of two bytes: it is given a position, and sent on for session 300. -/
theorem whisper_rewritten :
    let v : VoicePacket :=
      { codec := .opus, target := .whisper 3, payload := [0x83, 0x01, 0x02, 0xAA, 0xBB]
        audioEnd := 5, position := none }
    (∃ out v' audio, v.withRewrittenPosition (1, 2, 3) = .ok out ∧ parse out = .ok (some v') ∧
      v'.position = some (1, 2, 3) ∧ v'.codec = v.codec ∧ v'.target = v.target ∧
      v.withoutPosition = .ok audio ∧ v'.withoutPosition = .ok audio)
    ∧ ∃ header rest, encodeOutbound 300 v false = .ok (header :: rest) ∧
        v.payload.head? = some header ∧
        PdsReader.readU64 rest = some (300, [0x01, 0x02, 0xAA, 0xBB]) := by
  intro v
  have hparse : parse v.payload = .ok (some v) := rfl
  obtain ⟨-, hrewrite, hsend⟩ := voice_rewriting
  exact ⟨hrewrite v.payload v (1, 2, 3) hparse (by decide), hsend v.payload v 300 false hparse⟩

end Baston.Voice
