/-
What a parsed ticket says was signed.

Every offset is below the length it is used against, so parsing ends in an answer.  A ticket is
accepted exactly when it is `Accepted`, and what it is read to say is read off the bytes under
the second signature.  A ticket laid out by `buildTicket` is read back, as long as the length of
its extra data fits its field.
-/
import Baston.Gateway.Ticket
import Baston.Proofs.Downlink
import Mathlib.Tactic.SplitIfs

namespace Baston.Gateway

open Checked Baston.Rage

variable {Public Private : Type} {prims : Primitives Public Private}

/-! ### Bytes by their place -/

/-- `data[start..stop]`. -/
def between (data : List UInt8) (start stop : Nat) : List UInt8 :=
  (data.drop start).take (stop - start)

def u32At (data : List UInt8) (offset : Nat) : UInt32 :=
  u32FromLe (between data offset (offset + 4))

def u64At (data : List UInt8) (offset : Nat) : UInt64 :=
  u64FromLe (between data offset (offset + 8))

theorem length_between {data : List UInt8} {start stop : Nat} (h : start ≤ stop)
    (hstop : stop ≤ data.length) : (between data start stop).length = stop - start := by
  unfold between
  rw [List.length_take, List.length_drop]
  omega

theorem slice_between {data : List UInt8} {start stop : Nat} (h : start ≤ stop)
    (hstop : stop ≤ data.length) : slice data start stop = .ok (between data start stop) :=
  slice_eq h hstop

/-- A part of a part is a part. -/
theorem between_between {data : List UInt8} {start stop a b : Nat} (hb : start + b ≤ stop) :
    between (between data start stop) a b = between data (start + a) (start + b) := by
  unfold between
  rw [List.drop_take, List.take_take, List.drop_drop]
  congr 1
  omega

theorem drop_between {data : List UInt8} {start stop a : Nat} :
    (between data start stop).drop a = between data (start + a) stop := by
  unfold between
  rw [List.drop_take, List.drop_drop, Nat.sub_add_eq]

theorem toArray_eq {n : Nat} {bytes : List UInt8} (h : bytes.length = n) :
    toArray n bytes = .ok ⟨bytes, h⟩ := dif_pos h

theorem readU32_eq {data : List UInt8} {offset : Nat} (h : offset + 4 ≤ data.length)
    (hword : offset + 4 < words) : readU32 data offset = .ok (u32At data offset) := by
  have hlen : (between data offset (offset + 4)).length = 4 := by
    rw [length_between (Nat.le_add_right _ _) h, Nat.add_sub_cancel_left]
  unfold readU32
  rw [add_eq hword, ok_bind, slice_between (Nat.le_add_right _ _) h, ok_bind, toArray_eq hlen]
  rfl

theorem readU64_eq {data : List UInt8} {offset : Nat} (h : offset + 8 ≤ data.length)
    (hword : offset + 8 < words) : readU64 data offset = .ok (u64At data offset) := by
  have hlen : (between data offset (offset + 8)).length = 8 := by
    rw [length_between (Nat.le_add_right _ _) h, Nat.add_sub_cancel_left]
  unfold readU64
  rw [add_eq hword, ok_bind, slice_between (Nat.le_add_right _ _) h, ok_bind, toArray_eq hlen]
  rfl

/-! ### What a ticket says -/

/-- The entitlement hash in the extra data. -/
def hashOf (extra : List UInt8) : Option (Bytes 20) :=
  if h : 20 ≤ extra.length then some ⟨between extra 0 20, by rw [length_between (by omega) h]⟩
  else none

/-- The text in the extra data. -/
def jsonOf (extra : List UInt8) : Option (List Char) :=
  let jsonLen := (u32At extra 20).toNat
  if 24 + jsonLen ≤ extra.length then some (fromUtf8Lossy (between extra 24 (24 + jsonLen)))
  else none

theorem readHash_eq (extra : List UInt8) : readHash extra = .ok (hashOf extra) := by
  unfold readHash hashOf
  split_ifs with h
  · rw [slice_between (Nat.zero_le _) h, ok_bind, toArray_eq (by rw [length_between (by omega) h])]
    rfl
  · rfl

theorem readJson_eq (extra : List UInt8) : readJson extra = .ok (jsonOf extra) := by
  have hbound := (u32At extra 20).toNat_lt
  unfold readJson jsonOf
  by_cases h : 24 ≤ extra.length
  · rw [if_pos h, readU32_eq h (by unfold words; omega), ok_bind]
    dsimp only
    rw [add_eq (by unfold words; omega), ok_bind]
    by_cases hjson : 24 + (u32At extra 20).toNat ≤ extra.length
    · rw [if_pos hjson, if_pos hjson, slice_between (Nat.le_add_right _ _) hjson]
      rfl
    · rw [if_neg hjson, if_neg hjson]
      rfl
  · rw [if_neg h, if_neg (by omega)]
    rfl

/-- The length of the extra data. -/
def extraLen (data : List UInt8) : Nat := (u32At data 152).toNat

/-- The bytes that the second signature covers. -/
def signedBytes (data : List UInt8) : List UInt8 := between data 4 (156 + extraLen data)

/-- What a ticket says, from the bytes that are signed. -/
def ticketOf (signed : List UInt8) : TicketData where
  guid := u64At signed 0
  expiryUnixSecs := u64At signed 8
  entitlementHash := hashOf (signed.drop 152)
  extraJson := jsonOf (signed.drop 152)

/-- A ticket that is good. -/
structure Accepted (prims : Primitives Public Private) (pubkey : Public) (guid now : UInt64)
    (data : List UInt8) : Prop where
  long : 288 + extraLen data ≤ data.length
  innerLength : u32At data 0 = 16
  sig1Length : u32At data 20 = 128
  sig2Length : u32At data (156 + extraLen data) = 128
  sig1 : verifySig prims pubkey (between data 4 20) (between data 24 152) = true
  sig2 : verifySig prims pubkey (signedBytes data)
    (between data (160 + extraLen data) (288 + extraLen data)) = true
  unexpired : now ≤ u64At data 12
  guid : u64At data 4 = guid

/-! ### Parsing -/

theorem extraLen_lt (data : List UInt8) : extraLen data < 4294967296 := (u32At data 152).toNat_lt

theorem toNat_ne {v : UInt32} {n : Nat} (hn : n < 2 ^ 32) :
    v.toNat ≠ n ↔ v ≠ UInt32.ofNat n := by
  rw [ne_eq, ne_eq, ← UInt32.toNat_inj, UInt32.toNat_ofNat_of_lt' hn]

/-- **Parsing of the second block** ends in this answer. -/
theorem parseExtended_eq {pubkey : Public} {data : List UInt8} {guid expiry : UInt64}
    (h : 156 ≤ data.length) : parseExtended prims pubkey data guid expiry = (
      if data.length < 288 + extraLen data then
        .ok (.error (.malformedTicket "truncated extra block"))
      else if u32At data (156 + extraLen data) ≠ 128 then
        .ok (.error (.malformedTicket "invalid signature #2 length"))
      else if ¬ verifySig prims pubkey (signedBytes data)
        (between data (160 + extraLen data) (288 + extraLen data)) then
          .ok (.error .invalidSignature)
      else .ok (.ok {
        guid, expiryUnixSecs := expiry
        entitlementHash := hashOf (between data 156 (156 + extraLen data))
        extraJson := jsonOf (between data 156 (156 + extraLen data)) })) := by
  have hbound := extraLen_lt data
  unfold parseExtended
  rw [show BASE_LENGTH = 152 from rfl, readU32_eq h (by unfold words; omega), ok_bind,
    add_eq (by unfold words; omega), ok_bind]
  show (add 156 (extraLen data) >>= _) = _
  rw [add_eq (by unfold words; omega), ok_bind, add_eq (by unfold words; omega), ok_bind,
    show SIG_LENGTH = 128 from rfl, add_eq (by unfold words; omega), ok_bind,
    show 156 + extraLen data + 4 + 128 = 288 + extraLen data by omega,
    show 156 + extraLen data + 4 = 160 + extraLen data by omega]
  by_cases hlong : data.length < 288 + extraLen data
  · rw [if_pos hlong, if_pos hlong]
    rfl
  rw [if_neg hlong, if_neg hlong, readU32_eq (by omega) (by unfold words; omega), ok_bind]
  by_cases hlen : u32At data (156 + extraLen data) = 128
  case neg =>
    rw [if_pos ((toNat_ne (by decide)).mpr hlen), if_pos hlen]
    rfl
  rw [if_neg (mt (toNat_ne (by decide)).mp (not_not.mpr hlen)), if_neg (not_not.mpr hlen),
    slice_between (by omega) (by omega), ok_bind, slice_between (by omega) (by omega), ok_bind]
  by_cases hsig : verifySig prims pubkey (signedBytes data)
      (between data (160 + extraLen data) (288 + extraLen data)) = true
  · rw [if_neg (not_not.mpr hsig)]
    refine (if_neg (not_not.mpr hsig)).trans ?_
    rw [slice_between (by omega) (by omega), ok_bind, readHash_eq, ok_bind, readJson_eq]
    rfl
  · rw [if_pos hsig]
    exact if_pos hsig

/-- **Parsing** ends in this answer. -/
theorem parseAndVerify_eq {ticketB64 : List Char} {guid now : UInt64} {pubkey : Public}
    {data : List UInt8} (hdata : prims.decode (trim ticketB64) = some data) :
    parseAndVerify prims ticketB64 guid pubkey now = (
      if data.length < 156 then .ok (.error (.malformedTicket "ticket too short"))
      else if u32At data 0 ≠ 16 then .ok (.error (.malformedTicket "invalid inner length"))
      else if u64At data 12 < now then .ok (.error .ticketExpired)
      else if u64At data 4 ≠ guid then .ok (.error .guidMismatch)
      else if u32At data 20 ≠ 128 then
        .ok (.error (.malformedTicket "invalid signature #1 length"))
      else if ¬ verifySig prims pubkey (between data 4 20) (between data 24 152) then
        .ok (.error .invalidSignature)
      else parseExtended prims pubkey data (u64At data 4) (u64At data 12)) := by
  unfold parseAndVerify
  rw [hdata]
  dsimp only
  rw [show BASE_LENGTH + 4 = 156 from rfl, show INNER_LENGTH = 16 from rfl,
    show SIG_LENGTH = 128 from rfl]
  by_cases hlong : data.length < 156
  · rw [if_pos hlong, if_pos hlong]
    rfl
  rw [if_neg hlong, if_neg hlong, readU32_eq (by omega) (by decide), ok_bind]
  by_cases hinner : u32At data 0 = 16
  case neg =>
    rw [if_pos ((toNat_ne (by decide)).mpr hinner), if_pos hinner]
    rfl
  rw [if_neg (mt (toNat_ne (by decide)).mp (not_not.mpr hinner)), if_neg (not_not.mpr hinner),
    readU64_eq (by omega) (by decide), ok_bind, readU64_eq (by omega) (by decide), ok_bind]
  by_cases hexpiry : u64At data 12 < now
  · rw [if_pos hexpiry, if_pos hexpiry]
    rfl
  rw [if_neg hexpiry, if_neg hexpiry]
  by_cases hguid : u64At data 4 = guid
  case neg =>
    rw [if_pos hguid, if_pos hguid]
    rfl
  rw [if_neg (not_not.mpr hguid), if_neg (not_not.mpr hguid),
    readU32_eq (by omega) (by decide), ok_bind]
  by_cases hlen : u32At data 20 = 128
  case neg =>
    rw [if_pos ((toNat_ne (by decide)).mpr hlen), if_pos hlen]
    rfl
  rw [if_neg (mt (toNat_ne (by decide)).mp (not_not.mpr hlen)), if_neg (not_not.mpr hlen),
    slice_between (by omega) (by omega), ok_bind, slice_between (by omega) (by omega), ok_bind]
  rfl

/-- A check that is passed. -/
theorem check_ok {α : Type} {c : Prop} [Decidable c] {e : AuthError}
    {x : Checked (Except AuthError α)} {a : α} :
    (if c then .ok (.error e) else x) = .ok (.ok a) ↔ ¬ c ∧ x = .ok (.ok a) := by
  by_cases h : c
  · rw [if_pos h]
    exact iff_of_false (fun heq => by cases heq) fun hno => hno.1 h
  · rw [if_neg h]
    exact (and_iff_right h).symm

/-- A check does not break. -/
theorem check_total {α : Type} {c : Prop} [Decidable c] {e : AuthError}
    {x : Checked (Except AuthError α)} (h : ¬ c → ∃ r, x = .ok r) :
    ∃ r, (if c then .ok (.error e) else x) = .ok r := by
  by_cases hc : c
  · exact ⟨_, if_pos hc⟩
  · rw [if_neg hc]
    exact h hc

/-- Parsing never breaks. -/
theorem parseAndVerify_total (prims : Primitives Public Private) (ticketB64 : List Char)
    (guid now : UInt64) (pubkey : Public) :
    ∃ r, parseAndVerify prims ticketB64 guid pubkey now = .ok r := by
  cases hdata : prims.decode (trim ticketB64) with
  | none =>
      unfold parseAndVerify
      rw [hdata]
      exact ⟨_, rfl⟩
  | some data =>
      rw [parseAndVerify_eq hdata]
      refine check_total fun hlong => ?_
      rw [parseExtended_eq (by omega)]
      refine check_total fun _ => check_total fun _ => check_total fun _ => ?_
      refine check_total fun _ => check_total fun _ => check_total fun _ => ?_
      exact check_total fun _ => check_total fun _ => ⟨_, rfl⟩

/-- What is read of an accepted ticket is read off what is signed. -/
theorem ticketOf_signedBytes {data : List UInt8} : ticketOf (signedBytes data) =
    { guid := u64At data 4, expiryUnixSecs := u64At data 12
      entitlementHash := hashOf (between data 156 (156 + extraLen data))
      extraJson := jsonOf (between data 156 (156 + extraLen data)) } := by
  unfold ticketOf signedBytes u64At
  rw [drop_between, between_between (by omega), between_between (by omega)]

theorem parseAndVerify_ok_iff {ticketB64 : List Char} {guid now : UInt64} {pubkey : Public}
    {data : List UInt8} (hdata : prims.decode (trim ticketB64) = some data) (t : TicketData) :
    parseAndVerify prims ticketB64 guid pubkey now = .ok (.ok t)
      ↔ Accepted prims pubkey guid now data ∧ t = ticketOf (signedBytes data) := by
  rw [parseAndVerify_eq hdata, ticketOf_signedBytes]
  constructor
  · intro h
    obtain ⟨hlong, h⟩ := check_ok.mp h
    rw [parseExtended_eq (by omega)] at h
    obtain ⟨hinner, h⟩ := check_ok.mp h
    obtain ⟨hexpiry, h⟩ := check_ok.mp h
    obtain ⟨hguid, h⟩ := check_ok.mp h
    obtain ⟨hlen1, h⟩ := check_ok.mp h
    obtain ⟨hsig1, h⟩ := check_ok.mp h
    obtain ⟨hlong2, h⟩ := check_ok.mp h
    obtain ⟨hlen2, h⟩ := check_ok.mp h
    obtain ⟨hsig2, h⟩ := check_ok.mp h
    exact ⟨⟨by omega, not_not.mp hinner, not_not.mp hlen1, not_not.mp hlen2, not_not.mp hsig1,
      not_not.mp hsig2, UInt64.not_lt.mp hexpiry, not_not.mp hguid⟩,
      (Except.ok.inj (Except.ok.inj h)).symm⟩
  · rintro ⟨h, rfl⟩
    have hlong := h.long
    rw [if_neg (by omega), if_neg (not_not.mpr h.innerLength),
      if_neg (UInt64.not_lt.mpr h.unexpired), if_neg (not_not.mpr h.guid),
      if_neg (not_not.mpr h.sig1Length), if_neg (not_not.mpr h.sig1),
      parseExtended_eq (by omega), if_neg (by omega), if_neg (not_not.mpr h.sig2Length),
      if_neg (not_not.mpr h.sig2)]

/-! ### Text that is read back -/

theorem lossyChars_append (skip : List UInt8) (rest : List UInt8) :
    lossyChars skip.length (skip ++ rest) = lossyChars 0 rest := by
  induction skip with
  | nil => rfl
  | cons b skip ih => exact ih

/-- A character is read back. -/
theorem lossyChars_encode (c : Char) (rest : List UInt8) :
    lossyChars 0 (String.utf8EncodeChar c ++ rest) = c :: lossyChars 0 rest := by
  have hlen := String.length_utf8EncodeChar c
  have hpos := c.utf8Size_pos
  cases hbytes : String.utf8EncodeChar c with
  | nil =>
      rw [hbytes] at hlen
      exact absurd hlen (by simp only [List.length_nil]; omega)
  | cons first more =>
      rw [hbytes, List.length_cons] at hlen
      have hdecode : (first :: (more ++ rest)).toByteArray.utf8DecodeChar? 0 = some c := by
        rw [← List.cons_append, ← hbytes, List.toByteArray_append]
        exact ByteArray.utf8DecodeChar?_utf8EncodeChar_append
      rw [List.cons_append, lossyChars, hdecode]
      show c :: lossyChars (c.utf8Size - 1) (more ++ rest) = _
      rw [← hlen, Nat.add_sub_cancel, lossyChars_append]

theorem fromUtf8Lossy_utf8 (text : List Char) : fromUtf8Lossy (utf8 text) = text := by
  induction text with
  | nil => rfl
  | cons c rest ih =>
      unfold fromUtf8Lossy utf8 at *
      rw [List.flatMap_cons, lossyChars_encode, ih]

theorem trim_eq {text : List Char} (h : ∀ c ∈ text, isWhitespace c = false) : trim text = text := by
  have hdrop : ∀ l : List Char, (∀ c ∈ l, isWhitespace c = false) →
      l.dropWhile isWhitespace = l := by
    intro l hl
    cases l with
    | nil => rfl
    | cons c rest => rw [List.dropWhile_cons, hl c List.mem_cons_self]; rfl
  unfold trim
  rw [hdrop text h, hdrop _ fun c hc => h c (List.mem_reverse.mp hc), List.reverse_reverse]

/-! ### A ticket that is read back -/

/-- A key pair that signs and verifies, and a base64 that is read back. -/
structure Sound (prims : Primitives Public Private) (pubkey : Public) (key : Private) : Prop where
  decode : ∀ data, prims.decode (prims.encode data) = some data
  plain : ∀ data, ∀ c ∈ prims.encode data, isWhitespace c = false
  length : ∀ digest, (prims.sign key digest).length = 128
  verify : ∀ digest, prims.verify pubkey digest (prims.sign key digest) = true

/-- A part by its place. -/
theorem between_of_eq {data a b c : List UInt8} (h : data = a ++ b ++ c) {start stop : Nat}
    (hstart : start = a.length) (hstop : stop = start + b.length) :
    between data start stop = b := by
  subst hstart hstop h
  unfold between
  rw [List.append_assoc, List.drop_left, Nat.add_sub_cancel_left, List.take_left]

theorem asU32_toNat {n : Nat} (h : n < 2 ^ 32) : (asU32 n).toNat = n :=
  UInt32.toNat_ofNat_of_lt' h

section Build

variable {pubkey : Public} {key : Private} {guid expiry : UInt64} {entitlementHash : Bytes 20}
  {extraJson : List Char}

theorem length_buildExtra :
    (buildExtra entitlementHash extraJson).length = 24 + (utf8 extraJson).length := by
  unfold buildExtra
  rw [List.length_append, List.length_append, entitlementHash.2, length_leBytes]

theorem hashOf_buildExtra :
    hashOf (buildExtra entitlementHash extraJson) = some entitlementHash := by
  have hhash : between (buildExtra entitlementHash extraJson) 0 20 = entitlementHash.1 :=
    between_of_eq (a := []) (List.append_assoc _ _ _) rfl
      ((Nat.zero_add _).trans entitlementHash.2).symm
  unfold hashOf
  rw [dif_pos (by rw [length_buildExtra]; omega)]
  exact congrArg some (Subtype.ext hhash)

theorem jsonOf_buildExtra (h : (utf8 extraJson).length < 2 ^ 32) :
    jsonOf (buildExtra entitlementHash extraJson) = some extraJson := by
  have hlen : between (buildExtra entitlementHash extraJson) 20 (20 + 4)
      = leBytes 4 (asU32 (utf8 extraJson).length).toNat :=
    between_of_eq rfl entitlementHash.2.symm (by rw [length_leBytes])
  have htext : between (buildExtra entitlementHash extraJson) 24 (24 + (utf8 extraJson).length)
      = utf8 extraJson :=
    between_of_eq (c := []) (List.append_nil _).symm
      (by rw [List.length_append, entitlementHash.2, length_leBytes]) rfl
  unfold jsonOf u32At
  rw [hlen, u32FromLe_leBytes, asU32_toNat h, if_pos (by rw [length_buildExtra]), htext,
    fromUtf8Lossy_utf8]

end Build

/-- The parts of a ticket, each in its place. -/
structure Laid (data : List UInt8) (guid expiry : UInt64) (sig1 extra sig2 : List UInt8) :
    Prop where
  length : data.length = 288 + extra.length
  innerLength : u32At data 0 = 16
  inner : between data 4 20 = leBytes 8 guid.toNat ++ leBytes 8 expiry.toNat
  guidAt : u64At data 4 = guid
  expiryAt : u64At data 12 = expiry
  sig1Length : u32At data 20 = asU32 sig1.length
  sig1At : between data 24 152 = sig1
  extraLength : u32At data 152 = asU32 extra.length
  extraAt : between data 156 (156 + extra.length) = extra
  signed : between data 4 (156 + extra.length) = leBytes 8 guid.toNat ++ leBytes 8 expiry.toNat
    ++ leBytes 4 (asU32 sig1.length).toNat ++ sig1 ++ leBytes 4 (asU32 extra.length).toNat ++ extra
  sig2Length : u32At data (156 + extra.length) = asU32 sig2.length
  sig2At : between data (160 + extra.length) (288 + extra.length) = sig2

/-- Nine parts one after the other. -/
theorem laid {guid expiry : UInt64} {sig1 extra sig2 : List UInt8} (h1 : sig1.length = 128)
    (h2 : sig2.length = 128) :
    Laid (leBytes 4 (asU32 INNER_LENGTH).toNat ++ (leBytes 8 guid.toNat ++ leBytes 8 expiry.toNat
        ++ leBytes 4 (asU32 sig1.length).toNat ++ sig1
        ++ leBytes 4 (asU32 extra.length).toNat ++ extra)
      ++ leBytes 4 (asU32 sig2.length).toNat ++ sig2) guid expiry sig1 extra sig2 := by
  have p4 : (leBytes 4 (asU32 INNER_LENGTH).toNat).length = 4 := length_leBytes _ _
  have g8 : (leBytes 8 guid.toNat).length = 8 := length_leBytes _ _
  have e8 : (leBytes 8 expiry.toNat).length = 8 := length_leBytes _ _
  have l4 : (leBytes 4 (asU32 sig1.length).toNat).length = 4 := length_leBytes _ _
  have m4 : (leBytes 4 (asU32 extra.length).toNat).length = 4 := length_leBytes _ _
  have n4 : (leBytes 4 (asU32 sig2.length).toNat).length = 4 := length_leBytes _ _
  have p := u32FromLe_leBytes (asU32 INNER_LENGTH)
  have g := u64FromLe_leBytes guid
  have e := u64FromLe_leBytes expiry
  have l := u32FromLe_leBytes (asU32 sig1.length)
  have m := u32FromLe_leBytes (asU32 extra.length)
  have n := u32FromLe_leBytes (asU32 sig2.length)
  generalize leBytes 4 (asU32 INNER_LENGTH).toNat = head at p4 p ⊢
  generalize hgs : leBytes 8 guid.toNat = gs at g8 g ⊢
  generalize hes : leBytes 8 expiry.toNat = es at e8 e ⊢
  generalize hls : leBytes 4 (asU32 sig1.length).toNat = ls at l4 l ⊢
  generalize hms : leBytes 4 (asU32 extra.length).toNat = ms at m4 m ⊢
  generalize leBytes 4 (asU32 sig2.length).toNat = ns at n4 n ⊢
  have hlen : ∀ a b : List UInt8, (a ++ b).length = a.length + b.length :=
    fun a b => List.length_append
  refine ⟨?_, (congrArg u32FromLe ?_).trans p, ?_, (congrArg u64FromLe ?_).trans g,
    (congrArg u64FromLe ?_).trans e, (congrArg u32FromLe ?_).trans l, ?_,
    (congrArg u32FromLe ?_).trans m, ?_, ?_, (congrArg u32FromLe ?_).trans n, ?_⟩
  · simp only [hlen]
    omega
  · refine between_of_eq (a := []) (c := gs ++ es ++ ls ++ sig1 ++ ms ++ extra ++ ns ++ sig2)
      (by simp only [List.append_assoc, List.nil_append]) rfl (by omega)
  · rw [hgs, hes]
    refine between_of_eq (a := head) (c := ls ++ sig1 ++ ms ++ extra ++ ns ++ sig2)
      (by simp only [List.append_assoc]) p4.symm (by rw [hlen]; omega)
  · refine between_of_eq (a := head) (c := es ++ ls ++ sig1 ++ ms ++ extra ++ ns ++ sig2)
      (by simp only [List.append_assoc]) p4.symm (by omega)
  · refine between_of_eq (a := head ++ gs) (c := ls ++ sig1 ++ ms ++ extra ++ ns ++ sig2)
      (by simp only [List.append_assoc]) (by rw [hlen]; omega) (by omega)
  · refine between_of_eq (a := head ++ gs ++ es) (c := sig1 ++ ms ++ extra ++ ns ++ sig2)
      (by simp only [List.append_assoc]) (by rw [hlen, hlen]; omega) (by omega)
  · refine between_of_eq (a := head ++ gs ++ es ++ ls) (c := ms ++ extra ++ ns ++ sig2)
      (by simp only [List.append_assoc]) (by rw [hlen, hlen, hlen]; omega) (by omega)
  · refine between_of_eq (a := head ++ gs ++ es ++ ls ++ sig1) (c := extra ++ ns ++ sig2)
      (by simp only [List.append_assoc]) (by rw [hlen, hlen, hlen, hlen]; omega) (by omega)
  · refine between_of_eq (a := head ++ gs ++ es ++ ls ++ sig1 ++ ms) (c := ns ++ sig2)
      (by simp only [List.append_assoc]) (by rw [hlen, hlen, hlen, hlen, hlen]; omega) rfl
  · rw [hgs, hes, hls, hms]
    refine between_of_eq (a := head) (c := ns ++ sig2)
      (by simp only [List.append_assoc]) p4.symm (by rw [hlen, hlen, hlen, hlen, hlen]; omega)
  · refine between_of_eq (a := head ++ gs ++ es ++ ls ++ sig1 ++ ms ++ extra) (c := sig2)
      (by simp only [List.append_assoc]) (by rw [hlen, hlen, hlen, hlen, hlen, hlen]; omega)
      (by omega)
  · refine between_of_eq (a := head ++ gs ++ es ++ ls ++ sig1 ++ ms ++ extra ++ ns) (c := [])
      (by simp only [List.append_assoc, List.append_nil])
      (by rw [hlen, hlen, hlen, hlen, hlen, hlen, hlen]; omega) (by omega)

section RoundTrip

variable {pubkey : Public} {key : Private} (guid expiry : UInt64) (entitlementHash : Bytes 20)
  (extraJson : List Char)

/-- A ticket is laid out with the signatures that its parts have. -/
theorem laid_buildData (h : Sound prims pubkey key) : ∃ sig1 sig2,
    Laid (buildData prims key guid expiry entitlementHash extraJson) guid expiry sig1
        (buildExtra entitlementHash extraJson) sig2
      ∧ sig1.length = 128 ∧ sig2.length = 128
      ∧ verifySig prims pubkey (leBytes 8 guid.toNat ++ leBytes 8 expiry.toNat) sig1 = true
      ∧ verifySig prims pubkey (leBytes 8 guid.toNat ++ leBytes 8 expiry.toNat
        ++ leBytes 4 (asU32 sig1.length).toNat ++ sig1
        ++ leBytes 4 (asU32 (buildExtra entitlementHash extraJson).length).toNat
        ++ buildExtra entitlementHash extraJson) sig2 = true :=
  ⟨_, _, laid (h.length _) (h.length _), h.length _, h.length _, h.verify _, h.verify _⟩

/-- **A ticket is read back**, if the length of its extra data fits. -/
theorem parse_buildTicket (h : Sound prims pubkey key)
    (hfits : (buildExtra entitlementHash extraJson).length < 2 ^ 32) {now : UInt64}
    (hnow : now ≤ expiry) :
    parseAndVerify prims (buildTicket prims key guid expiry entitlementHash extraJson) guid pubkey
        now = .ok (.ok { guid, expiryUnixSecs := expiry, entitlementHash := some entitlementHash
                         extraJson := some extraJson }) := by
  obtain ⟨sig1, sig2, hlaid, h1, h2, hsig1, hsig2⟩ :=
    laid_buildData guid expiry entitlementHash extraJson h
  have hdecode : prims.decode (trim (buildTicket prims key guid expiry entitlementHash extraJson))
      = some (buildData prims key guid expiry entitlementHash extraJson) := by
    unfold buildTicket
    rw [trim_eq (h.plain _), h.decode]
  generalize buildData prims key guid expiry entitlementHash extraJson = data at hlaid hdecode
  have hextra : extraLen data = (buildExtra entitlementHash extraJson).length := by
    unfold extraLen
    rw [hlaid.extraLength, asU32_toNat hfits]
  rw [parseAndVerify_ok_iff hdecode]
  refine ⟨⟨?_, hlaid.innerLength, ?_, ?_, ?_, ?_, ?_, hlaid.guidAt⟩, ?_⟩
  · rw [hextra]
    exact hlaid.length.ge
  · rw [hlaid.sig1Length, h1]
    rfl
  · rw [hextra, hlaid.sig2Length, h2]
    rfl
  · rw [hlaid.inner, hlaid.sig1At]
    exact hsig1
  · unfold signedBytes
    rw [hextra, hlaid.signed, hlaid.sig2At]
    exact hsig2
  · rw [hlaid.expiryAt]
    exact hnow
  · have hjson : (utf8 extraJson).length < 2 ^ 32 := by
      rw [length_buildExtra] at hfits
      omega
    rw [ticketOf_signedBytes, hextra, hlaid.guidAt, hlaid.expiryAt, hlaid.extraAt,
      hashOf_buildExtra, jsonOf_buildExtra hjson]

/-- **A ticket whose extra data is too long** is not: where the second signature is looked for,
there is something else. -/
theorem parse_wrapped (h : Sound prims pubkey key)
    (hwraps : (buildExtra entitlementHash extraJson).length = 2 ^ 32)
    (hhash : u32FromLe (entitlementHash.1.take 4) ≠ 128) {now : UInt64} (t : TicketData) :
    parseAndVerify prims (buildTicket prims key guid expiry entitlementHash extraJson) guid pubkey
        now ≠ .ok (.ok t) := by
  obtain ⟨sig1, sig2, hlaid, -, -, -, -⟩ :=
    laid_buildData guid expiry entitlementHash extraJson h
  have hdecode : prims.decode (trim (buildTicket prims key guid expiry entitlementHash extraJson))
      = some (buildData prims key guid expiry entitlementHash extraJson) := by
    unfold buildTicket
    rw [trim_eq (h.plain _), h.decode]
  generalize buildData prims key guid expiry entitlementHash extraJson = data at hlaid hdecode
  intro hparse
  have haccepted := ((parseAndVerify_ok_iff hdecode t).mp hparse).1
  have hextra : extraLen data = 0 := by
    unfold extraLen
    rw [hlaid.extraLength, hwraps]
    rfl
  have hlen := haccepted.sig2Length
  rw [hextra, u32At] at hlen
  refine hhash (Eq.trans (congrArg u32FromLe ?_) hlen)
  calc entitlementHash.1.take 4
      = between (buildExtra entitlementHash extraJson) 0 4 := by
        unfold buildExtra between
        rw [List.drop_zero, List.append_assoc, List.take_append_of_le_length]
        rw [entitlementHash.2]
        omega
    _ = between (between data 156 (156 + (buildExtra entitlementHash extraJson).length)) 0 4 := by
        rw [hlaid.extraAt]
    _ = between data (156 + 0) (156 + 0 + 4) := by
        rw [between_between (by omega)]

end RoundTrip

/-- **Parsing is total, and answers only with what is signed.**  It always ends; it accepts
exactly the tickets that are `Accepted`, and reads them off the bytes under the second signature;
and a ticket that is laid out with a good key is read back, if the length of its extra data fits
its field. -/
theorem ticket_parsing (prims : Primitives Public Private) (pubkey : Public) :
    (∀ ticketB64 guid now, ∃ r, parseAndVerify prims ticketB64 guid pubkey now = .ok r)
      ∧ (∀ ticketB64 guid now t, parseAndVerify prims ticketB64 guid pubkey now = .ok (.ok t)
        ↔ ∃ data, prims.decode (trim ticketB64) = some data
          ∧ Accepted prims pubkey guid now data ∧ t = ticketOf (signedBytes data))
      ∧ ∀ key, Sound prims pubkey key → ∀ guid expiry entitlementHash extraJson now,
        24 + (utf8 extraJson).length < 2 ^ 32 → now ≤ expiry →
          parseAndVerify prims (buildTicket prims key guid expiry entitlementHash extraJson) guid
            pubkey now = .ok (.ok { guid, expiryUnixSecs := expiry
                                    entitlementHash := some entitlementHash
                                    extraJson := some extraJson }) := by
  refine ⟨fun ticketB64 guid now => parseAndVerify_total prims ticketB64 guid now pubkey, ?_, ?_⟩
  · intro ticketB64 guid now t
    constructor
    · intro h
      cases hdata : prims.decode (trim ticketB64) with
      | none =>
          unfold parseAndVerify at h
          rw [hdata] at h
          cases h
      | some data =>
          exact ⟨data, rfl, (parseAndVerify_ok_iff hdata t).mp h⟩
    · rintro ⟨data, hdata, h⟩
      exact (parseAndVerify_ok_iff hdata t).mpr h
  · intro key hsound guid expiry entitlementHash extraJson now hfits hnow
    exact parse_buildTicket guid expiry entitlementHash extraJson hsound
      (by rw [length_buildExtra]; exact hfits) hnow

/-! ### A text that is too long -/

/-- A digest in the length of a signature. -/
def padded (digest : List UInt8) : List UInt8 := (digest ++ List.replicate 128 0).take 128

/-- One character for every byte. -/
def byteOf (c : Char) : Option UInt8 :=
  if 256 ≤ c.toNat ∧ c.toNat < 512 then some (UInt8.ofNat (c.toNat - 256)) else none

/-- A key whose signature of a digest is the digest. -/
def spelled : Primitives Unit Unit where
  decode text := text.mapM byteOf
  encode data := data.map fun b => Char.ofNat (256 + b.toNat)
  sha1 payload := (List.range 20).map fun i =>
    payload.foldl (fun acc b => 31 * acc + b) (UInt8.ofNat i)
  verify _ digest sig := sig = padded digest
  sign _ digest := padded digest

theorem toNat_ofNat_byte (b : UInt8) : (Char.ofNat (256 + b.toNat)).toNat = 256 + b.toNat := by
  have hb := b.toNat_lt
  have hvalid : (256 + b.toNat).isValidChar := .inl (by omega)
  rw [Char.ofNat, dif_pos hvalid]
  rfl

theorem spelled_sound : Sound spelled () () := by
  refine ⟨?_, ?_, ?_, ?_⟩
  · intro data
    induction data with
    | nil => rfl
    | cons b rest ih =>
        have hb := b.toNat_lt
        have hback : UInt8.ofNat (256 + b.toNat - 256) = b := by
          rw [Nat.add_sub_cancel_left, UInt8.ofNat_toNat]
        have hbyte : byteOf (Char.ofNat (256 + b.toNat)) = some b := by
          unfold byteOf
          rw [toNat_ofNat_byte, if_pos (by omega), hback]
        show (Char.ofNat (256 + b.toNat) :: spelled.encode rest).mapM byteOf = _
        rw [List.mapM_cons, hbyte, show (spelled.encode rest).mapM byteOf = some rest from ih]
        rfl
  · intro data c hc
    obtain ⟨b, -, rfl⟩ := List.mem_map.mp hc
    have hb := b.toNat_lt
    unfold isWhitespace
    rw [toNat_ofNat_byte]
    simp
    omega
  · intro digest
    show (padded digest).length = 128
    unfold padded
    rw [List.length_take, List.length_append, List.length_replicate]
    omega
  · intro digest
    exact decide_eq_true rfl

theorem sample_parsed : parseAndVerify spelled
    (buildTicket spelled () 42 100 ⟨List.replicate 20 0xAB, rfl⟩ ['{', '}']) 42 () 99
      = .ok (.ok ⟨42, 100, some ⟨List.replicate 20 0xAB, rfl⟩, some ['{', '}']⟩) :=
  (ticket_parsing spelled ()).2.2 () spelled_sound 42 100 _ ['{', '}'] 99 (by decide) (by decide)

theorem length_utf8_replicate (n : Nat) : (utf8 (List.replicate n 'a')).length = n := by
  induction n with
  | zero => rfl
  | succ n ih =>
      unfold utf8 at *
      rw [List.replicate_succ, List.flatMap_cons, List.length_append, ih]
      exact Nat.add_comm 1 n

/-- **A text of four gigabytes** makes a ticket that is not read back. -/
theorem long_text_not_parsed : ¬ ∀ (guid expiry now : UInt64) (entitlementHash : Bytes 20)
    (extraJson : List Char), now ≤ expiry →
      parseAndVerify spelled (buildTicket spelled () guid expiry entitlementHash extraJson) guid ()
        now = .ok (.ok { guid, expiryUnixSecs := expiry, entitlementHash := some entitlementHash
                         extraJson := some extraJson }) := by
  intro h
  refine parse_wrapped 42 100 ⟨List.replicate 20 0, rfl⟩ (List.replicate (2 ^ 32 - 24) 'a')
    spelled_sound ?_ (by decide) _ (h 42 100 99 _ _ (by decide))
  rw [length_buildExtra, length_utf8_replicate]
  norm_num

end Baston.Gateway
