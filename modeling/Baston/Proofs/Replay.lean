/-
No voice packet is taken twice, and which ones are turned away.

Numbering the packets from the initial nonce, the sender's counter is the number sent
so far and the receiver's counter is the highest number accepted so far.  A delivery is
accepted as packet `a` only if `a` lies ahead of the receiver's counter, where nothing
was accepted yet, or fewer than thirty behind it, where the history still holds what was
accepted: two packets with one low byte are 256 apart.  So nothing is accepted twice.

The same table turns away packets that were never accepted.  A slot starts at zero, and
keeps the last packet with its low byte for good, so a late packet, or one ahead, whose
second byte happens to stand there is refused as a repeat.
-/
import Baston.Proofs.Nonces
import Baston.Proofs.Ocb2
import Baston.Voice.Crypto

namespace Baston.Voice

open Trace CryptState

/-- One call of a run and what it did. -/
abbrev LinkEntry := Entry Link LinkOp (Option (List UInt8))

/-- The call was a delivery that was accepted under this nonce. -/
def Accepted (x : LinkEntry) (nonce : Block) : Prop :=
  ∃ source r, x.op = .deliver source ∧ x.answer.isSome
    ∧ x.pre.receiver.candidate (source.getD 0 0) = some r ∧ r.iv = nonce

variable {cipher : Cipher}

/-! ### One call -/

theorem encrypt_eq {w w' : Link} {plain : List UInt8} {a : Option (List UInt8)}
    (h : Link.step cipher (.encrypt plain) w = some (w', a)) :
    w'.receiver = w.receiver ∧ w'.sender.encryptIv = next w.sender.encryptIv
      ∧ w'.sent = w.sent ++ [⟨next w.sender.encryptIv, plain⟩] := by
  obtain ⟨rfl, -⟩ := Prod.mk.inj (Option.some.inj h)
  exact ⟨rfl, rfl, rfl⟩

/-- A delivery leaves everything as it is, or it is a packet that was sent and is accepted under
its own nonce. -/
theorem deliver_cases {w w' : Link} {source : List UInt8} {a : Option (List UInt8)}
    (h : Link.step cipher (.deliver source) w = some (w', a)) :
    (a = none ∧ w' = w)
      ∨ ∃ r e, w.receiver.candidate (source.getD 0 0) = some r ∧ e ∈ w.sent ∧ e.nonce = r.iv
        ∧ e.packet cipher = source ∧ a = some e.plain
        ∧ w' = { w with receiver := w.receiver.accept r } := by
  simp only [Link.step, decryptWith_eq] at h
  by_cases hshort : source.length < 4
  · rw [if_pos hshort] at h
    obtain ⟨rfl, rfl⟩ := Prod.mk.inj (Option.some.inj h)
    exact .inl ⟨rfl, rfl⟩
  · rw [if_neg hshort] at h
    cases hr : w.receiver.candidate (source.getD 0 0) with
    | none =>
        rw [hr] at h
        obtain ⟨rfl, rfl⟩ := Prod.mk.inj (Option.some.inj h)
        exact .inl ⟨rfl, rfl⟩
    | some r =>
        rw [hr] at h
        cases he : w.sent.find? fun e => e.nonce = r.iv ∧ e.packet cipher = source with
        | none =>
            simp only [openSent, he, Option.map_none] at h
            obtain ⟨rfl, rfl⟩ := Prod.mk.inj (Option.some.inj h)
            exact .inl ⟨rfl, rfl⟩
        | some e =>
            simp only [openSent, he, Option.map_some] at h
            obtain ⟨rfl, rfl⟩ := Prod.mk.inj (Option.some.inj h)
            obtain ⟨hiv, hpacket⟩ : e.nonce = r.iv ∧ e.packet cipher = source := by
              simpa using List.find?_some he
            exact .inr ⟨r, e, rfl, List.mem_of_find?_eq_some he, hiv, hpacket, rfl, rfl⟩

/-! ### The code's own cipher -/

/-- OCB2 opens its own packets, under their nonce. -/
theorem opened_packet (ocb : Ocb2) (e : Sent) :
    ocb.opened e.nonce (e.packet ocb.cipher) = some e.plain := by
  have htag : ((ocb.ocbEncrypt e.plain e.nonce).2.bytes.take 3).length = 3 := by
    rw [List.length_take, Block.size]
    rfl
  have hcipher : (e.packet ocb.cipher).drop 4 = (ocb.ocbEncrypt e.plain e.nonce).1 :=
    List.drop_left' htag
  have hcheck : ((e.packet ocb.cipher).drop 1).take 3
      = (ocb.ocbEncrypt e.plain e.nonce).2.bytes.take 3 := List.take_left' htag
  simp only [Ocb2.opened, hcipher, hcheck, ocb.ocbDecrypt_ocbEncrypt, ne_eq, not_true, if_false]

/-- **What the ideal cipher lets through, the code accepts**: the same packet, with the same
payload, and the receiver is left in the same state. -/
theorem decrypt_of_ideal {s s' : CryptState} {sent : List Sent} {source plain : List UInt8}
    (h : s.decryptWith (openSent s.ocb.cipher sent) source = (s', some plain)) :
    s.decrypt source = (s', some plain) := by
  unfold decrypt
  rw [decryptWith_eq] at h ⊢
  by_cases hshort : source.length < 4
  · rw [if_pos hshort] at h
    exact absurd (congrArg Prod.snd h) (by simp)
  · rw [if_neg hshort] at h ⊢
    cases hr : s.candidate (source.getD 0 0) with
    | none =>
        rw [hr] at h
        exact absurd (congrArg Prod.snd h) (by simp)
    | some r =>
        cases he : sent.find? fun e => e.nonce = r.iv ∧ e.packet s.ocb.cipher = source with
        | none =>
            simp only [hr, openSent, he, Option.map_none] at h
            exact absurd (congrArg Prod.snd h) (by simp)
        | some e =>
            obtain ⟨hnonce, hpacket⟩ : e.nonce = r.iv ∧ e.packet s.ocb.cipher = source := by
              simpa using List.find?_some he
            have hopen := opened_packet s.ocb e
            rw [hnonce, hpacket] at hopen
            simp only [hr, openSent, he, Option.map_some] at h
            simp only [hopen]
            exact h

/-! ### The packets' numbers -/

/-- Where a run has got to: the receiver's counter stands `j` packets past the initial nonce. -/
structure Tracked (n₀ : Nat) (tr : List LinkEntry) (w : Link) (j : Nat) : Prop where
  reached : j ≤ w.sent.length
  stands : w.receiver.decryptIv.value = (n₀ + j) % 2 ^ 128
  sender : w.sender.encryptIv.value = (n₀ + w.sent.length) % 2 ^ 128
  nonces : ∀ {i e}, w.sent[i]? = some e → e.nonce.value = (n₀ + (i + 1)) % 2 ^ 128
  /-- What was accepted is behind the counter, and the history holds it for as long as it could be
  accepted again. -/
  accepted : ∀ x ∈ tr, ∀ n, Accepted x n → ∃ a, 0 < a ∧ a ≤ j ∧ n.value = (n₀ + a) % 2 ^ 128
    ∧ (j < a + 30 → w.receiver.inHistory n)
  /-- The counter stands at a packet that was accepted. -/
  top : 0 < j → ∃ x ∈ tr, Accepted x w.receiver.decryptIv
  once : tr.Pairwise fun later earlier => ∀ n, Accepted later n → ¬ Accepted earlier n

variable {n₀ j : Nat} {tr : List LinkEntry} {w : Link}

/-- A refused delivery accepts nothing. -/
theorem not_accepted_of_none {x : LinkEntry} {n : Block} (h : x.answer = none) : ¬ Accepted x n := by
  rintro ⟨source, r, -, hsome, -⟩
  rw [h] at hsome
  exact absurd hsome (by decide)

theorem not_accepted_encrypt {x : LinkEntry} {n : Block} {plain : List UInt8}
    (h : x.op = .encrypt plain) : ¬ Accepted x n := by
  rintro ⟨source, r, hop, -⟩
  exact absurd (h.symm.trans hop) (by simp)

/-- An entry that accepts nothing leaves the bookkeeping of a run as it is. -/
theorem Tracked.quiet {w' : Link} {x : LinkEntry} (ok : Tracked n₀ tr w j)
    (hx : ∀ n, ¬ Accepted x n) (hreceiver : w'.receiver = w.receiver)
    (hreached : j ≤ w'.sent.length)
    (hsender : w'.sender.encryptIv.value = (n₀ + w'.sent.length) % 2 ^ 128)
    (hnonces : ∀ {i e}, w'.sent[i]? = some e → e.nonce.value = (n₀ + (i + 1)) % 2 ^ 128) :
    Tracked n₀ (x :: tr) w' j where
  reached := hreached
  stands := by rw [hreceiver, ok.stands]
  sender := hsender
  nonces := hnonces
  accepted := by
    intro y hy n hn
    rcases List.mem_cons.mp hy with rfl | hy
    · exact absurd hn (hx n)
    · rw [hreceiver]
      exact ok.accepted y hy n hn
  top := by
    intro hj
    obtain ⟨y, hy, hacc⟩ := ok.top hj
    exact ⟨y, List.mem_cons_of_mem _ hy, hreceiver ▸ hacc⟩
  once := List.pairwise_cons.mpr ⟨fun _ _ n hn => absurd hn (hx n), ok.once⟩

/-- The number of a packet that was sent and is rebuilt at a distance from the counter. -/
theorem Tracked.number {r : Rebuilt} {d : Int} (ok : Tracked n₀ tr w j)
    (hwrap : w.sent.length + 128 ≤ 2 ^ 128) {i : Nat} {e : Sent} (hi : w.sent[i]? = some e)
    (he : e.nonce = r.iv) (hpast : Past w.receiver.decryptIv d r)
    (hd : (-30 < d ∧ d < 0) ∨ (0 < d ∧ d ≤ 128)) : ((i + 1 : Nat) : Int) = j + d := by
  have hlt : i < w.sent.length := (List.getElem?_eq_some_iff.mp hi).1
  have hvalue := ok.nonces hi
  have hreached := ok.reached
  have hstands := ok.stands
  unfold Past at hpast
  rw [he] at hvalue
  omega

/-- **One accepted delivery**: its packet is new, and the bookkeeping goes on with it. -/
theorem Tracked.accept {r : Rebuilt} {e : Sent} {x : LinkEntry} (ok : Tracked n₀ tr w j)
    (hwrap : w.sent.length + 128 ≤ 2 ^ 128) (he : e ∈ w.sent) (hiv : e.nonce = r.iv) {b : UInt8}
    (hr : w.receiver.candidate b = some r) (hx : ∀ n, Accepted x n ↔ n = r.iv) :
    ∃ j', Tracked n₀ (x :: tr) { w with receiver := w.receiver.accept r } j' := by
  obtain ⟨i, hi⟩ := List.mem_iff_getElem?.mp he
  have hlt : i < w.sent.length := (List.getElem?_eq_some_iff.mp hi).1
  obtain ⟨d, hpast, hside⟩ := candidate_past hr
  have hnumber := ok.number hwrap hi hiv hpast (by omega)
  have hvalue : r.iv.value = (n₀ + (i + 1)) % 2 ^ 128 := hiv ▸ ok.nonces hi
  have hreached := ok.reached
  -- Where the counter stands afterwards.
  obtain ⟨j', hj', hle, hstands⟩ : ∃ j', (j' = max j (i + 1)) ∧ j' ≤ w.sent.length
      ∧ (w.receiver.accept r).decryptIv.value = (n₀ + j') % 2 ^ 128 := by
    refine ⟨max j (i + 1), rfl, by omega, ?_⟩
    rcases hside with ⟨hrestore, hahead⟩ | ⟨hrestore, hbehind⟩
    · rw [show max j (i + 1) = i + 1 by omega, ← hvalue]
      simp only [CryptState.accept, hrestore, Bool.false_eq_true, if_false]
    · rw [show max j (i + 1) = j by omega, ← ok.stands]
      simp only [CryptState.accept, hrestore, if_true]
  refine ⟨j', hle, hstands, ok.sender, ok.nonces, ?_, ?_, ?_⟩
  · intro y hy n hn
    rcases List.mem_cons.mp hy with rfl | hy
    · obtain rfl := (hx n).mp hn
      refine ⟨i + 1, by omega, by omega, hvalue, fun _ => ?_⟩
      simp only [inHistory, CryptState.accept, Function.update_self]
    · obtain ⟨a, hpos, hbehind, han, hheld⟩ := ok.accepted y hy n hn
      refine ⟨a, hpos, by omega, han, fun hnear => ?_⟩
      by_cases hslot : n.get 0 = r.iv.get 0
      · -- One slot for both: 256 apart or the same packet.
        have hn0 := n.low_eq
        have hr0 := r.iv.low_eq
        rw [hslot] at hn0
        have hsame : a = i + 1 := by omega
        have hnr : n = r.iv := Block.value_inj (by rw [han, hvalue, hsame])
        rw [hnr]
        simp only [inHistory, CryptState.accept, Function.update_self]
      · have hold := hheld (by omega)
        simp only [inHistory, CryptState.accept] at hold ⊢
        rw [Function.update_of_ne hslot]
        exact hold
  · intro _
    rcases hside with ⟨hrestore, hahead⟩ | ⟨hrestore, hbehind⟩
    · refine ⟨x, List.mem_cons_self, (hx _).mpr ?_⟩
      simp only [CryptState.accept, hrestore, Bool.false_eq_true, if_false]
    · obtain ⟨y, hy, hacc⟩ := ok.top (by omega)
      refine ⟨y, List.mem_cons_of_mem _ hy, ?_⟩
      simpa only [CryptState.accept, hrestore, if_true] using hacc
  · refine List.pairwise_cons.mpr ⟨fun y hy n hn hagain => ?_, ok.once⟩
    obtain rfl := (hx n).mp hn
    obtain ⟨a, hpos, hbehind, han, hheld⟩ := ok.accepted y hy _ hagain
    have hsame : a = i + 1 := by omega
    rcases hside with ⟨hrestore, hahead⟩ | ⟨hrestore, hlow, hneg, hnot⟩
    · omega
    · exact hnot (hheld (by omega))

/-! ### Whole runs -/

variable {sender receiver : CryptState}

/-- The bookkeeping goes through every run in which no counter comes round. -/
theorem tracked (hiv : sender.encryptIv = receiver.decryptIv) :
    ∀ {tr : List LinkEntry} {w : Link}, Run (Link.step cipher) (Link.start sender receiver) tr w →
      w.sent.length + 128 ≤ 2 ^ 128 → ∃ j, Tracked receiver.decryptIv.value tr w j := by
  intro tr w run
  induction run with
  | nil =>
      intro _
      have hlt := receiver.decryptIv.value_lt
      refine ⟨0, Nat.le_refl 0, ?_, ?_, ?_, ?_, ?_, .nil⟩
      · exact (Nat.mod_eq_of_lt hlt).symm
      · exact hiv ▸ (Nat.mod_eq_of_lt hlt).symm
      · intro i e hi
        exact absurd hi (by simp [Link.start])
      · intro x hx
        exact absurd hx (by simp)
      · intro hj
        exact absurd hj (by decide)
  | @snoc past w w' op a run h ih =>
      cases op with
      | encrypt plain =>
          obtain ⟨hreceiver, hsender, hsent⟩ := encrypt_eq h
          intro hwrap
          have hlen : w'.sent.length = w.sent.length + 1 := by
            rw [hsent, List.length_append, List.length_singleton]
          obtain ⟨j, ok⟩ := ih (by omega)
          have hcounter := ok.sender
          have hnext := value_next w.sender.encryptIv
          refine ⟨j, ok.quiet (fun _ => not_accepted_encrypt rfl) hreceiver ?_ ?_ ?_⟩
          · have := ok.reached
            omega
          · rw [hsender, hlen]
            omega
          · intro i e hi
            rw [hsent] at hi
            rcases Nat.lt_or_ge i w.sent.length with hlt | hge
            · rw [List.getElem?_append_left hlt] at hi
              exact ok.nonces hi
            · rw [List.getElem?_append_right hge] at hi
              have hi0 : i = w.sent.length := by
                have := (List.getElem?_eq_some_iff.mp hi).1
                rw [List.length_singleton] at this
                omega
              rw [hi0, Nat.sub_self] at hi
              obtain rfl := Option.some.inj hi
              simp only
              omega
      | deliver source =>
          intro hwrap
          rcases deliver_cases h with ⟨rfl, rfl⟩ | ⟨r, e, hr, he, hnonce, -, rfl, rfl⟩
          · obtain ⟨j, ok⟩ := ih hwrap
            exact ⟨j, ok.quiet (fun _ => not_accepted_of_none rfl) rfl ok.reached ok.sender
              ok.nonces⟩
          · obtain ⟨j, ok⟩ := ih hwrap
            refine ok.accept hwrap he hnonce hr ?_
            intro n
            constructor
            · rintro ⟨source', r', hop, -, hr', rfl⟩
              obtain rfl := LinkOp.deliver.inj hop
              rw [Option.some.inj (hr.symm.trans hr')]
            · rintro rfl
              exact ⟨source, r, rfl, rfl, hr, rfl⟩

/-- A nonce names one packet. -/
theorem Tracked.index_unique (ok : Tracked n₀ tr w j) (hwrap : w.sent.length + 128 ≤ 2 ^ 128)
    {a b : Nat} {e e' : Sent} (ha : w.sent[a]? = some e) (hb : w.sent[b]? = some e')
    (h : e.nonce = e'.nonce) : a = b := by
  have hlta : a < w.sent.length := (List.getElem?_eq_some_iff.mp ha).1
  have hltb : b < w.sent.length := (List.getElem?_eq_some_iff.mp hb).1
  have hva := ok.nonces ha
  have hvb := ok.nonces hb
  rw [h] at hva
  omega

theorem Tracked.nodup (ok : Tracked n₀ tr w j) (hwrap : w.sent.length + 128 ≤ 2 ^ 128) :
    (w.sent.map Sent.nonce).Nodup := by
  unfold List.Nodup
  rw [List.pairwise_map, List.pairwise_iff_getElem]
  intro a b ha hb hab heq
  exact absurd (ok.index_unique hwrap (List.getElem?_eq_getElem ha) (List.getElem?_eq_getElem hb) heq)
    (Nat.ne_of_lt hab)

/-- The packet that opens under the nonce of one that was sent is that one. -/
theorem Tracked.openSent_packet (ok : Tracked n₀ tr w j) (hwrap : w.sent.length + 128 ≤ 2 ^ 128)
    {e : Sent} (he : e ∈ w.sent) : openSent cipher w.sent e.nonce (e.packet cipher) = some e.plain := by
  unfold openSent
  cases hfind : w.sent.find? fun e' => e'.nonce = e.nonce ∧ e'.packet cipher = e.packet cipher with
  | none =>
      exact absurd (List.find?_eq_none.mp hfind e he) (by simp)
  | some e' =>
      have hsame : e'.nonce = e.nonce ∧ e'.packet cipher = e.packet cipher := by
        simpa using List.find?_some hfind
      obtain ⟨a, ha⟩ := List.mem_iff_getElem?.mp (List.mem_of_find?_eq_some hfind)
      obtain ⟨b, hb⟩ := List.mem_iff_getElem?.mp he
      obtain rfl := ok.index_unique hwrap ha hb hsame.1
      obtain rfl := Option.some.inj (ha.symm.trans hb)
      rfl

/-- A packet that is refused leaves the receiver as it was, whatever the cipher. -/
theorem decryptWith_none {openBody : Block → List UInt8 → Option (List UInt8)} {s : CryptState}
    {source : List UInt8} (h : (s.decryptWith openBody source).2 = none) :
    (s.decryptWith openBody source).1 = s := by
  rw [decryptWith_eq] at h ⊢
  by_cases hshort : source.length < 4
  · rw [if_pos hshort]
  · rw [if_neg hshort] at h ⊢
    cases hr : s.candidate (source.getD 0 0) with
    | none => rfl
    | some r =>
        simp only [hr] at h ⊢
        cases ho : openBody r.iv source with
        | none => rfl
        | some plain =>
            rw [ho] at h
            exact absurd h (by simp)

/-- **No packet is taken twice, and a refusal changes nothing.**  In every run of `encrypt` calls
and deliveries, of any bytes and in any order, in which no counter comes round: no two deliveries
are accepted under one nonce; every nonce names one packet that was sent; what is accepted is that
packet, unchanged, and yields its plaintext.  And a `decrypt` that returns `None`, with any cipher
and in any state, leaves the state as it was. -/
theorem never_replayed (hiv : sender.encryptIv = receiver.decryptIv) {tr : List LinkEntry} {w : Link}
    (run : Run (Link.step cipher) (Link.start sender receiver) tr w)
    (hwrap : w.sent.length + 128 ≤ 2 ^ 128) :
    (tr.Pairwise fun later earlier => ∀ n, Accepted later n → ¬ Accepted earlier n)
      ∧ (w.sent.map Sent.nonce).Nodup
      ∧ (∀ x ∈ tr, ∀ source plain, x.op = .deliver source → x.answer = some plain →
        ∃ e ∈ x.pre.sent, Accepted x e.nonce ∧ source = e.packet cipher ∧ plain = e.plain)
      ∧ ∀ (openBody : Block → List UInt8 → Option (List UInt8)) (s : CryptState)
        (source : List UInt8), (s.decryptWith openBody source).2 = none →
          (s.decryptWith openBody source).1 = s := by
  obtain ⟨j, ok⟩ := tracked hiv run hwrap
  refine ⟨ok.once, ok.nodup hwrap, ?_, fun _ _ _ => decryptWith_none⟩
  intro x hx source plain hop hplain
  obtain ⟨before, after, rfl⟩ := List.append_of_mem hx
  obtain ⟨mid, hpast, -⟩ := run.split
  cases hpast with
  | snoc _ h =>
      simp only at hop hplain
      subst hop hplain
      rcases deliver_cases h with ⟨hnone, -⟩ | ⟨r, e, hr, he, hnonce, hpacket, hsome, -⟩
      · exact absurd hnone (by simp)
      · refine ⟨e, he, ⟨source, r, rfl, rfl, hr, hnonce.symm⟩, hpacket.symm, ?_⟩
        exact Option.some.inj hsome

/-- A cipher that leaves the payload readable, with a tag of zeros. -/
def plainCipher : Cipher := ⟨fun _ plain => [0, 0, 0] ++ plain, fun _ _ => by simp⟩

/-- The key schedule of the examples. -/
def plainKey : Ocb2 := ⟨Equiv.refl Block⟩

/-- Both peers of a session whose nonces are zero. -/
def zeroSender : CryptState := .new plainKey Block.zero Block.zero

def zeroReceiver : CryptState := .new plainKey Block.zero Block.zero

/-- The first packet, delivered twice around the second. -/
def repeated : List LinkOp :=
  [.encrypt [7], .encrypt [8], .deliver [1, 0, 0, 0, 7], .deliver [2, 0, 0, 0, 8],
    .deliver [1, 0, 0, 0, 7]]

/-- Both packets arrive; the repeat is not accepted. -/
theorem repeat_not_accepted :
    ∃ (tr : List LinkEntry) (w : Link),
      Run (Link.step plainCipher) (Link.start zeroSender zeroReceiver) tr w
        ∧ tr.map Entry.answer
          = [none, some [8], some [7], some [2, 0, 0, 0, 8], some [1, 0, 0, 0, 7]]
        ∧ (tr.Pairwise fun later earlier => ∀ n, Accepted later n → ¬ Accepted earlier n)
        ∧ (w.sent.map Sent.nonce).Nodup
        ∧ (∀ x ∈ tr, ∀ source plain, x.op = .deliver source → x.answer = some plain →
          ∃ e ∈ x.pre.sent, Accepted x e.nonce ∧ source = e.packet plainCipher ∧ plain = e.plain)
        ∧ ∀ (openBody : Block → List UInt8 → Option (List UInt8)) (s : CryptState)
          (source : List UInt8), (s.decryptWith openBody source).2 = none →
            (s.decryptWith openBody source).1 = s := by
  have run := run_of_ops (Link.step plainCipher) (Link.start zeroSender zeroReceiver) repeated rfl
  exact ⟨_, _, run, by decide +kernel, never_replayed rfl run (by decide +kernel)⟩

/-! ### The packets that are turned away -/

/-- How far counter `b` is ahead of counter `a`. -/
def ahead (a b : Block) : Nat := (b.value + 2 ^ 128 - a.value) % 2 ^ 128

/-- A nonce at most 127 ahead of the counter, or fewer than 30 behind it. -/
def InWindow (iv n : Block) : Prop := ahead iv n ≤ 127 ∨ ahead n iv < 30

instance (iv n : Block) : Decidable (InWindow iv n) := inferInstanceAs (Decidable (_ ∨ _))

/-- The distance of a nonce in the window. -/
theorem exists_distance {iv n : Block} (h : InWindow iv n) (hne : n ≠ iv) :
    ∃ d : Int, (n.value : Int) = ((iv.value : Int) + d) % 2 ^ 128
      ∧ ((-30 < d ∧ d < 0) ∨ (0 < d ∧ d < 128)) := by
  have hn := n.value_lt
  have hi := iv.value_lt
  have hvalue : n.value ≠ iv.value := fun heq => hne (Block.value_inj heq)
  unfold InWindow ahead at h
  rcases h with hahead | hbehind
  · refine ⟨((n.value + 2 ^ 128 - iv.value) % 2 ^ 128 : Nat), ?_, .inr ⟨?_, ?_⟩⟩ <;> omega
  · refine ⟨-((iv.value + 2 ^ 128 - n.value) % 2 ^ 128 : Nat), ?_, .inl ⟨?_, ?_⟩⟩ <;> omega

/-- **Which genuine packets are accepted.**  In every state reached, a packet that was sent, was
not accepted before and lies in the window is accepted with its plaintext exactly if it is the
next one in order, or the history's slot for its low byte does not hold its second byte. -/
theorem accepted_iff (hiv : sender.encryptIv = receiver.decryptIv) {tr : List LinkEntry} {w : Link}
    (run : Run (Link.step cipher) (Link.start sender receiver) tr w)
    (hwrap : w.sent.length + 128 ≤ 2 ^ 128) {e : Sent} (he : e ∈ w.sent)
    (hnew : ∀ x ∈ tr, ¬ Accepted x e.nonce) (hwindow : InWindow w.receiver.decryptIv e.nonce) :
    (w.receiver.decryptWith (openSent cipher w.sent) (e.packet cipher)).2 = some e.plain
      ↔ next w.receiver.decryptIv = e.nonce
        ∨ w.receiver.decryptHistory (e.nonce.get 0) ≠ e.nonce.get 1 := by
  obtain ⟨j, ok⟩ := tracked hiv run hwrap
  obtain ⟨i, hi⟩ := List.mem_iff_getElem?.mp he
  have hlt : i < w.sent.length := (List.getElem?_eq_some_iff.mp hi).1
  have hvalue := ok.nonces hi
  have hstands := ok.stands
  -- The counter itself stands at the initial nonce or at a packet that was accepted.
  have hne : e.nonce ≠ w.receiver.decryptIv := by
    intro heq
    rcases Nat.eq_zero_or_pos j with rfl | hj
    · rw [heq] at hvalue
      omega
    · obtain ⟨x, hx, hacc⟩ := ok.top hj
      exact hnew x hx (heq ▸ hacc)
  obtain ⟨d, hd, hside⟩ := exists_distance hwindow hne
  have hcandidate := candidate_of_past hd hside
  have hone : d = 1 ↔ next w.receiver.decryptIv = e.nonce := by
    have hnext := value_next w.receiver.decryptIv
    constructor
    · intro h1
      apply Block.value_inj
      omega
    · intro h1
      rw [h1] at hnext
      omega
  have hlong : ¬ (e.packet cipher).length < 4 := by
    have := cipher.tagged e.nonce e.plain
    simp only [Sent.packet, List.length_cons]
    omega
  have hbyte : (e.packet cipher).getD 0 0 = e.nonce.get 0 := rfl
  rw [decryptWith_eq, if_neg hlong, hbyte, ← hone]
  by_cases hok : d = 1 ∨ ¬ w.receiver.inHistory e.nonce
  · rw [if_pos hok] at hcandidate
    obtain ⟨r, hr, hriv⟩ := Option.map_eq_some_iff.mp hcandidate
    simp only [hr, hriv, ok.openSent_packet hwrap he]
    exact ⟨fun _ => hok, fun _ => trivial⟩
  · rw [if_neg hok, Option.map_eq_none_iff] at hcandidate
    simp only [hcandidate]
    exact ⟨fun hnone => absurd hnone (by simp), fun h => absurd h hok⟩

/-- The calls that only send. -/
def LinkOp.sends : LinkOp → Bool
  | .encrypt _ => true
  | .deliver _ => false

/-- Where nothing was delivered, nothing was accepted. -/
theorem not_accepted_of_sends {tr : List LinkEntry} (h : tr.all (fun x => x.op.sends) = true)
    (n : Block) : ∀ x ∈ tr, ¬ Accepted x n := by
  intro x hx
  have hsends := List.all_eq_true.mp h x hx
  cases hop : x.op with
  | encrypt plain => exact not_accepted_encrypt hop
  | deliver source =>
      rw [hop] at hsends
      exact absurd hsends (by simp [LinkOp.sends])

/-- Two packets are sent; the first one is lost. -/
def firstLost : List LinkOp := [.encrypt [7], .encrypt [8]]

/-- The second packet is in the window and was never accepted, and is not accepted: its second
byte is zero, as the unused slot of the history is.  The first packet, next in order, would be. -/
theorem second_packet_refused_iff :
    ∃ (tr : List LinkEntry) (w : Link) (first second : Sent),
      Run (Link.step plainCipher) (Link.start zeroSender zeroReceiver) tr w
        ∧ w.sent = [first, second]
        ∧ ((w.receiver.decryptWith (openSent plainCipher w.sent) (first.packet plainCipher)).2
            = some first.plain
          ↔ next w.receiver.decryptIv = first.nonce
            ∨ w.receiver.decryptHistory (first.nonce.get 0) ≠ first.nonce.get 1)
        ∧ ((w.receiver.decryptWith (openSent plainCipher w.sent) (second.packet plainCipher)).2
            = some second.plain
          ↔ next w.receiver.decryptIv = second.nonce
            ∨ w.receiver.decryptHistory (second.nonce.get 0) ≠ second.nonce.get 1) := by
  have run := run_of_ops (Link.step plainCipher) (Link.start zeroSender zeroReceiver) firstLost rfl
  refine ⟨_, _, _, _, run, rfl, ?_, ?_⟩
  · exact accepted_iff rfl run (by decide +kernel) List.mem_cons_self (not_accepted_of_sends rfl _)
      (by decide +kernel)
  · exact accepted_iff rfl run (by decide +kernel) (List.mem_cons_of_mem _ List.mem_cons_self)
      (not_accepted_of_sends rfl _) (by decide +kernel)

/-- **A genuine packet is refused as a repeat.**  In a session whose initial nonce is zero, the
first packet is lost; the second one, never accepted and two ahead of the counter, is refused. -/
theorem genuine_packet_refused :
    ¬ ∀ (sender receiver : CryptState), sender.encryptIv = receiver.decryptIv →
      ∀ (tr : List LinkEntry) (w : Link),
        Run (Link.step plainCipher) (Link.start sender receiver) tr w →
        w.sent.length + 128 ≤ 2 ^ 128 → ∀ e ∈ w.sent, (∀ x ∈ tr, ¬ Accepted x e.nonce) →
          InWindow w.receiver.decryptIv e.nonce →
          (w.receiver.decryptWith (openSent plainCipher w.sent) (e.packet plainCipher)).2
            = some e.plain := by
  intro h
  have run := run_of_ops (Link.step plainCipher) (Link.start zeroSender zeroReceiver) firstLost rfl
  have hrefused := h _ _ rfl _ _ run (by decide +kernel) _
    (List.mem_cons_of_mem _ List.mem_cons_self) (not_accepted_of_sends rfl _) (by decide +kernel)
  revert hrefused
  decide +kernel

end Baston.Voice
