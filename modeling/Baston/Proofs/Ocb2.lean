/-
OCB2 undoes itself.

Both directions run one loop over the full blocks and treat the last, possibly empty
or partial, block apart.  The loops are compared block by block: decrypting what was
just encrypted takes the same delta, gives the block back, and so adds the same block
to the checksum.  In the last block the pad stands behind the data on both sides, so
the checksums agree there too, and with them the tags.
-/
import Baston.Voice.Crypto

namespace Baston.Voice

/-! ### Exclusive or -/

@[simp] theorem bytes_xor (a b : Block) :
    (xor a b).bytes = List.zipWith (· ^^^ ·) a.bytes b.bytes := rfl

/-- Combining twice with one string gives the other string back, as far as both go. -/
theorem zipWith_xor_cancel : ∀ pad data : List UInt8, data.length ≤ pad.length →
    List.zipWith (· ^^^ ·) pad (List.zipWith (· ^^^ ·) pad data) = data := by
  intro pad
  induction pad with
  | nil =>
      intro data h
      rw [List.length_eq_zero_iff.mp (Nat.le_zero.mp h)]
      rfl
  | cons p pad ih =>
      intro data h
      cases data with
      | nil => rfl
      | cons d data =>
          rw [List.zipWith_cons_cons, List.zipWith_cons_cons,
            ih data (Nat.le_of_succ_le_succ h), ← UInt8.xor_assoc, UInt8.xor_self, UInt8.zero_xor]

/-- A block combined twice is the other block. -/
theorem xor_xor_cancel (a b : Block) : xor a (xor a b) = b := by
  apply Block.ext
  rw [bytes_xor, bytes_xor, zipWith_xor_cancel _ _ (Nat.le_of_eq (b.size.trans a.size.symm))]

namespace Ocb2

variable (ocb : Ocb2)

@[simp] theorem aesDecrypt_aesEncrypt (b : Block) : ocb.aesDecrypt (ocb.aesEncrypt b) = b :=
  ocb.aes.symm_apply_apply b

/-! ### The full blocks -/

theorem encryptBlocks_of_le {plain : List UInt8} (h : plain.length ≤ BLOCK)
    (delta checksum : Block) (encrypted : List UInt8) :
    ocb.encryptBlocks delta checksum plain encrypted = ⟨delta, checksum, plain, h, encrypted⟩ := by
  rw [encryptBlocks, dif_neg (Nat.not_lt.mpr h)]

theorem decryptBlocks_of_le {encrypted : List UInt8} (h : encrypted.length ≤ BLOCK)
    (delta checksum : Block) (plain : List UInt8) :
    ocb.decryptBlocks delta checksum encrypted plain = ⟨delta, checksum, encrypted, h, plain⟩ := by
  rw [decryptBlocks, dif_neg (Nat.not_lt.mpr h)]

/-- A full block's ciphertext. -/
def cipherBlock (delta p : Block) : Block := xor delta (ocb.aesEncrypt (xor delta p))

theorem xor_aesDecrypt_cipherBlock (delta p : Block) :
    xor delta (ocb.aesDecrypt (xor delta (ocb.cipherBlock delta p))) = p := by
  unfold cipherBlock
  rw [xor_xor_cancel, aesDecrypt_aesEncrypt, xor_xor_cancel]

/-- One turn of `ocb_encrypt`'s loop. -/
theorem encryptBlocks_turn {plain : List UInt8} (h : BLOCK < plain.length)
    (delta checksum : Block) (encrypted : List UInt8) :
    ocb.encryptBlocks delta checksum plain encrypted
      = ocb.encryptBlocks (times2 delta) (xor checksum (chunk plain h)) (plain.drop BLOCK)
          (encrypted ++ (ocb.cipherBlock (times2 delta) (chunk plain h)).bytes) := by
  rw [encryptBlocks, dif_pos h]
  rfl

/-- One turn of `ocb_decrypt`'s loop over a block that the other loop made. -/
theorem decryptBlocks_turn (delta checksum p : Block) {later : List UInt8} (hlater : later ≠ [])
    (plain : List UInt8) :
    ocb.decryptBlocks delta checksum ((ocb.cipherBlock (times2 delta) p).bytes ++ later) plain
      = ocb.decryptBlocks (times2 delta) (xor checksum p) later (plain ++ p.bytes) := by
  have hsize := (ocb.cipherBlock (times2 delta) p).size
  have hlong : BLOCK < ((ocb.cipherBlock (times2 delta) p).bytes ++ later).length := by
    have := List.length_pos_of_ne_nil hlater
    rw [List.length_append, hsize]
    omega
  have hchunk : chunk _ hlong = ocb.cipherBlock (times2 delta) p := by
    apply Block.ext
    exact List.take_left' hsize
  rw [decryptBlocks, dif_pos hlong]
  simp only [hchunk, xor_aesDecrypt_cipherBlock, List.drop_left' hsize]

/-- **Decrypting follows encrypting**, block by block: over what the first loop wrote, the second
one ends with the same delta and checksum, and has written what the first one read. -/
theorem decryptBlocks_encryptBlocks : ∀ (n : Nat) (plain : List UInt8), plain.length = n →
    ∀ delta checksum encrypted,
      ∃ body front, (ocb.encryptBlocks delta checksum plain encrypted).out = encrypted ++ body
        ∧ plain = front ++ (ocb.encryptBlocks delta checksum plain encrypted).rest
        ∧ body.length = front.length
        ∧ ∀ (tail out : List UInt8)
            (htail : tail.length = (ocb.encryptBlocks delta checksum plain encrypted).rest.length),
          ocb.decryptBlocks delta checksum (body ++ tail) out
            = ⟨(ocb.encryptBlocks delta checksum plain encrypted).delta,
                (ocb.encryptBlocks delta checksum plain encrypted).checksum, tail,
                htail ▸ (ocb.encryptBlocks delta checksum plain encrypted).short, out ++ front⟩ := by
  intro n
  induction n using Nat.strong_induction_on with
  | _ n ih =>
      intro plain hn delta checksum encrypted
      by_cases h : BLOCK < plain.length
      · have hdrop : (plain.drop BLOCK).length < n := by
          rw [List.length_drop, ← hn]
          unfold BLOCK at *
          omega
        obtain ⟨body, front, hout, hplain, hlen, hdec⟩ := ih _ hdrop (plain.drop BLOCK) rfl
          (times2 delta) (xor checksum (chunk plain h))
          (encrypted ++ (ocb.cipherBlock (times2 delta) (chunk plain h)).bytes)
        rw [ocb.encryptBlocks_turn h]
        refine ⟨(ocb.cipherBlock (times2 delta) (chunk plain h)).bytes ++ body,
          (chunk plain h).bytes ++ front, ?_, ?_, ?_, ?_⟩
        · rw [hout, List.append_assoc]
        · rw [List.append_assoc, ← hplain]
          exact (List.take_append_drop BLOCK plain).symm
        · rw [List.length_append, List.length_append, hlen, Block.size, Block.size]
        · intro tail out htail
          -- Something is left behind a full block, so the second loop takes its turn too.
          have hlater : body ++ tail ≠ [] := by
            intro hnil
            have hcount := congrArg List.length hplain
            have hzero := congrArg List.length hnil
            rw [List.length_append, hlen, htail] at hzero
            rw [List.length_append, List.length_drop] at hcount
            simp only [List.length_nil] at hzero
            omega
          rw [List.append_assoc, ocb.decryptBlocks_turn _ _ _ hlater, hdec tail _ htail]
          simp only [List.append_assoc]
      · have hle := Nat.le_of_not_lt h
        rw [ocb.encryptBlocks_of_le hle]
        refine ⟨[], [], (List.append_nil _).symm, rfl, rfl, ?_⟩
        intro tail out htail
        rw [List.nil_append, List.append_nil, ocb.decryptBlocks_of_le (htail ▸ hle)]

/-! ### The last block -/

/-- Combining with a pad goes no further than the data. -/
theorem zipWith_take_left (pad data : List UInt8) (h : data.length ≤ pad.length) :
    List.zipWith (· ^^^ ·) (pad.take data.length) data = List.zipWith (· ^^^ ·) pad data := by
  have hlen : (List.zipWith (· ^^^ ·) pad data).length = data.length := by
    rw [List.length_zipWith, Nat.min_eq_right h]
  rw [← List.take_of_length_le hlen.le, List.take_zipWith, List.take_length]

/-- The data of the last block, combined with the pad and cut to its length. -/
theorem take_xor_overwrite (pad : Block) (data : List UInt8) (h : data.length ≤ BLOCK) :
    (xor pad (pad.overwrite data h)).bytes.take data.length
      = List.zipWith (· ^^^ ·) pad.bytes data := by
  have hpad : data.length ≤ pad.bytes.length := h.trans_eq pad.size.symm
  rw [bytes_xor, List.take_zipWith]
  simp only [Block.overwrite, List.take_left']
  exact zipWith_take_left _ _ hpad

/-- `ocb_decrypt` fills its last block as `ocb_encrypt` did. -/
theorem overwrite_zipWith (pad : Block) (data : List UInt8) (h : data.length ≤ BLOCK)
    (h' : (List.zipWith (· ^^^ ·) pad.bytes (List.zipWith (· ^^^ ·) pad.bytes data)).length
      ≤ BLOCK) :
    pad.overwrite (List.zipWith (· ^^^ ·) pad.bytes (List.zipWith (· ^^^ ·) pad.bytes data)) h'
      = pad.overwrite data h := by
  apply Block.ext
  simp only [Block.overwrite, zipWith_xor_cancel _ _ (h.trans_eq pad.size.symm)]

/-! ### Both directions -/

/-- The loop over a plaintext's full blocks. -/
def blocksOf (plain : List UInt8) (nonce : Block) : Loop :=
  ocb.encryptBlocks (ocb.aesEncrypt nonce) Block.zero plain []

/-- The pad of a plaintext's last block. -/
def padOf (plain : List UInt8) (nonce : Block) : Block :=
  ocb.aesEncrypt (xor (lengthBlock (ocb.blocksOf plain nonce).rest.length)
    (times2 (ocb.blocksOf plain nonce).delta))

variable (plain : List UInt8) (nonce : Block)

theorem length_lastCipher :
    (List.zipWith (· ^^^ ·) (ocb.padOf plain nonce).bytes (ocb.blocksOf plain nonce).rest).length
      = (ocb.blocksOf plain nonce).rest.length := by
  rw [List.length_zipWith, Block.size, Nat.min_eq_right (ocb.blocksOf plain nonce).short]

theorem ocbEncrypt_fst :
    (ocb.ocbEncrypt plain nonce).1 = (ocb.blocksOf plain nonce).out
      ++ List.zipWith (· ^^^ ·) (ocb.padOf plain nonce).bytes (ocb.blocksOf plain nonce).rest := by
  rw [← take_xor_overwrite _ _ (ocb.blocksOf plain nonce).short]
  rfl

/-- The ciphertext is as long as the plaintext. -/
theorem length_ocbEncrypt : (ocb.ocbEncrypt plain nonce).1.length = plain.length := by
  obtain ⟨body, front, hout, hplain, hlen, -⟩ := ocb.decryptBlocks_encryptBlocks _ plain rfl
    (ocb.aesEncrypt nonce) Block.zero []
  have hcount := congrArg List.length hplain
  rw [List.length_append] at hcount
  rw [ocbEncrypt_fst, List.length_append, length_lastCipher, hcount, blocksOf, hout,
    List.nil_append, hlen]

/-- What was encrypted decrypts to the plaintext, with the tag the encryption gave. -/
theorem ocbDecrypt_ocbEncrypt :
    ocb.ocbDecrypt (ocb.ocbEncrypt plain nonce).1 nonce
      = (plain, (ocb.ocbEncrypt plain nonce).2) := by
  obtain ⟨body, front, hout, hplain, -, hdec⟩ := ocb.decryptBlocks_encryptBlocks _ plain rfl
    (ocb.aesEncrypt nonce) Block.zero []
  have hlast := ocb.length_lastCipher plain nonce
  have htag : (ocb.ocbEncrypt plain nonce).2
      = ocb.aesEncrypt (xor (times3 (times2 (ocb.blocksOf plain nonce).delta))
          (xor (ocb.blocksOf plain nonce).checksum ((ocb.padOf plain nonce).overwrite
            (ocb.blocksOf plain nonce).rest (ocb.blocksOf plain nonce).short))) := rfl
  rw [ocbEncrypt_fst, htag]
  unfold padOf blocksOf at *
  generalize ocb.encryptBlocks (ocb.aesEncrypt nonce) Block.zero plain [] = s at *
  have hd := hdec _ [] hlast
  simp only [hout, List.nil_append, ocbDecrypt, hd, hlast, overwrite_zipWith _ s.rest s.short]
  rw [Block.overwrite, List.take_left', ← hplain]
  rfl

/-- **OCB2 round trip.**  For every permutation of the blocks, every nonce and every plaintext,
empty, full or partial in its last block: the ciphertext is as long as the plaintext, and
decrypting it gives the plaintext back, with the tag the encryption gave. -/
theorem ocb_roundtrip (ocb : Ocb2) (nonce : Block) (plain : List UInt8) :
    (ocb.ocbEncrypt plain nonce).1.length = plain.length
      ∧ (ocb.ocbDecrypt (ocb.ocbEncrypt plain nonce).1 nonce).1 = plain
      ∧ (ocb.ocbDecrypt (ocb.ocbEncrypt plain nonce).1 nonce).2
          = (ocb.ocbEncrypt plain nonce).2 := by
  rw [ocb.ocbDecrypt_ocbEncrypt]
  exact ⟨ocb.length_ocbEncrypt plain nonce, rfl, rfl⟩

end Ocb2

end Baston.Voice
