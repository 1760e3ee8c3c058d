/-
What the server takes from its sidecar: scripts and the licence.

A byte is eight figures, so three bytes are four times six and every match of the shim's second
pattern is a whole digit.  The four zeros behind them complete the last digit of one or two
bytes, and what is left of them is a match too short to count.

Both scripts and verdicts come out of a reply, and a reply answers the very request.  So an
encrypted script is read as the file that was asked for read at some moment while the loader
waited for it, and a server boots only with a token that the component held while the oracle
asked.
-/
import Baston.Lib.Base64
import Baston.Platform.Broker
import Baston.Platform.Sidecar
import Baston.Proofs.Sidecar
import Mathlib.Algebra.Group.Nat.Defs

namespace Baston.Platform

/-! ### The figures of a byte -/

/-- The figure for one bit of a byte. -/
def figure (b weight : Nat) : Char := if b / weight % 2 = 1 then '1' else '0'

theorem isDigit_figure (b weight : Nat) : isDigit (figure b weight) = true := by
  unfold figure
  split
  · decide
  · decide

theorem bitsOf_eq (b : Nat) :
    bitsOf b = [figure b 128, figure b 64, figure b 32, figure b 16, figure b 8, figure b 4,
      figure b 2, figure b 1] := by
  have bit (low high : Nat) (h : high = 2 * low) (hlow : 0 < low) :
      (if b % high - b % low > 0 then '1' else '0') = figure b low := by
    have hsplit : b % high = low * (b / low % 2) + b % low := by
      rw [h, Nat.mul_comm 2 low, Nat.mod_mul]
      omega
    unfold figure
    rcases Nat.mod_two_eq_zero_or_one (b / low) with h0 | h1
    · rw [if_neg (by rw [hsplit, h0]; omega), if_neg (by omega)]
    · rw [if_pos (by rw [hsplit, h1]; omega), if_pos h1]
  simp only [bitsOf, List.map_cons, List.map_nil, Nat.reducePow, Nat.reduceSub]
  rw [bit 128 256 rfl (by omega), bit 64 128 rfl (by omega),
    bit 32 64 rfl (by omega), bit 16 32 rfl (by omega),
    bit 8 16 rfl (by omega), bit 4 8 rfl (by omega),
    bit 2 4 rfl (by omega), bit 1 2 rfl (by omega)]

/-- What a character adds to a digit at a place. -/
def weigh (x : Char) (place : Nat) : Nat := if some x = some '1' then place else 0

theorem weigh_figure (b weight place : Nat) :
    weigh (figure b weight) place = b / weight % 2 * place := by
  unfold figure weigh
  rcases Nat.mod_two_eq_zero_or_one (b / weight) with h0 | h1
  · simp [h0]
  · simp [h1]

theorem weigh_zero (place : Nat) : weigh '0' place = 0 := if_neg (by decide)

theorem sextet_eq (x1 x2 x3 x4 x5 x6 : Char) :
    sextet [x1, x2, x3, x4, x5, x6]
      = weigh x1 32 + weigh x2 16 + weigh x3 8 + weigh x4 4 + weigh x5 2 + weigh x6 1 := by
  simp [sextet, weigh]

/-! ### Matches -/

theorem sextetDigit_eq {x1 x2 x3 x4 x5 x6 : Char} {v : Nat}
    (h : sextet [x1, x2, x3, x4, x5, x6] = v) (hv : v < 64) :
    sextetDigit [x1, x2, x3, x4, x5, x6] = [Base64.digit v] := by
  have digits : ∀ v < 64, (B64.drop v).take 1 = [Base64.digit v] := by decide
  simp only [sextetDigit, List.length_cons, List.length_nil, Nat.zero_add, Nat.reduceAdd,
    Nat.lt_irrefl, if_false, h]
  exact digits v hv

/-- Six figures are one match. -/
theorem gsub_six {x1 x2 x3 x4 x5 x6 : Char} (rest : Text)
    (h : ∀ x ∈ [x1, x2, x3, x4, x5, x6], isDigit x = true) (put : Text → Text) :
    gsubFigures put 0 (x1 :: x2 :: x3 :: x4 :: x5 :: x6 :: rest)
      = put [x1, x2, x3, x4, x5, x6] ++ gsubFigures put 0 rest := by
  simp only [List.mem_cons, List.not_mem_nil, or_false, forall_eq_or_imp, forall_eq] at h
  obtain ⟨h1, h2, h3, h4, h5, h6⟩ := h
  simp [gsubFigures, h1, h2, h3, h4, h5, h6]

/-- What is left of the four zeros is dropped. -/
theorem gsub_zeros : gsubFigures sextetDigit 0 ['0', '0', '0', '0'] = []
    ∧ gsubFigures sextetDigit 0 ['0', '0'] = [] := by
  decide

/-- What stands in the text of figures. -/
def IsFigure (x : Char) : Prop := (∃ b weight, x = figure b weight) ∨ x = '0'

theorem isFigure_figure (b weight : Nat) : IsFigure (figure b weight) := .inl ⟨b, weight, rfl⟩

theorem isFigure_zero : IsFigure '0' := .inr rfl

theorem isDigit_of_isFigure {x : Char} (h : IsFigure x) : isDigit x = true := by
  rcases h with ⟨b, weight, rfl⟩ | rfl
  · exact isDigit_figure b weight
  · decide

/-- Six figures whose value is known are one digit. -/
theorem gsub_digit {x1 x2 x3 x4 x5 x6 : Char} {v : Nat} {rest : Text} (h1 : IsFigure x1)
    (h2 : IsFigure x2) (h3 : IsFigure x3) (h4 : IsFigure x4) (h5 : IsFigure x5)
    (h6 : IsFigure x6) (hlt : v < 64)
    (hv : weigh x1 32 + weigh x2 16 + weigh x3 8 + weigh x4 4 + weigh x5 2 + weigh x6 1 = v) :
    gsubFigures sextetDigit 0 (x1 :: x2 :: x3 :: x4 :: x5 :: x6 :: rest)
      = Base64.digit v :: gsubFigures sextetDigit 0 rest := by
  rw [gsub_six rest (by simp [isDigit_of_isFigure, *]),
    sextetDigit_eq ((sextet_eq ..).trans hv) hlt]
  rfl

/-! ### Groups -/

/-- The first digit of a group is the high six bits of its first byte. -/
theorem gsub_first (a : UInt8) (rest : Text) :
    gsubFigures sextetDigit 0 (bitsOf a.toNat ++ rest)
      = Base64.digit (a.toNat / 4)
        :: gsubFigures sextetDigit 0 (figure a.toNat 2 :: figure a.toNat 1 :: rest) := by
  have := a.toNat_lt
  rw [bitsOf_eq]
  refine gsub_digit (isFigure_figure ..) (isFigure_figure ..) (isFigure_figure ..)
    (isFigure_figure ..) (isFigure_figure ..) (isFigure_figure ..) (by omega) ?_
  simp only [weigh_figure]
  omega

/-- The second digit is the last two bits of the first byte and the high four of the next. -/
theorem gsub_second (a b : UInt8) (rest : Text) :
    gsubFigures sextetDigit 0 (figure a.toNat 2 :: figure a.toNat 1 :: (bitsOf b.toNat ++ rest))
      = Base64.digit (a.toNat % 4 * 16 + b.toNat / 16)
        :: gsubFigures sextetDigit 0
          (figure b.toNat 8 :: figure b.toNat 4 :: figure b.toNat 2 :: figure b.toNat 1 :: rest) := by
  have := b.toNat_lt
  rw [bitsOf_eq]
  refine gsub_digit (isFigure_figure ..) (isFigure_figure ..) (isFigure_figure ..)
    (isFigure_figure ..) (isFigure_figure ..) (isFigure_figure ..) (by omega) ?_
  simp only [weigh_figure]
  omega

/-- The last two digits of a whole group. -/
theorem gsub_third (b c : UInt8) (rest : Text) :
    gsubFigures sextetDigit 0 (figure b.toNat 8 :: figure b.toNat 4 :: figure b.toNat 2
        :: figure b.toNat 1 :: (bitsOf c.toNat ++ rest))
      = Base64.digit (b.toNat % 16 * 4 + c.toNat / 64) :: Base64.digit (c.toNat % 64)
        :: gsubFigures sextetDigit 0 rest := by
  have := c.toNat_lt
  rw [bitsOf_eq]
  refine (gsub_digit (v := b.toNat % 16 * 4 + c.toNat / 64) (isFigure_figure ..)
    (isFigure_figure ..) (isFigure_figure ..) (isFigure_figure ..) (isFigure_figure ..)
    (isFigure_figure ..) (by omega) ?_).trans (congrArg _ ?_)
  · simp only [weigh_figure]
    omega
  · refine gsub_digit (isFigure_figure ..) (isFigure_figure ..) (isFigure_figure ..)
      (isFigure_figure ..) (isFigure_figure ..) (isFigure_figure ..) (by omega) ?_
    simp only [weigh_figure]
    omega

/-- The two bits left of one byte, completed by the zeros. -/
theorem gsub_one_left (a : UInt8) :
    gsubFigures sextetDigit 0 [figure a.toNat 2, figure a.toNat 1, '0', '0', '0', '0']
      = [Base64.digit (a.toNat % 4 * 16)] := by
  refine gsub_digit (isFigure_figure ..) (isFigure_figure ..) isFigure_zero isFigure_zero
    isFigure_zero isFigure_zero (by omega) ?_
  simp only [weigh_figure, weigh_zero]
  omega

/-- The four bits left of two bytes, completed by two of the zeros. -/
theorem gsub_two_left (b : UInt8) :
    gsubFigures sextetDigit 0 [figure b.toNat 8, figure b.toNat 4, figure b.toNat 2,
        figure b.toNat 1, '0', '0', '0', '0'] = [Base64.digit (b.toNat % 16 * 4)] := by
  refine (gsub_digit (v := b.toNat % 16 * 4) (isFigure_figure ..) (isFigure_figure ..)
    (isFigure_figure ..) (isFigure_figure ..) isFigure_zero isFigure_zero (by omega) ?_).trans
    (congrArg _ gsub_zeros.2)
  simp only [weigh_figure, weigh_zero]
  omega

/-- The two encoders agree. -/
theorem base64encode_eq (data : List UInt8) : base64encode data = Base64.encode data := by
  induction data using Base64.encode.induct with
  | case1 => decide
  | case2 a =>
      simp only [base64encode, List.flatMap_cons, List.flatMap_nil, List.append_nil]
      rw [gsub_first, gsub_one_left]
      rfl
  | case3 a b =>
      simp only [base64encode, List.flatMap_cons, List.flatMap_nil, List.append_nil,
        List.append_assoc]
      rw [gsub_first, gsub_second, gsub_two_left]
      rfl
  | case4 a b c rest ih =>
      have hlen : (a :: b :: c :: rest).length % 3 = rest.length % 3 := by
        simp only [List.length_cons]
        omega
      simp only [base64encode, hlen, List.flatMap_cons, List.append_assoc, Base64.encode] at ih ⊢
      rw [gsub_first, gsub_second, gsub_third, ← ih]
      rfl

/-- **The shim's base64 is base64**: its text of ones and zeros, read six at a time, spells every
file as the standard has it, and a strict decoder reads the file back. -/
theorem shim_spells_file (data : List UInt8) :
    base64encode data = Base64.encode data ∧ Base64.decode (base64encode data) = some data := by
  have hspelled := base64encode_eq data
  exact ⟨hspelled, by rw [hspelled, Base64.decode_encode]⟩

open Trace

variable {past : List SidecarEntry} {s : Sidecar} {e : SidecarEntry} {w : World}

/-! ### Scripts -/

open SidecarDecryptor in
/-- What the shim reads when it is asked for a file. -/
theorem result_decryptOp (w : World) (resource file : Text) (id : Nat) :
    result w (sent (decryptOp resource file) id)
      = (w.loadResourceFile resource file).map (fileReply resource file) := rfl

theorem get?_insert_ne {v value : Json} {key other : String} (h : other ≠ key) :
    (v.insert key value).get? other = v.get? other := by
  cases v with
  | object fields =>
      simp only [Json.insert, Json.get?, List.lookup_cons, beq_eq_false_iff_ne.mpr h]
      induction fields with
      | nil => rfl
      | cons f rest ih =>
          obtain ⟨name, held⟩ := f
          by_cases hf : name = key
          · have hother : (other == name) = false :=
              beq_eq_false_iff_ne.mpr fun hc => h (hc.trans hf)
            rw [List.filter_cons_of_neg (by simp [hf]), List.lookup_cons, hother]
            exact ih
          · rw [List.filter_cons_of_pos (by simp [hf]), List.lookup_cons, List.lookup_cons]
            split
            · rfl
            · exact ih
  | _ => rfl

/-- A reply with data carries what the file read as. -/
theorem loaded_of_data {resource file data : Text} {id : Nat}
    (h : ((respond w id (sent (SidecarDecryptor.decryptOp resource file) id)).get? "data").bind
      Json.asStr = some data) :
    ∃ bytes, w.loadResourceFile resource file = .ok (some bytes) ∧ data = base64encode bytes := by
  unfold respond at h
  rw [result_decryptOp] at h
  cases hload : w.loadResourceFile resource file with
  | error text =>
      rw [hload] at h
      cases h
  | ok found =>
      rw [hload] at h
      simp only [Except.map] at h
      rw [get?_insert_ne (by decide)] at h
      cases found with
      | none => cases h
      | some bytes =>
          cases h
          exact ⟨bytes, rfl, rfl⟩

/-- **An encrypted script is read as its file.**  When the loader asks for a file and takes bytes
out of the reply, they are what the server around the shim read in that file's place, at a moment
when the call was waiting for it. -/
theorem script_is_its_file {b64 : Text → Except Text (List UInt8)}
    (hb64 : ∀ data, b64 (Base64.encode data) = .ok data) {resource file : Text}
    {bytes out : List UInt8} {op : Json} {call : Nat}
    {goOn : Except CfxPlatformError Json → Except DecryptError (List UInt8)}
    {reply : Except CfxPlatformError Json}
    (hask : SidecarDecryptor.decrypt b64 resource file bytes = .ask op goOn)
    (run : Run Sidecar.step (.launch w) (e :: past) s) (hsmall : SmallIds past)
    (hret : e.answer = .returned call op reply) (hout : goOn reply = .ok out) :
    ∃ id, ∃ x ∈ past, Awaited x call op id
      ∧ x.pre.world.loadResourceFile resource file = .ok (some out) := by
  unfold SidecarDecryptor.decrypt at hask
  split at hask
  · obtain ⟨rfl, rfl⟩ := Asking.ask.inj hask
    cases reply with
    | error err => cases hout
    | ok value =>
        obtain ⟨id, x, hx, htakes, hawaited, rfl⟩ := returned_answered run hsmall hret
        refine ⟨id, x, hx, hawaited, ?_⟩
        simp only [SidecarDecryptor.readReply] at hout
        split at hout
        · rename_i hread
          split at hread
          · rename_i data hdata
            obtain ⟨loaded, hload, rfl⟩ := loaded_of_data hdata
            rw [base64encode_eq, hb64] at hread
            cases hread
            cases hout
            exact hload
          · cases hread
        · cases hout
  · cases hask

/-- The crate's decoder. -/
def standardBase64 (text : Text) : Except Text (List UInt8) :=
  match Base64.decode text with
  | some data => .ok data
  | none => .error "Invalid symbol".toList

/-- The script of `shopServer`, as it is stored. -/
def escrowed : List UInt8 := CFX_MAGIC ++ [1]

theorem shop_script_is_its_file : ∃ e past s,
    Run Sidecar.step (.launch shopServer) (e :: past) s
      ∧ ∃ id, ∃ x ∈ past, Awaited x 0 askFile id
        ∧ x.pre.world.loadResourceFile ['s'] ['f'] = .ok (some [104, 105]) := by
  obtain ⟨e, past, s, run, hsmall, hret⟩ := askFile_returns
  have hread : ∀ data, standardBase64 (Base64.encode data) = .ok data := by
    intro data
    rw [standardBase64, Base64.decode_encode]
  have hask : SidecarDecryptor.decrypt standardBase64 ['s'] ['f'] escrowed = .ask askFile _ := rfl
  exact ⟨e, past, s, run, script_is_its_file hread hask run hsmall hret rfl⟩

/-! ### The licence -/

/-- What the shim says of the licence. -/
theorem respond_licenseOp (w : World) (id : Nat) :
    respond w id (sent licenseOp id) = (licenseStatus w).insert "id" (.number id) := rfl

/-- What the shim says without a token. -/
theorem parse_without_token {id : Nat} (h : w.token = []) :
    parseStatus (respond w id (sent licenseOp id)) = .ok (.invalid emptyToken) := by
  have hstatus : licenseStatus w = .object [("valid", .bool false), ("banned", .bool false),
      ("entitlements", .object [("features", .array [])]), ("reason", .string emptyToken)] := by
    simp [licenseStatus, h]
  rw [respond_licenseOp, hstatus]
  rfl

/-- What the shim says with one. -/
theorem parse_with_token {id : Nat} (h : w.token ≠ []) :
    parseStatus (respond w id (sent licenseOp id)) = .ok
      { valid := true, banned := false, token := LicenseKeyToken.new w.token, entitlements := {},
        reason := none } := by
  have hstatus : licenseStatus w = .object [("valid", .bool true), ("banned", .bool false),
      ("token", .string w.token), ("entitlements", .object [("features", .array [])])] := by
    simp [licenseStatus, h]
  rw [respond_licenseOp, hstatus]
  rfl

/-- A verdict has the token of the component, unless that is blank. -/
theorem token_of_verdict {id : Nat} {status : LicenseStatus}
    (h : parseStatus (respond w id (sent licenseOp id)) = .ok status) :
    status.token = LicenseKeyToken.new w.token := by
  by_cases htoken : w.token = []
  · rw [parse_without_token htoken] at h
    cases h
    rw [htoken]
    rfl
  · rw [parse_with_token htoken] at h
    cases h
    rfl

/-- What a turn of the oracle's loop ends with is the verdict of the call it made, and what it goes
on with does not authenticate. -/
theorem look_spec (turn : Turn) {last : Option LicenseStatus}
    (hlast : ∀ verdict, last = some verdict → verdict.isAuthenticated = false) :
    (∀ status, turn.look last = .inr (.ok status) →
      turn.cancelled = false ∧ verdictOf turn.reply = .ok status)
      ∧ ∀ last', turn.look last = .inl last' →
        ∀ verdict, last' = some verdict → verdict.isAuthenticated = false := by
  unfold Turn.look
  split
  · exact ⟨fun _ h => (by cases h), fun _ h => (by cases h)⟩
  · rename_i hgoing
    split
    · rename_i verdict hverdict
      split
      · refine ⟨fun _ h => ?_, fun _ h => (by cases h)⟩
        cases h
        exact ⟨Bool.eq_false_of_not_eq_true hgoing, hverdict⟩
      · split
        · refine ⟨fun _ h => ?_, fun _ h => (by cases h)⟩
          cases h
          exact ⟨Bool.eq_false_of_not_eq_true hgoing, hverdict⟩
        · rename_i hno
          refine ⟨fun _ h => (by cases h), fun _ h verdict' h' => ?_⟩
          cases h
          cases h'
          simpa using hno
    · split
      · exact ⟨fun _ h => (by cases h), fun _ h => (by cases h)⟩
      · refine ⟨fun _ h => (by cases h), fun _ h => ?_⟩
        cases h
        exact hlast

/-- A verdict that authenticates ends the oracle's loop at the turn it was given in. -/
theorem query_spec : ∀ {turns : List Turn} {last : Option LicenseStatus} {status : LicenseStatus},
    (∀ verdict, last = some verdict → verdict.isAuthenticated = false) →
      query last turns = some (.ok status) → status.isAuthenticated = true →
        ∃ turn ∈ turns, turn.cancelled = false ∧ verdictOf turn.reply = .ok status := by
  intro turns
  induction turns with
  | nil =>
      intro last status _ h
      cases h
  | cons turn rest ih =>
      intro last status hlast h hauth
      obtain ⟨hends, hgoes⟩ := look_spec turn hlast
      unfold query at h
      split at h
      · rename_i result hlook
        obtain rfl := Option.some.inj h
        exact ⟨turn, List.mem_cons_self, hends status hlook⟩
      · rename_i last' hlook
        split at h
        · obtain rfl := Except.ok.inj (Option.some.inj h)
          cases last' with
          | none => cases hauth
          | some verdict =>
              have hno := hgoes _ hlook verdict rfl
              rw [Option.getD_some, hno] at hauth
              cases hauth
        · split at h
          · cases h
          · obtain ⟨turn', hturn', hverdict⟩ := ih (hgoes _ hlook) h hauth
            exact ⟨turn', List.mem_cons_of_mem _ hturn', hverdict⟩

/-- A token is handed out only with a verdict that authenticates. -/
theorem authenticatedToken_ok {status : LicenseStatus} {token : LicenseKeyToken}
    (h : authenticatedToken status = .ok token) :
    status.isAuthenticated = true ∧ status.token = some token := by
  unfold authenticatedToken bootDecision at h
  split at h
  · cases h
  · rename_i hallow
    split at hallow
    · cases hallow
    · split at hallow
      · cases hallow
      · split at hallow
        · cases hallow
        · rename_i hbanned hvalid htoken
          split at h
          · rename_i held hheld
            obtain rfl := Except.ok.inj h
            refine ⟨?_, hheld⟩
            simp only [LicenseStatus.isAuthenticated, hheld]
            simp_all
          · cases h

/-- What a call returned, at any point of a run. -/
theorem answered_of_mem {call : Nat} {op reply : Json} (run : Run Sidecar.step (.launch w) past s)
    (hsmall : SmallIds past) (he : e ∈ past) (hret : e.answer = .returned call op (.ok reply)) :
    ∃ id, ∃ x ∈ past, TakesUp x id (sent op id) ∧ Awaited x call op id
      ∧ reply = respond x.pre.world id (sent op id) := by
  obtain ⟨later, before, rfl⟩ := List.append_of_mem he
  obtain ⟨mid, run', -⟩ := run.split
  obtain ⟨id, x, hx, hanswered⟩ := returned_answered run'
    (fun y hy => hsmall y (List.mem_append_right _ (List.mem_cons_of_mem _ hy))) hret
  exact ⟨id, x, List.mem_append_right _ (List.mem_cons_of_mem _ hx), hanswered⟩

/-- A call has returned a result. -/
def Returned (past : List SidecarEntry) (call : Nat) (op : Json)
    (result : Except CfxPlatformError Json) : Prop :=
  ∃ y ∈ past, y.answer = .returned call op result

/-- **The server boots only with a token of the component.**  When the oracle's turns, each that
was not cancelled with the reply of a call it made, end in a token, that is the component's own at
a moment when the call of one of these turns was waiting for its answer. -/
theorem boots_with_token {turns : List Turn} {token : LicenseKeyToken}
    (run : Run Sidecar.step (.launch w) past s) (hsmall : SmallIds past)
    (hturns : ∀ turn ∈ turns, turn.cancelled = false →
      ∃ call, Returned past call licenseOp turn.reply)
    (hboots : authenticate turns = some (.ok token)) :
    ∃ turn ∈ turns, turn.cancelled = false ∧ ∃ call, Returned past call licenseOp turn.reply
      ∧ ∃ id, ∃ x ∈ past, Awaited x call licenseOp id
        ∧ LicenseKeyToken.new x.pre.world.token = some token := by
  obtain ⟨result, hquery, hresult⟩ := Option.map_eq_some_iff.mp hboots
  cases result with
  | error err => cases hresult
  | ok status =>
      obtain ⟨hauth, htoken⟩ := authenticatedToken_ok hresult
      obtain ⟨turn, hturn, hgoing, hverdict⟩ := query_spec (fun _ h => by cases h) hquery hauth
      obtain ⟨call, hret⟩ := hturns turn hturn hgoing
      refine ⟨turn, hturn, hgoing, call, hret, ?_⟩
      obtain ⟨y, hy, hret⟩ := hret
      cases hreply : turn.reply with
      | error err =>
          rw [hreply] at hverdict
          cases hverdict
      | ok value =>
          rw [hreply] at hverdict hret
          obtain ⟨id, x, hx, -, hawaited, rfl⟩ := answered_of_mem run hsmall hy hret
          refine ⟨id, x, hx, hawaited, ?_⟩
          rw [← token_of_verdict hverdict, htoken]

/-- The server before its component has validated the licence. -/
def unlicensed : World := { shopServer with token := [] }

/-- A turn of the oracle with what the shim says. -/
def turnIn (w : World) (id : Nat) : Turn where
  cancelled := false
  reply := .ok (respond w id (sent licenseOp id))
  spent := false
  late := false
  woken := false

/-- Two calls of the oracle; the licence is validated in between. -/
def twoTurns : List SidecarOp :=
  oneCall 0 licenseOp ++ .world shopServer :: oneCall 1 licenseOp

theorem twoTurns_return : ∃ past s, Run Sidecar.step (.launch unlicensed) past s
    ∧ SmallIds past ∧ Returned past 0 licenseOp (turnIn unlicensed 1).reply
    ∧ Returned past 1 licenseOp (turnIn shopServer 2).reply := by
  refine ⟨_, _, run_of_ops Sidecar.step (.launch unlicensed) twoTurns rfl, ?_, ?_, ?_⟩
  · decide
  · exact ⟨_, List.getElem_mem (show 13 < 25 by decide), rfl⟩
  · exact ⟨_, List.getElem_mem (show 0 < 25 by decide), rfl⟩

/-- No verdict in the first turn, a token in the second. -/
theorem shop_boots_with_token : ∃ past s, Run Sidecar.step (.launch unlicensed) past s
    ∧ ∃ turn ∈ [turnIn unlicensed 1, turnIn shopServer 2], turn.cancelled = false
      ∧ ∃ call, Returned past call licenseOp turn.reply
        ∧ ∃ id, ∃ x ∈ past, Awaited x call licenseOp id
          ∧ LicenseKeyToken.new x.pre.world.token = some ⟨['t'], List.cons_ne_nil _ _⟩ := by
  obtain ⟨past, s, run, hsmall, hfirst, hsecond⟩ := twoTurns_return
  have hturns : ∀ turn ∈ [turnIn unlicensed 1, turnIn shopServer 2], turn.cancelled = false →
      ∃ call, Returned past call licenseOp turn.reply := by
    intro turn hturn _
    rcases List.mem_pair.mp hturn with rfl | rfl
    · exact ⟨0, hfirst⟩
    · exact ⟨1, hsecond⟩
  exact ⟨past, s, run, boots_with_token run hsmall hturns rfl⟩

end Baston.Platform
