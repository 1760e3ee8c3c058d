/-
Two walks over nearly the same bytes.

Suppose two streams of one length differ only inside the body of one leaf.  Every bit that the
walk itself looks at is outside of that body, so the two walks make the same visits: they take
the same presence bits, frame the same leaves at the same positions, and hand the same bytes to
every decoder but that one.
-/
import Baston.Proofs.SyncVisit

namespace Baston.Rage

open MessageBuffer

namespace MessageBuffer

/-! ### The same bits in a window -/

/-- The same bits from `a` up to `b`. -/
def SameBits (data data' : List UInt8) (a b : Nat) : Prop :=
  ∀ k, a ≤ k → k < b → bitOf data' k = bitOf data k

/-- The same buffer over other bytes. -/
def withData (buf : MessageBuffer) (data' : List UInt8) : MessageBuffer := { buf with data := data' }

variable {data data' : List UInt8} {buf : MessageBuffer}

theorem SameBits.mono {a b c d : Nat} (h : SameBits data data' a d) (hab : a ≤ b) (hcd : c ≤ d) :
    SameBits data data' b c :=
  fun k h1 h2 => h k (by omega) (by omega)

theorem SameBits.symm {a b : Nat} (h : SameBits data data' a b) : SameBits data' data a b :=
  fun k h1 h2 => (h k h1 h2).symm

theorem readBit_withData (hlen : data'.length = buf.data.length)
    (h : SameBits buf.data data' buf.curBit (buf.curBit + 1)) :
    (buf.withData data').readBit = (buf.readBit.1, buf.readBit.2.withData data') := by
  have hbit : bitAt data' buf.curBit = bitAt buf.data buf.curBit := by
    apply UInt8.toNat.inj
    rw [bitAt_toNat, bitAt_toNat, h _ (Nat.le_refl _) (Nat.lt_succ_self _)]
  unfold readBit withData
  simp only [hlen, hbit]

theorem gather_congr {start n : Nat} (h : SameBits data data' start (start + n)) :
    gather data' start n = gather data start n := by
  unfold gather
  apply List.foldl_ext
  intro value i hi
  have hi' : i < n := List.mem_range.mp hi
  have hbit : bitAt data' (start + i) = bitAt data (start + i) := by
    apply UInt8.toNat.inj
    rw [bitAt_toNat, bitAt_toNat, h _ (by omega) (by omega)]
  rw [hbit]

end MessageBuffer

namespace SyncParse

variable {data data' : List UInt8} {buf : MessageBuffer}

/-- What is cut out has as many bytes as it needs, the bits of its window, and then zeros. -/
theorem cut_spec {start bits : Nat} (hroom : start + bits ≤ data.length * 8) :
    (cut data start bits).length = (bits + 7) / 8
      ∧ ∀ j, bitOf (cut data start bits) j
        = if j < bits then bitOf data (start + j) else false := by
  have hzeros : ∀ n j, bitOf (List.replicate n (0 : UInt8)) j = false := by
    intro n j
    unfold bitOf
    rw [List.getD_eq_getElem?_getD, List.getElem?_replicate]
    split <;> simp
  unfold cut
  by_cases hzero : bits = 0
  · rw [if_pos hzero, hzero]
    refine ⟨rfl, fun j => ?_⟩
    rw [if_neg (by omega)]
    exact hzeros 0 j
  · rw [if_neg hzero]
    have hdest : 0 + bits ≤ (List.replicate ((bits + 7) / 8) (0 : UInt8)).length * 8 := by
      rw [List.length_replicate]
      omega
    refine ⟨by rw [length_copyBits hdest hroom, List.length_replicate], fun j => ?_⟩
    rw [bitOf_copyBits hdest hroom, Nat.sub_zero]
    by_cases hj : j < bits
    · rw [if_pos (by omega), if_pos hj]
    · rw [if_neg (by omega), if_neg hj]
      exact hzeros _ j

/-- What is cut out of a window depends on the bits of the window only. -/
theorem cut_congr {start bits : Nat} (hlen : data'.length = data.length)
    (hroom : start + bits ≤ data.length * 8) (h : SameBits data data' start (start + bits)) :
    cut data' start bits = cut data start bits := by
  obtain ⟨hsize, hbits⟩ := cut_spec hroom
  obtain ⟨hsize', hbits'⟩ := cut_spec (show start + bits ≤ data'.length * 8 by omega)
  refine eq_of_bitsFrom (hsize'.trans hsize.symm) (bitsFrom_congr ?_)
  intro j _ _
  rw [hbits, hbits']
  by_cases hj : j < bits
  · rw [if_pos hj, if_pos hj, h _ (by omega) (by omega)]
  · rw [if_neg hj, if_neg hj]

/-- The same frame, its bytes taken from another stream. -/
def recut (data' : List UInt8) (body : LeafBody) : LeafBody :=
  { body with bytes := cut data' body.start body.bits }

theorem Framed.withData {body : LeafBody} (h : Framed buf body) (hlen : data'.length = buf.data.length)
    (hsame : SameBits buf.data data' buf.curBit (buf.curBit + lengthWidth buf)) :
    Framed (buf.withData data') (recut data' body) where
  start := h.start
  bits := by
    have hfield := gather_congr hsame
    exact h.bits.trans (congrArg UInt32.toNat hfield.symm)
  room := by
    have hroom := h.room
    simp only [recut, MessageBuffer.withData]
    omega
  bytes := rfl

/-- A frame is where the length field puts it. -/
theorem frame_withData (hsize : buf.maxBit = buf.data.length * 8)
    (hlen : data'.length = buf.data.length)
    (hsame : SameBits buf.data data' buf.curBit (buf.curBit + lengthWidth buf)) :
    frame (buf.withData data') = (frame buf).map (recut data') := by
  have hsize' : (buf.withData data').maxBit = (buf.withData data').data.length * 8 := by
    simp only [MessageBuffer.withData]
    rw [hlen, hsize]
  rcases hframe : frame buf with _ | body
  · rcases hframe' : frame (buf.withData data') with _ | body'
    · rfl
    · have hback := ((frame_iff hsize').mp hframe').withData hlen.symm hsame.symm
      have := (frame_iff hsize).mpr hback
      rw [hframe] at this
      exact absurd this (by simp)
  · exact (frame_iff hsize').mpr (((frame_iff hsize).mp hframe).withData hlen hsame)

/-! ### Visits over other bytes -/

section

variable {F : Type} [Scalar F] {ctx : WalkContext} {st st' twin : WalkState F}
  {events log : List (Event LeafBody)} {going : Bool}

/-- The same position in the tree and in another stream, whatever was decoded so far. -/
structure Twin (data' : List UInt8) (st twin : WalkState F) : Prop where
  cursor : twin.cursor = st.cursor
  buf : twin.buf = st.buf.withData data'

theorem shouldRead_bounds (ctx : WalkContext) (node : FlatNode) (buf : MessageBuffer) :
    buf.curBit ≤ (shouldRead node.ids ctx.syncType ctx.objType buf).2.curBit := by
  rw [shouldRead_eq]
  split
  · exact Nat.le_refl _
  · split
    · exact Nat.le_succ _
    · exact Nat.le_refl _

/-- A presence bit outside the difference is read alike. -/
theorem shouldRead_withData {node : FlatNode} {read : Bool} {buf' : MessageBuffer}
    (hlen : data'.length = buf.data.length)
    (hread : shouldRead node.ids ctx.syncType ctx.objType buf = (read, buf'))
    (hsame : SameBits buf.data data' buf.curBit buf'.curBit) (i : Nat) :
    shouldRead node.ids ctx.syncType ctx.objType (buf.withData data') = (read, buf'.withData data')
      ∧ flagLog ctx i node (buf.withData data') = flagLog ctx i node buf := by
  rw [shouldRead_eq] at hread ⊢
  unfold flagLog
  by_cases hclosed : closed ctx node = true
  · rw [if_pos hclosed] at hread ⊢
    rw [if_pos hclosed, if_pos hclosed]
    obtain ⟨rfl, rfl⟩ := Prod.mk.inj hread
    exact ⟨rfl, rfl⟩
  · rw [if_neg hclosed] at hread ⊢
    rw [if_neg hclosed, if_neg hclosed]
    by_cases hflag : flagged ctx node = true
    · rw [if_pos hflag] at hread ⊢
      rw [if_pos hflag, if_pos hflag]
      obtain ⟨rfl, rfl⟩ := Prod.mk.inj hread
      have hbit := readBit_withData hlen hsame
      rw [hbit]
      exact ⟨rfl, rfl⟩
    · rw [if_neg hflag] at hread ⊢
      rw [if_neg hflag, if_neg hflag]
      obtain ⟨rfl, rfl⟩ := Prod.mk.inj hread
      exact ⟨rfl, rfl⟩

theorem Visit.curBit_le (h : Visit ctx st events going st')
    (hsize : st.buf.maxBit = st.buf.data.length * 8) : st.buf.curBit ≤ st'.buf.curBit := by
  have hread : ∀ {node : FlatNode} {read : Bool} {buf : MessageBuffer},
      shouldRead node.ids ctx.syncType ctx.objType st.buf = (read, buf) →
        st.buf.curBit ≤ buf.curBit ∧ buf.maxBit = buf.data.length * 8 := by
    intro node read buf hr
    have hle := shouldRead_bounds ctx node st.buf
    have hsame := sameData_shouldRead ctx node st.buf
    rw [hr] at hle hsame
    exact ⟨hle, by rw [hsame.bound, hsame.data]; exact hsize⟩
  cases h with
  | skip hnode hkind hr => exact (hread hr).1
  | enter hnode hkind hr => exact (hread hr).1
  | pass hnode hkind hr => exact (hread hr).1
  | broken hnode hkind hr hframe =>
      have := (hread hr).1
      simp only [skipBits]
      omega
  | leaf hnode hkind hr hframe =>
      obtain ⟨hle, hsize'⟩ := hread hr
      have hstart := ((frame_iff hsize').mp hframe).start
      simp only [setCurrentBit]
      omega

theorem Visits.curBit_le (h : Visits ctx st log going st')
    (hsize : st.buf.maxBit = st.buf.data.length * 8) : st.buf.curBit ≤ st'.buf.curBit := by
  induction h with
  | done st => exact Nat.le_refl _
  | stop hvisit => exact hvisit.curBit_le hsize
  | more hvisit hrest ih =>
      have hsame := hvisit.sameData
      exact (hvisit.curBit_le hsize).trans (ih (by rw [hsame.bound, hsame.data]; exact hsize))

/-- A body taken from the same bits is the same. -/
theorem recut_eq {body : LeafBody} (hsize : buf.maxBit = buf.data.length * 8)
    (hframe : frame buf = some body) (hlen : data'.length = buf.data.length)
    (hsame : SameBits buf.data data' body.start (body.start + body.bits)) :
    recut data' body = body := by
  have hframed := (frame_iff hsize).mp hframe
  have hbytes := hframed.bytes
  obtain ⟨start, bits, bytes⟩ := body
  simp only at hbytes hsame
  unfold recut
  rw [cut_congr hlen hframed.room hsame, hbytes]

/-- A visit whose bits are the same is the same visit. -/
theorem Visit.withData (h : Visit ctx st events going st')
    (hsize : st.buf.maxBit = st.buf.data.length * 8) (hlen : data'.length = st.buf.data.length)
    (htwin : Twin data' st twin)
    (hsame : SameBits st.buf.data data' st.buf.curBit st'.buf.curBit) :
    ∃ twin', Visit ctx twin events going twin' ∧ Twin data' st' twin' := by
  obtain ⟨cursor, tbuf, out⟩ := twin
  obtain ⟨rfl, rfl⟩ := htwin
  have hafter : ∀ {node : FlatNode} {read : Bool} {buf : MessageBuffer},
      shouldRead node.ids ctx.syncType ctx.objType st.buf = (read, buf) →
        SameData st.buf buf ∧ st.buf.curBit ≤ buf.curBit := by
    intro node read buf hr
    have hle := shouldRead_bounds ctx node st.buf
    have hdata := sameData_shouldRead ctx node st.buf
    rw [hr] at hle hdata
    exact ⟨hdata, hle⟩
  cases h with
  | skip hnode hkind hr =>
      obtain ⟨hr', hflags⟩ := shouldRead_withData hlen hr hsame st.cursor
      rw [← hflags]
      exact ⟨_, .skip hnode hkind hr', ⟨rfl, rfl⟩⟩
  | enter hnode hkind hr =>
      obtain ⟨hr', hflags⟩ := shouldRead_withData hlen hr hsame st.cursor
      rw [← hflags]
      exact ⟨_, .enter hnode hkind hr', ⟨rfl, rfl⟩⟩
  | pass hnode hkind hr =>
      obtain ⟨hr', hflags⟩ := shouldRead_withData hlen hr hsame st.cursor
      rw [← hflags]
      exact ⟨_, .pass hnode hkind hr', ⟨rfl, rfl⟩⟩
  | @broken node buf hnode name maxBytes hkind hr hframe =>
      obtain ⟨hdata, hle⟩ := hafter hr
      simp only [skipBits] at hsame
      obtain ⟨hr', hflags⟩ := shouldRead_withData hlen hr (hsame.mono (Nat.le_refl _) (by omega)) st.cursor
      have hframe' : frame (buf.withData data') = none := by
        rw [frame_withData (by rw [hdata.bound, hdata.data]; exact hsize) (by rw [hdata.data]; exact hlen)
          (by rw [hdata.data]; exact hsame.mono hle (Nat.le_refl _)), hframe]
        rfl
      rw [← hflags]
      exact ⟨_, .broken hnode hkind hr' hframe', ⟨rfl, rfl⟩⟩
  | @leaf node buf hnode name maxBytes hkind hr body hframe =>
      obtain ⟨hdata, hle⟩ := hafter hr
      have hsize' : buf.maxBit = buf.data.length * 8 := by
        rw [hdata.bound, hdata.data]
        exact hsize
      have hlen' : data'.length = buf.data.length := by
        rw [hdata.data]
        exact hlen
      have hstart := ((frame_iff hsize').mp hframe).start
      simp only [setCurrentBit] at hsame
      obtain ⟨hr', hflags⟩ := shouldRead_withData hlen hr (hsame.mono (Nat.le_refl _) (by omega)) st.cursor
      rw [← hdata.data] at hsame
      have hframe' : frame (buf.withData data') = some body := by
        rw [frame_withData hsize' hlen' (hsame.mono hle (by omega)), hframe, Option.map_some,
          recut_eq hsize' hframe hlen' (hsame.mono (by omega) (Nat.le_refl _))]
      rw [← hflags]
      exact ⟨_, @Visit.leaf F _ ctx ⟨st.cursor, st.buf.withData data', out⟩ node _ hnode name maxBytes hkind
        hr' body hframe', ⟨rfl, rfl⟩⟩

/-- A run whose bits are the same is the same run. -/
theorem Visits.withData (h : Visits ctx st log going st')
    (hsize : st.buf.maxBit = st.buf.data.length * 8) (hlen : data'.length = st.buf.data.length)
    (htwin : Twin data' st twin)
    (hsame : SameBits st.buf.data data' st.buf.curBit st'.buf.curBit) :
    ∃ twin', Visits ctx twin log going twin' ∧ Twin data' st' twin' := by
  induction h generalizing twin with
  | done st => exact ⟨twin, .done twin, htwin⟩
  | stop hvisit =>
      obtain ⟨twin', hvisit', htwin'⟩ := hvisit.withData hsize hlen htwin hsame
      exact ⟨twin', .stop hvisit', htwin'⟩
  | @more st mid st' events rest going hvisit hrest ih =>
      have hdata := hvisit.sameData
      have hsize' : mid.buf.maxBit = mid.buf.data.length * 8 := by
        rw [hdata.bound, hdata.data]
        exact hsize
      have hle := hvisit.curBit_le hsize
      have hle' := hrest.curBit_le hsize'
      obtain ⟨twin', hvisit', htwin'⟩ := hvisit.withData hsize hlen htwin (hsame.mono (Nat.le_refl _) hle')
      obtain ⟨twin'', hrest', htwin''⟩ := ih hsize' (by rw [hdata.data]; exact hlen) htwin'
        (by rw [hdata.data]; exact hsame.mono hle (Nat.le_refl _))
      exact ⟨twin'', .more hvisit' hrest', htwin''⟩

/-! ### One body changed -/

/-- Outside the body of the leaf the streams have the same bits. -/
def SameOutside (data data' : List UInt8) (body : LeafBody) : Prop :=
  ∀ k, k < body.start ∨ body.start + body.bits ≤ k → bitOf data' k = bitOf data k

theorem not_mem_flagLog {i j : Nat} {node : FlatNode} {name : NodeName} {body : LeafBody} :
    ¬ Event.leaf j name body ∈ flagLog ctx i node buf := by
  intro hmem
  unfold flagLog at hmem
  split at hmem
  · exact absurd hmem (by simp)
  · split at hmem
    · exact absurd (List.mem_singleton.mp hmem) (by simp)
    · exact absurd hmem (by simp)

/-- A body is a window of the stream, ahead of the walk. -/
structure Taken (st : WalkState F) (body : LeafBody) : Prop where
  ahead : st.buf.curBit ≤ body.start
  room : body.start + body.bits ≤ st.buf.data.length * 8
  bytes : body.bytes = cut st.buf.data body.start body.bits

/-- A leaf is framed between the cursors of its visit. -/
theorem Visit.leaf_within {i : Nat} {name : NodeName} {body : LeafBody}
    (h : Visit ctx st events going st') (hsize : st.buf.maxBit = st.buf.data.length * 8)
    (hmem : .leaf i name body ∈ events) :
    Taken st body ∧ body.start + body.bits = st'.buf.curBit := by
  cases h with
  | skip hnode hkind hr => exact absurd hmem not_mem_flagLog
  | enter hnode hkind hr => exact absurd hmem not_mem_flagLog
  | pass hnode hkind hr => exact absurd hmem not_mem_flagLog
  | broken hnode hkind hr hframe => exact absurd hmem not_mem_flagLog
  | @leaf node buf hnode name' maxBytes hkind hr body' hframe =>
      rcases List.mem_append.mp hmem with hmem | hmem
      · exact absurd hmem not_mem_flagLog
      · obtain ⟨-, -, rfl⟩ := Event.leaf.inj (List.mem_singleton.mp hmem)
        have hle := shouldRead_bounds ctx node st.buf
        have hdata := sameData_shouldRead ctx node st.buf
        rw [hr] at hle hdata
        have hframed := (frame_iff (by rw [hdata.bound, hdata.data]; exact hsize)).mp hframe
        have hstart := hframed.start
        have hroom := hframed.room
        have hbytes := hframed.bytes
        simp only at hle hdata
        rw [hdata.data] at hroom hbytes
        exact ⟨⟨by omega, hroom, hbytes⟩, rfl⟩

theorem Visits.leaf_within {i : Nat} {name : NodeName} {body : LeafBody}
    (h : Visits ctx st log going st') (hsize : st.buf.maxBit = st.buf.data.length * 8)
    (hmem : .leaf i name body ∈ log) :
    Taken st body ∧ body.start + body.bits ≤ st'.buf.curBit := by
  induction h with
  | done st => exact absurd hmem (by simp)
  | stop hvisit =>
      obtain ⟨h1, h2⟩ := hvisit.leaf_within hsize hmem
      exact ⟨h1, h2.le⟩
  | @more st mid st' events rest going hvisit hrest ih =>
      have hdata := hvisit.sameData
      have hsize' : mid.buf.maxBit = mid.buf.data.length * 8 := by
        rw [hdata.bound, hdata.data]
        exact hsize
      rcases List.mem_append.mp hmem with hmem | hmem
      · obtain ⟨h1, h2⟩ := hvisit.leaf_within hsize hmem
        exact ⟨h1, h2.le.trans (hrest.curBit_le hsize')⟩
      · obtain ⟨⟨hahead, hroom, hbytes⟩, h2⟩ := ih hsize' hmem
        rw [hdata.data] at hroom hbytes
        exact ⟨⟨(hvisit.curBit_le hsize).trans hahead, hroom, hbytes⟩, h2⟩

/-- An element of two lists in a row is in the first or in the second. -/
theorem split_append {α : Type} {before after xs ys : List α} {a : α}
    (h : before ++ a :: after = xs ++ ys) :
    (∃ more, xs = before ++ a :: more ∧ after = more ++ ys)
      ∨ ∃ more, before = xs ++ more ∧ ys = more ++ a :: after := by
  rcases List.append_eq_append_iff.mp h with ⟨more, hxs, hmore⟩ | ⟨more, hbefore, hys⟩
  · rcases more with _ | ⟨first, more⟩
    · exact .inr ⟨[], by rw [hxs, List.append_nil, List.append_nil], hmore.symm⟩
    · obtain ⟨rfl, rfl⟩ := List.cons.inj hmore
      exact .inl ⟨more, hxs, rfl⟩
  · exact .inr ⟨more, hbefore, hys⟩

/-- The visit of the changed leaf. -/
theorem Visit.recut {i : Nat} {name : NodeName} {body : LeafBody}
    {before after : List (Event LeafBody)}
    (h : Visit ctx st (before ++ .leaf i name body :: after) going st')
    (hsize : st.buf.maxBit = st.buf.data.length * 8) (hlen : data'.length = st.buf.data.length)
    (htwin : Twin data' st twin) (hsame : SameOutside st.buf.data data' body) :
    ∃ twin', Visit ctx twin (before ++ .leaf i name (SyncParse.recut data' body) :: after) going
        twin' ∧ Twin data' st' twin' := by
  obtain ⟨cursor, tbuf, out⟩ := twin
  obtain ⟨rfl, rfl⟩ := htwin
  have hmem : Event.leaf i name body ∈ before ++ .leaf i name body :: after := by simp
  generalize hevents : before ++ Event.leaf i name body :: after = events at h hmem
  cases h with
  | skip hnode hkind hr => exact absurd hmem not_mem_flagLog
  | enter hnode hkind hr => exact absurd hmem not_mem_flagLog
  | pass hnode hkind hr => exact absurd hmem not_mem_flagLog
  | broken hnode hkind hr hframe => exact absurd hmem not_mem_flagLog
  | @leaf node buf hnode name' maxBytes hkind hr body' hframe =>
      rcases List.mem_append.mp hmem with hmem | hmem
      · exact absurd hmem not_mem_flagLog
      · obtain ⟨rfl, rfl, rfl⟩ := Event.leaf.inj (List.mem_singleton.mp hmem)
        have hle := shouldRead_bounds ctx node st.buf
        have hdata := sameData_shouldRead ctx node st.buf
        rw [hr] at hle hdata
        have hsize' : buf.maxBit = buf.data.length * 8 := by
          rw [hdata.bound, hdata.data]
          exact hsize
        have hlen' : data'.length = buf.data.length := by
          rw [hdata.data]
          exact hlen
        have hstart := ((frame_iff hsize').mp hframe).start
        have hpre : SameBits st.buf.data data' st.buf.curBit body.start := by
          intro k _ hk
          exact hsame k (.inl hk)
        obtain ⟨hr', hflags⟩ := shouldRead_withData hlen hr
          (hpre.mono (Nat.le_refl _) (by omega)) st.cursor
        have hframe' : frame (buf.withData data') = some (SyncParse.recut data' body) := by
          rw [← hdata.data] at hpre
          rw [frame_withData hsize' hlen' (hpre.mono hle (by omega)), hframe]
          rfl
        -- the frame is the last event of its visit
        have hlast : before = flagLog ctx st.cursor node st.buf ∧ after = [] := by
          rcases split_append hevents with ⟨more, hflag, -⟩ | ⟨more, hbefore, hmore⟩
          · have hin : Event.leaf st.cursor name body ∈ flagLog ctx st.cursor node st.buf := by
              rw [hflag]
              exact List.mem_append_right before List.mem_cons_self
            exact absurd hin not_mem_flagLog
          · rcases more with _ | ⟨first, more⟩
            · exact ⟨by rw [hbefore, List.append_nil], (List.cons.inj hmore).2.symm⟩
            · exact absurd (congrArg List.length hmore) (by simp)
        rw [hlast.1, hlast.2, ← hflags]
        exact ⟨_, @Visit.leaf F _ ctx ⟨st.cursor, st.buf.withData data', out⟩ node _ hnode name maxBytes
          hkind hr' _ hframe', ⟨rfl, rfl⟩⟩

/-- **A run with the body of one leaf changed** makes the same visits, and only that body is
another. -/
theorem Visits.recut {i : Nat} {name : NodeName} {body : LeafBody}
    {before after : List (Event LeafBody)}
    (h : Visits ctx st (before ++ .leaf i name body :: after) going st')
    (hsize : st.buf.maxBit = st.buf.data.length * 8) (hlen : data'.length = st.buf.data.length)
    (htwin : Twin data' st twin) (hsame : SameOutside st.buf.data data' body) :
    ∃ twin', Visits ctx twin (before ++ .leaf i name (SyncParse.recut data' body) :: after) going twin'
      ∧ Twin data' st' twin' := by
  generalize hlog : before ++ .leaf i name body :: after = log at h
  induction h generalizing twin before with
  | done st => exact absurd hlog (by simp)
  | stop hvisit =>
      subst hlog
      obtain ⟨twin', hvisit', htwin'⟩ := hvisit.recut hsize hlen htwin hsame
      exact ⟨twin', .stop hvisit', htwin'⟩
  | @more st mid st' events rest going hvisit hrest ih =>
      have hdata := hvisit.sameData
      have hsize' : mid.buf.maxBit = mid.buf.data.length * 8 := by
        rw [hdata.bound, hdata.data]
        exact hsize
      have hlen' : data'.length = mid.buf.data.length := by
        rw [hdata.data]
        exact hlen
      rcases split_append hlog with ⟨more, rfl, rfl⟩ | ⟨more, rfl, rfl⟩
      · obtain ⟨-, hstop⟩ := hvisit.leaf_within hsize (List.mem_append_right before List.mem_cons_self)
        obtain ⟨twin', hvisit', htwin'⟩ := hvisit.recut hsize hlen htwin hsame
        have hrest' : SameBits mid.buf.data data' mid.buf.curBit st'.buf.curBit := by
          rw [hdata.data]
          intro k hk _
          exact hsame k (.inr (by omega))
        obtain ⟨twin'', hrun, htwin''⟩ := hrest.withData hsize' hlen' htwin' hrest'
        refine ⟨twin'', ?_, htwin''⟩
        rw [← List.cons_append, ← List.append_assoc]
        exact .more hvisit' hrun
      · obtain ⟨htaken, -⟩ := hrest.leaf_within hsize' (List.mem_append_right more List.mem_cons_self)
        have hstart := htaken.ahead
        have hfirst : SameBits st.buf.data data' st.buf.curBit mid.buf.curBit := by
          intro k _ hk
          exact hsame k (.inl (by omega))
        obtain ⟨twin', hvisit', htwin'⟩ := hvisit.withData hsize hlen htwin hfirst
        obtain ⟨twin'', hrun, htwin''⟩ := ih hsize' hlen' htwin' (by rw [hdata.data]; exact hsame) rfl
        refine ⟨twin'', ?_, htwin''⟩
        rw [List.append_assoc]
        exact .more hvisit' hrun

end

end SyncParse

end Baston.Rage
