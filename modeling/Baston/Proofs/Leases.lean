/-
A leased id belongs to one client, unless an old list gives it away.

Who holds a lease is written nowhere: the table only says `leased`, and a client's list
keeps every id it was ever handed, also those it used up and that somebody else leased
since.  The holder is therefore read off the history, and the invariant is that the
table and the clients agree with it.  It breaks at one place: a disconnection frees
whatever its list mentions and the table calls leased.
-/
import Baston.Proofs.IdTable
import Baston.Rage.LiteralRun

namespace Baston.Zone

open Assoc Baston.Rage Trace ServerGameState

variable {F : Type} [Scalar F]

/-- A turn of the record loop is an accepted create on `id`. -/
def createdOn (id : UInt16) (y : Entry (ServerGameState F) InboundRecord Bool) : Bool :=
  match y.op with
  | .clone true id' _ _ _ _ => id' = id && y.answer
  | _ => false

/-- The client an outstanding lease of `id` belongs to, by the history: the last one it was
handed to, while that client is connected and nothing was created on the id. -/
def holder (lz4 : Lz4) :
    List (Entry (ServerGameState F) (Op F) Answer) → UInt16 → Option UInt32
  | [], _ => none
  | x :: past, id =>
    match x.op, x.answer with
    | .lease c _, .leased ids _ => if id ∈ ids then some c else holder lz4 past id
    | .removeClient _ c, _ =>
      if holder lz4 past id = some c then none else holder lz4 past id
    | .ingest source payload, _ =>
      if (x.pre.trail lz4 source payload).any (createdOn id) then none else holder lz4 past id
    | .spawnWithId id' _, .flag true => if id = id' then none else holder lz4 past id
    | .spawn _, .spawned (some id') => if id = id' then none else holder lz4 past id
    | _, _ => holder lz4 past id

/-- A client leaves with no id on its list that is out on a lease to another. -/
def leavesOwnLeases (lz4 : Lz4) (past : List (Entry (ServerGameState F) (Op F) Answer))
    (x : Entry (ServerGameState F) (Op F) Answer) : Bool :=
  match x.op with
  | .removeClient _ a => (x.pre.leasedBy a).all fun id => (holder lz4 past id).all (· = a)
  | _ => true

theorem holder_quiet {lz4 : Lz4} {past : List (Entry (ServerGameState F) (Op F) Answer)}
    {s s' : ServerGameState F} {op : Op F} {a : Answer} {id : UInt16} (h : op.Quiet) :
    holder lz4 (⟨s, op, a, s'⟩ :: past) id = holder lz4 past id := by
  cases op <;> first | exact h.elim | rfl

/-- The table and the clients know of a lease. -/
def Outstanding (s : ServerGameState F) (id : UInt16) (b : UInt32) : Prop :=
  s.idState id = some .leased ∧ b ∈ s.clients

namespace Outstanding

variable {s s' : ServerGameState F} {id : UInt16} {b : UInt32}

omit [Scalar F] in
/-- No entity lives under a leased id. -/
theorem not_live (h : Outstanding s id b) (ok : TableOK s) : id ∉ s.entities := by
  intro hlive
  have hused := (ok.used id).mpr hlive
  rw [h.1] at hused
  exact absurd hused (by simp)

omit [Scalar F] in
/-- Marking another id. -/
theorem setId (h : Outstanding s id b) {id' : UInt16} {st : IdState} (hne : id ≠ id')
    (bound : id'.toNat < s.ids.length) (hids : s'.ids = s.ids.set id'.toNat st)
    (hcli : s'.clients = s.clients) : Outstanding s' id b := by
  constructor
  · show s'.ids[id.toNat]? = _
    rw [hids, getElem?_setId bound, if_neg hne]
    exact h.1
  · rw [hcli]
    exact h.2

/-- One record: the lease stands, or the record created on the id. -/
theorem record (h : Outstanding s id b) (ok : TableOK s) {source : UInt32}
    {r : InboundRecord} {accepted : Bool} (heff : RecordEffect source s r s' accepted) :
    Outstanding s' id b ∨ createdOn id ⟨s, r, accepted, s'⟩ = true := by
  cases heff with
  | kept => exact .inl h
  | @created id' u ty token data _ _ _ bound =>
      by_cases hid : id = id'
      · exact .inr (by simp [createdOn, hid])
      · exact .inl (h.setId hid bound rfl rfl)
  | synced => exact .inl h
  | @removed id' u e live _ _ _ bound =>
      have hid : id ≠ id' := by
        rintro rfl
        exact h.not_live ok (TableOK.mem_of_lookup live)
      exact .inl (h.setId hid bound rfl rfl)
  | takenOver => exact .inl h
  | @noted _ f _ _ =>
      left
      refine ⟨h.1, ?_⟩
      show b ∈ Map.modify source f (s.addClient source).clients
      rw [Map.mem_modify]
      exact (mem_addClient s source b).mpr (.inr h.2)

theorem ingest {lz4 : Lz4} (h : Outstanding s id b) (ok : TableOK s) {source : UInt32}
    {payload : List UInt8} {out : IngestOutcome}
    (hnone : (s.trail lz4 source payload).any (createdOn id) = false)
    (hin : s.ingestClonePayload lz4 source payload = some (s', out)) : Outstanding s' id b := by
  have key : TableOK s' ∧ (Outstanding s' id b ∨
      ∃ y ∈ s.trail lz4 source payload, createdOn id y = true) := by
    refine ingest_along (I := fun turns t => TableOK t ∧ (Outstanding t id b ∨
      ∃ y ∈ turns, createdOn id y = true)) (P := fun _ _ => True) (fun _ => ⟨ok, .inl h⟩)
      ⟨ok.addClient source, .inl ⟨h.1, (mem_addClient s source b).mpr (.inr h.2)⟩⟩ ?_
      (fun _ _ => trivial) hin
    intro past t t' r accepted hI _ hr
    have heff := applyRecord_effect hr
    refine ⟨hI.1.record heff, ?_⟩
    rcases hI.2 with hout | ⟨y, hy, hmade⟩
    · rcases hout.record hI.1 heff with hout | hmade
      · exact .inl hout
      · exact .inr ⟨_, List.mem_cons_self, hmade⟩
    · exact .inr ⟨y, List.mem_cons_of_mem _ hy, hmade⟩
  rcases key.2 with hout | ⟨y, hy, hmade⟩
  · exact hout
  · rw [List.any_eq_false] at hnone
    exact absurd hmade (hnone y hy)

omit [Scalar F] in
/-- A disconnection whose list does not mention the id. -/
theorem removeClient (h : Outstanding s id b) (ok : TableOK s) {ord : IterOrder UInt16}
    {a : UInt32} {ids : List UInt16} (hne : b ≠ a) (hlist : id ∉ s.leasedBy a)
    (hrem : s.removeClient ord a = some (s', ids)) : Outstanding s' id b := by
  refine ⟨?_, by rw [removeClient_clients hrem, AList.mem_erase]; exact ⟨hne, h.2⟩⟩
  obtain ⟨table, t, htable, rfl, ht, rfl⟩ := removeClient_cases hrem
  have hnot : id ∉ s.ownedIds ord a := by
    intro hmem
    obtain ⟨e, he, -⟩ := mem_ownedIds.mp hmem
    exact h.not_live ok (TableOK.mem_of_lookup he)
  have hkept := (dropOrphans_idState ht id).2 hnot
  have hreleased := releaseLeases_getElem? htable id
  rw [if_neg (fun hc => hlist hc.1)] at hreleased
  exact hkept.trans (hreleased.trans h.1)

end Outstanding

/-- Every outstanding lease of the history is one the table and the clients know of. -/
theorem holder_outstanding {lz4 : Lz4} {init : ServerGameState F} (hinit : TableOK init)
    {tr : List (Entry (ServerGameState F) (Op F) Answer)} {s : ServerGameState F}
    (run : Run (step lz4) init tr s)
    (hcond : Along (fun past x => leavesOwnLeases lz4 past x = true) tr) :
    TableOK s ∧ ∀ id b, holder lz4 tr id = some b → Outstanding s id b := by
  refine run.invariant (I := fun tr s => TableOK s ∧ ∀ id b, holder lz4 tr id = some b →
    Outstanding s id b) (P := fun past x => leavesOwnLeases lz4 past x = true)
    ⟨hinit, fun id b h => absurd h (by simp [holder])⟩ ?_ hcond
  intro past s op ans s' _ hI hstep hP
  obtain ⟨ok, ih⟩ := hI
  refine ⟨ok.step hstep, ?_⟩
  intro id b hid
  cases step_effect hstep with
  | ingested h =>
      simp only [holder] at hid
      split at hid
      · exact absurd hid (by simp)
      · rename_i hnone
        exact (ih id b hid).ingest ok (by simpa using hnone) h
  | joined => exact ⟨(ih id b hid).1, (mem_addClient _ _ _).mpr (.inr (ih id b hid).2)⟩
  | @left ord a ids _ h =>
      simp only [holder] at hid
      split at hid
      · exact absurd hid (by simp)
      · rename_i hnot
        have hne : b ≠ a := by
          rintro rfl
          exact hnot hid
        refine (ih id b hid).removeClient ok hne ?_ h
        -- on its list the id would be its own lease
        intro hmem
        simp only [leavesOwnLeases, List.all_eq_true] at hP
        have := hP id hmem
        rw [hid] at this
        exact hne (by simpa using this)
  | leased h =>
      obtain ⟨-, hids, -, -, -, -, -, -, hmem⟩ := leaseObjectIds_cases h
      simp only [holder] at hid
      split at hid
      · rename_i hin
        refine ⟨by rw [hids, if_pos hin], ?_⟩
        rw [hmem]
        exact .inl (Option.some.inj hid).symm
      · rename_i hin
        refine ⟨by rw [hids, if_neg hin]; exact (ih id b hid).1, ?_⟩
        rw [hmem]
        exact .inr (ih id b hid).2
  | @spawned _ _ id' req accepted _ hop h =>
      rcases spawnWithId_cases h with ⟨rfl, token, rfl⟩ | ⟨rfl, hfree, -, -, createData, -, rfl⟩
      · rcases hop with ⟨rfl, rfl⟩ | ⟨rfl, -, rfl⟩
        · exact ih id b hid
        · exact ih id b hid
      · have hpast : id ≠ id' ∧ holder lz4 past id = some b := by
          rcases hop with ⟨rfl, rfl⟩ | ⟨rfl, -, rfl⟩
          · simpa [holder] using hid
          · simpa [holder] using hid
        exact (ih id b hpast.2).setId hpast.1 (idState_isSome hfree) rfl rfl
  | exhausted => exact ih id b hid
  | despawned h =>
      rcases despawnEntity_cases h with ⟨-, rfl, -⟩ | ⟨hlive, bound, rfl, -⟩
      · exact ih id b hid
      · refine (ih id b hid).setId ?_ bound rfl rfl
        rintro rfl
        exact (ih id b hid).not_live ok hlive
  | rewritten quiet _ => exact ih id b (by rwa [holder_quiet quiet] at hid)
  | routed quiet => exact ih id b (by rwa [holder_quiet quiet] at hid)
  | clock => exact ih id b hid
  | viewed quiet hlease =>
      obtain ⟨hst, hmem⟩ := ih id b (by rwa [holder_quiet quiet] at hid)
      refine ⟨hst, ?_⟩
      rw [← AList.lookup_isSome] at hmem ⊢
      have := congrArg Option.isSome (hlease b)
      simpa [hmem] using this

/-- **Leases are exclusive** in every run in which no client leaves with an id on its list that
is out on a lease to another: an id with an outstanding lease is handed to nobody and
never allocated to a server entity, and the disconnection of anybody else leaves it
leased. -/
theorem leases_exclusive (lz4 : Lz4) (bigMode lengthHack : Bool) (build : GameBuild)
    {tr : List (Entry (ServerGameState F) (Op F) Answer)} {s : ServerGameState F}
    (run : Run (step lz4) (ServerGameState.withBuild bigMode lengthHack build) tr s)
    (hcond : Along (fun past x => leavesOwnLeases lz4 past x = true) tr)
    (id : UInt16) (b : UInt32) (hid : holder lz4 tr id = some b) :
    b ∈ s.clients ∧
    (∀ c n, ∃ s' ids packet, s.leaseObjectIds c n = some (s', ids, packet) ∧ id ∉ ids) ∧
    (∃ r, s.allocateServerObjectId = some r ∧ r ≠ some id) ∧
    ∀ ord a, a ≠ b → (∀ i ∈ s.leasedBy a, ∀ c, holder lz4 tr i = some c → c = a) →
      ∃ s' ids, s.removeClient ord a = some (s', ids) ∧ s'.idState id = some .leased := by
  obtain ⟨ok, hout⟩ := holder_outstanding (TableOK.withBuild bigMode lengthHack build) run hcond
  have hlease := hout id b hid
  have hsize : s.maxObjectId.toNat < s.ids.length := by
    rw [ok.size]
    omega
  have hnotFree : s.idState id ≠ some .free := by
    rw [hlease.1]
    simp
  refine ⟨hlease.2, ?_, ?_, ?_⟩
  · intro c n
    obtain ⟨⟨s', ids, packet⟩, h⟩ := leaseObjectIds_total c n hsize
    refine ⟨s', ids, packet, h, fun hmem => ?_⟩
    exact hnotFree ((leaseObjectIds_cases h).1 id hmem).1
  · obtain ⟨r, hr⟩ := allocateScan_total hsize
    refine ⟨r, hr, ?_⟩
    rintro rfl
    exact hnotFree (allocateServerObjectId_spec hr).1
  · intro ord a hne hlist
    obtain ⟨⟨s', ids⟩, h⟩ := removeClient_total ord (ok.leases a) fun i hi => ok.key_lt hi
    refine ⟨s', ids, h, (hlease.removeClient ok hne.symm ?_ h).1⟩
    intro hmem
    exact hne (hlist id hmem b hid).symm

/-! ### Two clients and an old list -/

/-- Clients 1 and 2 lease an id each, and client 2 leaves. -/
theorem lease_survives_neighbour :
    ∃ tr s, Run (step LiteralRun.lz4)
        (ServerGameState.withBuild false false default : ServerGameState Float32) tr s ∧
      Along (fun past x => leavesOwnLeases LiteralRun.lz4 past x = true) tr ∧
      holder LiteralRun.lz4 tr 1 = some 1 ∧
      1 ∈ s.clients ∧
      (∀ c n, ∃ s' ids packet, s.leaseObjectIds c n = some (s', ids, packet) ∧ 1 ∉ ids) ∧
      (∃ r, s.allocateServerObjectId = some r ∧ r ≠ some 1) ∧
      ∀ ord a, a ≠ 1 → (∀ i ∈ s.leasedBy a, ∀ c, holder LiteralRun.lz4 tr i = some c → c = a) →
        ∃ s' ids, s.removeClient ord a = some (s', ids) ∧ s'.idState 1 = some .leased := by
  obtain ⟨tr, s, run, hcheck⟩ := exists_run (step LiteralRun.lz4)
    (ServerGameState.withBuild false false default : ServerGameState Float32)
    [.lease 1 1, .lease 2 1, .removeClient (.stored UInt16) 2]
    (fun tr _ => decide (Along (fun past x => leavesOwnLeases LiteralRun.lz4 past x = true) tr)
      && holder LiteralRun.lz4 tr 1 = some 1) (by decide +kernel)
  simp only [Bool.and_eq_true, decide_eq_true_eq] at hcheck
  exact ⟨tr, s, run, hcheck.1, hcheck.2,
    leases_exclusive LiteralRun.lz4 false false default run hcheck.1 1 1 hcheck.2⟩

/-- Client 1 leases id 1, creates on it and removes it again; client 2 leases it; client 1
leaves, and client 3 is handed the id client 2 still holds. -/
theorem lease_handed_out_twice :
    ∃ tr s, Run (step LiteralRun.lz4)
        (ServerGameState.withBuild false false default : ServerGameState Float32) tr s ∧
      holder LiteralRun.lz4 tr 1 = some 2 ∧ 2 ∈ s.clients ∧
      ∃ s' ids packet, s.leaseObjectIds 3 1 = some (s', ids, packet) ∧ 1 ∈ ids := by
  obtain ⟨tr, s, run, hcheck⟩ := exists_run (step LiteralRun.lz4)
    (ServerGameState.withBuild false false default : ServerGameState Float32)
    [.lease 1 1,
      .ingest 1 (LiteralRun.clonePayload
        [0x20, 0x00, 0x20, 0x01, 0x00, 0x00, 0x00, 0x00, 0x50, 0x00, 0xE0]),
      .ingest 1 (LiteralRun.clonePayload [0x60, 0x01, 0x00, 0x01, 0xE0]),
      .lease 2 1, .removeClient (.stored UInt16) 1]
    (fun tr s => holder LiteralRun.lz4 tr 1 = some 2 && decide (2 ∈ s.clients)
      && (s.leaseObjectIds 3 1).any fun r => 1 ∈ r.2.1) (by decide +kernel)
  simp only [Bool.and_eq_true, decide_eq_true_eq, Option.any_eq_true] at hcheck
  obtain ⟨⟨hholder, hmem⟩, ⟨s', ids, packet⟩, hlease, hin⟩ := hcheck
  exact ⟨tr, s, run, hholder, hmem, s', ids, packet, hlease, hin⟩

end Baston.Zone
