/-
What each operation that touches the id table does, said once.

Every lemma here inverts one operation of `OneSync`: what it answers, what it leaves
in the registry and in the table, and when it cannot panic.  The invariants are
proved from these and never unfold an operation again.
-/
import Baston.Proofs.Records

namespace Baston.Zone

open Assoc Baston.Rage Trace

variable {F : Type}

namespace ServerGameState

/-! ### The table -/

theorem getElem?_setId {ids : List IdState} {id : UInt16} (h : id.toNat < ids.length)
    (st : IdState) (id' : UInt16) :
    (ids.set id.toNat st)[id'.toNat]? = if id' = id then some st else ids[id'.toNat]? := by
  by_cases hid : id' = id
  · subst hid
    rw [if_pos rfl, List.getElem?_set_self h]
  · rw [if_neg hid]
    apply List.getElem?_set_ne
    intro heq
    exact hid (UInt16.toNat.inj heq).symm

theorem idState_isSome {s : ServerGameState F} {id : UInt16} {st : IdState}
    (h : s.idState id = some st) : id.toNat < s.ids.length :=
  (List.getElem?_eq_some_iff.mp h).1

/-! ### Lease lists -/

theorem leasedBy_addClient (s : ServerGameState F) (source c : UInt32) :
    (s.addClient source).leasedBy c = s.leasedBy c := by
  unfold leasedBy addClient
  rw [Map.lookup_entryOrInsert]
  by_cases h : c = source
  · subst h
    cases hl : s.clients.lookup c with
    | none => simp [ClientState.new]
    | some st => simp
  · rw [if_neg h]

theorem mem_addClient (s : ServerGameState F) (source c : UInt32) :
    c ∈ (s.addClient source).clients ↔ c = source ∨ c ∈ s.clients := by
  unfold addClient
  rw [← AList.lookup_isSome, Map.lookup_entryOrInsert, ← AList.lookup_isSome]
  by_cases h : c = source
  · simp [h]
  · simp [h]

theorem leasedBy_modify {s : ServerGameState F} {source : UInt32}
    {f : ClientState F → ClientState F} (hf : ∀ c, (f c).leased = c.leased) (c : UInt32) :
    leasedBy { s with clients := s.clients.modify source f } c = s.leasedBy c := by
  unfold leasedBy
  rw [Map.lookup_modify]
  by_cases h : c = source
  · rw [if_pos h, Option.map_map]
    congr 2
    funext st
    exact hf st
  · rw [if_neg h]

/-! ### Disconnection -/

theorem releaseLease_cases {ids ids' : List IdState} {id : UInt16}
    (h : releaseLease ids id = some ids') :
    (ids[id.toNat]? = some .leased ∧ ids' = ids.set id.toNat .free) ∨
      (ids[id.toNat]? ≠ some .leased ∧ ids' = ids) := by
  unfold releaseLease at h
  split at h
  · exact absurd h (by simp)
  · rename_i hl
    exact .inl ⟨hl, (Option.some.inj h).symm⟩
  · rename_i st hne hl
    refine .inr ⟨?_, (Option.some.inj h).symm⟩
    rw [hl]
    exact fun heq => hne (Option.some.inj heq)

/-- Releasing a list turns its leased ids free and leaves every other id as it was. -/
theorem releaseLeases_getElem? : ∀ {l : List UInt16} {ids ids' : List IdState},
    l.foldlM releaseLease ids = some ids' → ∀ id : UInt16,
      ids'[id.toNat]? = if id ∈ l ∧ ids[id.toNat]? = some .leased then some .free
        else ids[id.toNat]? := by
  intro l
  induction l with
  | nil =>
      intro ids ids' h id
      rw [List.foldlM_nil] at h
      rw [← Option.some.inj h, if_neg (by simp)]
  | cons a rest ih =>
      intro ids ids' h id
      rw [List.foldlM_cons] at h
      obtain ⟨mid, hmid, h⟩ := Option.bind_eq_some_iff.mp h
      rw [ih h id]
      rcases releaseLease_cases hmid with ⟨hl, rfl⟩ | ⟨hl, rfl⟩
      · rw [getElem?_setId (List.getElem?_eq_some_iff.mp hl).1]
        by_cases hid : id = a
        · subst hid
          simp [hl]
        · simp [hid]
      · by_cases hid : id = a
        · subst hid
          simp [hl]
        · simp [hid]

theorem releaseLeases_length {l : List UInt16} {ids ids' : List IdState}
    (h : l.foldlM releaseLease ids = some ids') : ids'.length = ids.length := by
  refine foldlM_keeps (I := fun t => t.length = ids.length) ?_ rfl h
  intro a _ t t' ht hstep
  rcases releaseLease_cases hstep with ⟨-, rfl⟩ | ⟨-, rfl⟩
  · rw [List.length_set, ht]
  · exact ht

theorem releaseLeases_total {l : List UInt16} {ids : List IdState}
    (h : ∀ id ∈ l, id.toNat < ids.length) : ∃ ids', l.foldlM releaseLease ids = some ids' := by
  have turn : ∀ a ∈ l, ∀ {t : List IdState}, t.length = ids.length →
      ∃ t', releaseLease t a = some t' ∧ t'.length = ids.length := by
    intro a ha t ht
    have hlt : a.toNat < t.length := by
      rw [ht]
      exact h a ha
    unfold releaseLease
    cases hst : t[a.toNat]? with
    | none => exact absurd (List.getElem?_eq_none_iff.mp hst) (by omega)
    | some st =>
        cases st with
        | free => exact ⟨t, rfl, ht⟩
        | leased => exact ⟨t.set a.toNat .free, rfl, by rw [List.length_set, ht]⟩
        | used => exact ⟨t, rfl, ht⟩
  obtain ⟨ids', hids, -⟩ := foldlM_total turn rfl
  exact ⟨ids', hids⟩

/-- What a disconnection makes of an entity the leaving client owned. -/
def orphan (e : ServerEntity F) : Option (ServerEntity F) :=
  if e.serverOwned then some { e with owner := 0 } else none

/-- One turn of the orphan loop: the server's own entity is kept, any other goes. -/
theorem dropOrphan_cases {s s' : ServerGameState F} {id : UInt16}
    (h : s.dropOrphan id = some s') :
    (∃ e, s.entities.lookup id = some e ∧ e.serverOwned = true ∧
        s' = s.afterUpdate id { e with owner := 0 }) ∨
      ((∀ e, s.entities.lookup id = some e → e.serverOwned = false) ∧
        id.toNat < s.ids.length ∧ s' = s.afterRemove id) := by
  unfold dropOrphan at h
  cases hl : s.entities.lookup id with
  | none =>
      rw [hl] at h
      obtain ⟨t, ht, h⟩ := Option.bind_eq_some_iff.mp h
      obtain ⟨bound, rfl⟩ := setIdState_eq_some ht
      refine .inr ⟨by simp, bound, ?_⟩
      rw [← Option.some.inj h]
      have herase : s.entities.erase id = s.entities := by
        apply AList.ext
        exact List.kerase_of_notMem_keys (AList.lookup_eq_none.mp hl)
      unfold afterRemove
      rw [herase]
  | some e =>
      rw [hl] at h
      simp only at h
      split at h
      · rename_i hs
        exact .inl ⟨e, rfl, hs, (Option.some.inj h).symm⟩
      · rename_i hs
        obtain ⟨t, ht, h⟩ := Option.bind_eq_some_iff.mp h
        obtain ⟨bound, rfl⟩ := setIdState_eq_some ht
        refine .inr ⟨?_, bound, (Option.some.inj h).symm⟩
        intro e' he'
        rw [← Option.some.inj he']
        simpa using hs

theorem dropOrphan_total {s : ServerGameState F} {id : UInt16} (h : id.toNat < s.ids.length) :
    ∃ s', s.dropOrphan id = some s' := by
  unfold dropOrphan
  cases s.entities.lookup id with
  | none =>
      simp only [setIdState, if_pos h]
      exact ⟨_, rfl⟩
  | some e =>
      simp only
      split
      · exact ⟨_, rfl⟩
      · simp only [setIdState, if_pos h]
        exact ⟨_, rfl⟩

/-- The orphan loop, entity by entity. -/
theorem dropOrphans_lookup : ∀ {l : List UInt16} {s s' : ServerGameState F},
    l.foldlM dropOrphan s = some s' → ∀ id,
      s'.entities.lookup id
        = if id ∈ l then (s.entities.lookup id).bind orphan else s.entities.lookup id := by
  intro l
  induction l with
  | nil =>
      intro s s' h id
      rw [List.foldlM_nil] at h
      rw [← Option.some.inj h, if_neg (by simp)]
  | cons a rest ih =>
      intro s s' h id
      rw [List.foldlM_cons] at h
      obtain ⟨t, ht, h⟩ := Option.bind_eq_some_iff.mp h
      rw [ih h id]
      have hstep : t.entities.lookup id
          = if id = a then (s.entities.lookup a).bind orphan else s.entities.lookup id := by
        rcases dropOrphan_cases ht with ⟨e, he, hs, rfl⟩ | ⟨hs, -, rfl⟩
        · show (s.entities.insert a _).lookup id = _
          rw [Map.lookup_insert_of, he]
          simp [orphan, hs]
        · show (s.entities.erase a).lookup id = _
          rw [Map.lookup_erase_of]
          cases hl : s.entities.lookup a with
          | none => simp
          | some e => simp [orphan, hs e hl]
      rw [hstep]
      by_cases hid : id = a
      · subst hid
        -- an entity named twice is not changed the second time
        cases hl : s.entities.lookup id with
        | none => simp
        | some e => cases hs : e.serverOwned <;> simp [orphan, hs]
      · simp [hid]

/-- The orphan loop frees the id of every entity it lets go, and no other. -/
theorem dropOrphans_idState : ∀ {l : List UInt16} {s s' : ServerGameState F},
    l.foldlM dropOrphan s = some s' → ∀ id,
      (id ∈ l → (∀ e, s.entities.lookup id = some e → e.serverOwned = false) →
        s'.idState id = some .free) ∧ (id ∉ l → s'.idState id = s.idState id) := by
  intro l
  induction l with
  | nil =>
      intro s s' h id
      rw [List.foldlM_nil] at h
      rw [← Option.some.inj h]
      exact ⟨fun hmem => absurd hmem List.not_mem_nil, fun _ => rfl⟩
  | cons a rest ih =>
      intro s s' h id
      rw [List.foldlM_cons] at h
      obtain ⟨t, ht, h⟩ := Option.bind_eq_some_iff.mp h
      obtain ⟨hin, hout⟩ := ih h id
      by_cases hid : id = a
      · subst hid
        refine ⟨fun _ hclient => ?_, fun hnot => absurd List.mem_cons_self hnot⟩
        rcases dropOrphan_cases ht with ⟨e, he, hs, -⟩ | ⟨-, bound, rfl⟩
        · exact absurd (hclient e he) (by simp [hs])
        · have hfree : (s.afterRemove id).idState id = some .free := by
            show (s.ids.set id.toNat .free)[id.toNat]? = _
            rw [getElem?_setId bound, if_pos rfl]
          have hgone : ∀ e, (s.afterRemove id).entities.lookup id = some e →
              e.serverOwned = false := by
            intro e he
            have : (s.entities.erase id).lookup id = some e := he
            rw [AList.lookup_erase] at this
            exact absurd this (by simp)
          by_cases hrest : id ∈ rest
          · exact hin hrest hgone
          · rw [hout hrest, hfree]
      · have hsame : t.entities.lookup id = s.entities.lookup id ∧
            t.idState id = s.idState id := by
          rcases dropOrphan_cases ht with ⟨e, -, -, rfl⟩ | ⟨-, bound, rfl⟩
          · exact ⟨AList.lookup_insert_ne hid, rfl⟩
          · refine ⟨AList.lookup_erase_ne hid, ?_⟩
            show (s.ids.set a.toNat .free)[id.toNat]? = _
            rw [getElem?_setId bound, if_neg hid]
            rfl
        rw [hsame.1] at hin
        rw [hsame.2] at hout
        refine ⟨fun hmem => hin ((List.mem_cons.mp hmem).resolve_left hid), fun hnot => ?_⟩
        exact hout fun hmem => hnot (List.mem_cons_of_mem _ hmem)

/-- Disconnection in its three parts: leases, orphans, routing. -/
theorem removeClient_cases {s s' : ServerGameState F} {ord : IterOrder UInt16}
    {source : UInt32} {orphaned : List UInt16}
    (h : s.removeClient ord source = some (s', orphaned)) :
    ∃ ids t, (s.leasedBy source).foldlM releaseLease s.ids = some ids ∧
      orphaned = s.ownedIds ord source ∧
      orphaned.foldlM dropOrphan { s with clients := s.clients.erase source, ids := ids }
        = some t ∧
      s' = { t with routingBuckets := t.routingBuckets.removePlayer source } := by
  unfold removeClient at h
  obtain ⟨ids, hids, h⟩ := Option.bind_eq_some_iff.mp h
  obtain ⟨t, ht, h⟩ := Option.bind_eq_some_iff.mp h
  obtain ⟨rfl, rfl⟩ := Prod.mk.inj (Option.some.inj h)
  exact ⟨ids, t, hids, rfl, ht, rfl⟩

theorem mem_ownedIds {s : ServerGameState F} {ord : IterOrder UInt16} {source : UInt32}
    {id : UInt16} :
    id ∈ s.ownedIds ord source ↔ ∃ e, s.entities.lookup id = some e ∧ e.owner = source := by
  unfold ownedIds
  rw [List.mem_map]
  constructor
  · rintro ⟨⟨k, e⟩, hmem, rfl⟩
    obtain ⟨hvisit, hown⟩ := List.mem_filter.mp hmem
    exact ⟨e, Map.mem_visit.mp hvisit, by simpa using hown⟩
  · rintro ⟨e, he, hown⟩
    exact ⟨(id, e), List.mem_filter.mpr ⟨Map.mem_visit.mpr he, by simpa using hown⟩, rfl⟩

/-- The orphan loop touches nothing of the clients or the mode, and keeps the table's size. -/
theorem dropOrphans_frame {l : List UInt16} {s s' : ServerGameState F}
    (h : l.foldlM dropOrphan s = some s') :
    s'.clients = s.clients ∧ s'.maxObjectId = s.maxObjectId ∧ s'.lengthHack = s.lengthHack ∧
      s'.ids.length = s.ids.length ∧ s'.frameIndex = s.frameIndex ∧ s'.build = s.build := by
  refine foldlM_keeps (I := fun t : ServerGameState F => t.clients = s.clients ∧
    t.maxObjectId = s.maxObjectId ∧ t.lengthHack = s.lengthHack ∧
      t.ids.length = s.ids.length ∧ t.frameIndex = s.frameIndex ∧ t.build = s.build) ?_
    ⟨rfl, rfl, rfl, rfl, rfl, rfl⟩ h
  intro a _ t t' ht hstep
  rcases dropOrphan_cases hstep with ⟨e, -, -, rfl⟩ | ⟨-, -, rfl⟩
  · exact ht
  · obtain ⟨h1, h2, h3, h4, h5, h6⟩ := ht
    exact ⟨h1, h2, h3, by rw [← h4]; exact List.length_set, h5, h6⟩

/-- **What a disconnection leaves of the registry.**  The client's own entities are gone, the
server's are ownerless again, and everybody else's are untouched. -/
theorem removeClient_lookup {s s' : ServerGameState F} {ord : IterOrder UInt16}
    {source : UInt32} {orphaned : List UInt16}
    (h : s.removeClient ord source = some (s', orphaned)) (id : UInt16) :
    s'.entities.lookup id
      = (s.entities.lookup id).bind fun e => if e.owner = source then orphan e else some e := by
  obtain ⟨ids, t, -, rfl, ht, rfl⟩ := removeClient_cases h
  show t.entities.lookup id = _
  rw [dropOrphans_lookup ht id]
  show (if _ then (s.entities.lookup id).bind orphan else s.entities.lookup id) = _
  cases hl : s.entities.lookup id with
  | none => simp
  | some e =>
      by_cases hown : e.owner = source
      · rw [if_pos (mem_ownedIds.mpr ⟨e, hl, hown⟩)]
        simp [hown]
      · rw [if_neg]
        · simp [hown]
        · intro hmem
          obtain ⟨e', he', hown'⟩ := mem_ownedIds.mp hmem
          rw [hl] at he'
          rw [← Option.some.inj he'] at hown'
          exact hown hown'

theorem removeClient_clients {s s' : ServerGameState F} {ord : IterOrder UInt16}
    {source : UInt32} {orphaned : List UInt16}
    (h : s.removeClient ord source = some (s', orphaned)) :
    s'.clients = s.clients.erase source := by
  obtain ⟨ids, t, -, -, ht, rfl⟩ := removeClient_cases h
  exact (dropOrphans_frame ht).1

theorem dropOrphans_playerBucket {l : List UInt16} {s s' : ServerGameState F}
    (h : l.foldlM dropOrphan s = some s') (c : UInt32) :
    s'.routingBuckets.playerBucket c = s.routingBuckets.playerBucket c := by
  refine foldlM_keeps (I := fun t : ServerGameState F =>
    t.routingBuckets.playerBucket c = s.routingBuckets.playerBucket c) ?_ rfl h
  intro a _ t t' ht hstep
  rcases dropOrphan_cases hstep with ⟨e, -, -, rfl⟩ | ⟨-, -, rfl⟩
  · exact ht
  · exact (RoutingBucketRegistry.playerBucket_removeEntity _ _ _).trans ht

/-- A leaving client falls back to bucket 0; the others stay where they are. -/
theorem removeClient_playerBucket {s s' : ServerGameState F} {ord : IterOrder UInt16}
    {source : UInt32} {orphaned : List UInt16}
    (h : s.removeClient ord source = some (s', orphaned)) (c : UInt32) :
    s'.routingBuckets.playerBucket c
      = if c = source then 0 else s.routingBuckets.playerBucket c := by
  obtain ⟨ids, t, -, -, ht, rfl⟩ := removeClient_cases h
  show ((t.routingBuckets.players.erase source).lookup c).getD 0 = _
  rw [Map.lookup_erase_of]
  split
  · rfl
  · exact dropOrphans_playerBucket ht c

/-- A leaving client's own entities free their ids. -/
theorem removeClient_frees {s s' : ServerGameState F} {ord : IterOrder UInt16}
    {source : UInt32} {orphaned : List UInt16}
    (h : s.removeClient ord source = some (s', orphaned)) {id : UInt16} {e : ServerEntity F}
    (he : s.entities.lookup id = some e) (hown : e.owner = source)
    (hclient : e.serverOwned = false) : id ∉ s'.entities ∧ s'.idState id = some .free := by
  constructor
  · rw [← AList.lookup_eq_none, removeClient_lookup h, he]
    simp [hown, orphan, hclient]
  · obtain ⟨ids, t, -, rfl, ht, rfl⟩ := removeClient_cases h
    refine (dropOrphans_idState ht id).1 (mem_ownedIds.mpr ⟨e, he, hown⟩) ?_
    intro e' he'
    have : s.entities.lookup id = some e' := he'
    rw [he] at this
    rw [← Option.some.inj this, hclient]

theorem removeClient_total {s : ServerGameState F} (ord : IterOrder UInt16) {source : UInt32}
    (hlease : ∀ id ∈ s.leasedBy source, id.toNat < s.ids.length)
    (hkeys : ∀ id ∈ s.entities, id.toNat < s.ids.length) :
    ∃ r, s.removeClient ord source = some r := by
  obtain ⟨ids, hids⟩ := releaseLeases_total hlease
  have turn : ∀ a ∈ s.ownedIds ord source, ∀ {t : ServerGameState F},
      t.ids.length = s.ids.length → ∃ t', t.dropOrphan a = some t' ∧
        t'.ids.length = s.ids.length := by
    intro a ha t ht
    obtain ⟨e, he, -⟩ := mem_ownedIds.mp ha
    have hlt : a.toNat < t.ids.length := by
      rw [ht]
      exact hkeys a (AList.lookup_isSome.mp (by rw [he]; rfl))
    obtain ⟨t', ht'⟩ := dropOrphan_total hlt
    refine ⟨t', ht', ?_⟩
    have hloop : [a].foldlM dropOrphan t = some t' := by simp [ht']
    rw [(dropOrphans_frame hloop).2.2.2.1, ht]
  obtain ⟨t, ht, -⟩ := foldlM_total (s :=
    { s with clients := s.clients.erase source, ids := ids }) turn (releaseLeases_length hids)
  refine ⟨({ t with routingBuckets := t.routingBuckets.removePlayer source },
    s.ownedIds ord source), ?_⟩
  unfold removeClient
  rw [hids]
  show ((s.ownedIds ord source).foldlM dropOrphan _).bind _ = _
  rw [ht]
  rfl

/-! ### Leasing -/

/-- The scan hands out free ids of its list, marks exactly those, and keeps the size. -/
theorem leaseScan_spec : ∀ {l : List Nat} {n : Nat} {ids ids' : List IdState}
    {leased : List UInt16}, (∀ k ∈ l, k < 65536) →
    leaseScan n l ids = some (leased, ids') →
      (∀ id ∈ leased, id.toNat ∈ l ∧ ids[id.toNat]? = some .free) ∧
      (∀ id : UInt16, ids'[id.toNat]? = if id ∈ leased then some .leased else ids[id.toNat]?) ∧
      ids'.length = ids.length := by
  intro l
  induction l with
  | nil =>
      intro n ids ids' leased _ h
      have hnil : leaseScan n [] ids = some ([], ids) := by cases n <;> rfl
      rw [hnil] at h
      obtain ⟨rfl, rfl⟩ := Prod.mk.inj (Option.some.inj h)
      simp
  | cons k rest ih =>
      intro n ids ids' leased hl h
      have hrest : ∀ m ∈ rest, m < 65536 := fun m hm => hl m (List.mem_cons_of_mem _ hm)
      have hk : (UInt16.ofNat k).toNat = k := by
        rw [UInt16.toNat_ofNat']
        exact Nat.mod_eq_of_lt (hl k List.mem_cons_self)
      cases n with
      | zero =>
          obtain ⟨rfl, rfl⟩ := Prod.mk.inj (Option.some.inj h)
          simp
      | succ n =>
          unfold leaseScan at h
          split at h
          · exact absurd h (by simp)
          · rename_i hfree
            obtain ⟨⟨got, mid⟩, hgot, h⟩ := Option.bind_eq_some_iff.mp h
            obtain ⟨rfl, rfl⟩ := Prod.mk.inj (Option.some.inj h)
            obtain ⟨h1, h2, h3⟩ := ih hrest hgot
            have hlt := (List.getElem?_eq_some_iff.mp hfree).1
            have hset : ∀ id : UInt16, (ids.set k .leased)[id.toNat]?
                = if id = UInt16.ofNat k then some .leased else ids[id.toNat]? := by
              intro id
              have hlt' : (UInt16.ofNat k).toNat < ids.length := by
                rw [hk]
                exact hlt
              have := getElem?_setId hlt' .leased id
              rwa [hk] at this
            refine ⟨?_, ?_, by rw [h3, List.length_set]⟩
            · intro id hid
              rcases List.mem_cons.mp hid with rfl | hid
              · rw [hk]
                exact ⟨List.mem_cons_self, hfree⟩
              · obtain ⟨hmem, hid'⟩ := h1 id hid
                rw [hset] at hid'
                refine ⟨List.mem_cons_of_mem _ hmem, ?_⟩
                by_cases heq : id = UInt16.ofNat k
                · rw [if_pos heq] at hid'
                  exact absurd hid' (by simp)
                · rwa [if_neg heq] at hid'
            · intro id
              rw [h2 id, hset]
              by_cases hid : id ∈ got
              · simp [hid]
              · by_cases heq : id = UInt16.ofNat k
                · simp [heq]
                · simp [hid, heq]
          · obtain ⟨h1, h2, h3⟩ := ih hrest h
            exact ⟨fun id hid => ⟨List.mem_cons_of_mem _ (h1 id hid).1, (h1 id hid).2⟩, h2, h3⟩

theorem leaseScan_total : ∀ {l : List Nat} {n : Nat} {ids : List IdState},
    (∀ k ∈ l, k < ids.length) → ∃ r, leaseScan n l ids = some r := by
  intro l
  induction l with
  | nil =>
      intro n ids _
      exact ⟨([], ids), by cases n <;> rfl⟩
  | cons k rest ih =>
      intro n ids hl
      cases n with
      | zero => exact ⟨([], ids), rfl⟩
      | succ n =>
          have hrest : ∀ m ∈ rest, m < ids.length := fun m hm => hl m (List.mem_cons_of_mem _ hm)
          unfold leaseScan
          cases hst : ids[k]? with
          | none =>
              have := List.getElem?_eq_none_iff.mp hst
              exact absurd (hl k List.mem_cons_self) (by omega)
          | some st =>
              cases st with
              | free =>
                  have hset : ∀ m ∈ rest, m < (ids.set k .leased).length := by
                    simpa using hrest
                  obtain ⟨r, hr⟩ := ih (n := n) hset
                  exact ⟨_, by simp only [hr, Option.bind_eq_bind, Option.bind_some]; rfl⟩
              | leased => exact ih hrest
              | used => exact ih hrest

/-- Leasing marks the ids it hands out, appends them to the client's list, and leaves the
registry alone. -/
theorem leaseObjectIds_cases {s s' : ServerGameState F} {source : UInt32} {n : Nat}
    {leased : List UInt16} {packet : List UInt8}
    (h : s.leaseObjectIds source n = some (s', leased, packet)) :
    (∀ id ∈ leased, s.idState id = some .free ∧ 0 < id.toNat ∧ id < s.maxObjectId) ∧
    (∀ id, s'.idState id = if id ∈ leased then some .leased else s.idState id) ∧
    s'.ids.length = s.ids.length ∧ s'.entities = s.entities ∧
    s'.maxObjectId = s.maxObjectId ∧ s'.lengthHack = s.lengthHack ∧
    s'.routingBuckets = s.routingBuckets ∧
    (∀ c, s'.leasedBy c = if c = source then s.leasedBy c ++ leased else s.leasedBy c) ∧
    (∀ c, c ∈ s'.clients ↔ c = source ∨ c ∈ s.clients) := by
  unfold leaseObjectIds at h
  obtain ⟨⟨got, ids⟩, hscan, h⟩ := Option.bind_eq_some_iff.mp h
  simp only [Option.some.injEq, Prod.mk.injEq] at h
  obtain ⟨rfl, rfl, -⟩ := h
  have hrange : ∀ k ∈ List.range' 1 (s.maxObjectId.toNat - 1), k < 65536 := by
    intro k hk
    have := List.mem_range'_1.mp hk
    have := s.maxObjectId.toNat_lt
    omega
  obtain ⟨h1, h2, h3⟩ := leaseScan_spec hrange hscan
  refine ⟨?_, h2, h3, rfl, rfl, rfl, rfl, ?_, ?_⟩
  · intro id hid
    obtain ⟨hmem, hfree⟩ := h1 id hid
    have hk := List.mem_range'_1.mp hmem
    refine ⟨hfree, by omega, ?_⟩
    rw [UInt16.lt_iff_toNat_lt]
    omega
  · intro c
    show (((Map.modify source _ (addClient _ source).clients).lookup c).map _).getD [] = _
    rw [Map.lookup_modify]
    have hadd := leasedBy_addClient { s with ids := ids } source c
    unfold leasedBy at hadd
    by_cases hc : c = source
    · subst hc
      rw [if_pos rfl, if_pos rfl]
      have hmem : c ∈ (addClient { s with ids := ids } c).clients :=
        (mem_addClient _ _ _).mpr (.inl rfl)
      obtain ⟨st, hst⟩ := Option.isSome_iff_exists.mp (AList.lookup_isSome.mpr hmem)
      rw [hst] at hadd ⊢
      simp only [Option.map_some, Option.getD_some] at hadd ⊢
      rw [hadd]
      rfl
    · rw [if_neg hc, if_neg hc]
      exact hadd
  · intro c
    show c ∈ Map.modify source _ (addClient { s with ids := ids } source).clients ↔ _
    rw [← AList.lookup_isSome, Map.lookup_modify]
    by_cases hc : c = source
    · subst hc
      have hmem : c ∈ (addClient { s with ids := ids } c).clients :=
        (mem_addClient _ _ _).mpr (.inl rfl)
      simp [AList.lookup_isSome.mpr hmem]
    · rw [if_neg hc, AList.lookup_isSome]
      exact mem_addClient _ _ _

theorem leaseObjectIds_total {s : ServerGameState F} (source : UInt32) (n : Nat)
    (hsize : s.maxObjectId.toNat < s.ids.length) : ∃ r, s.leaseObjectIds source n = some r := by
  have hrange : ∀ k ∈ List.range' 1 (s.maxObjectId.toNat - 1), k < s.ids.length := by
    intro k hk
    have := List.mem_range'_1.mp hk
    omega
  obtain ⟨r, hr⟩ := leaseScan_total (n := n) hrange
  unfold leaseObjectIds
  rw [hr]
  exact ⟨_, rfl⟩

/-! ### Server entities -/

theorem allocateScan_spec {ids : List IdState} : ∀ {n : Nat} {id : UInt16}, n < 65536 →
    allocateScan ids n = some (some id) →
      ids[id.toNat]? = some .free ∧ 0 < id.toNat ∧ id.toNat ≤ n := by
  intro n
  induction n with
  | zero =>
      intro id _ h
      exact absurd h (by simp [allocateScan])
  | succ n ih =>
      intro id hn h
      unfold allocateScan at h
      split at h
      · exact absurd h (by simp)
      · rename_i hfree
        have hid : (UInt16.ofNat (n + 1)).toNat = n + 1 := by
          rw [UInt16.toNat_ofNat']
          exact Nat.mod_eq_of_lt hn
        rw [← Option.some.inj (Option.some.inj h), hid]
        exact ⟨hfree, by omega, le_rfl⟩
      · obtain ⟨h1, h2, h3⟩ := ih (by omega) h
        exact ⟨h1, h2, by omega⟩

theorem allocateScan_total {ids : List IdState} : ∀ {n : Nat}, n < ids.length →
    ∃ r, allocateScan ids n = some r := by
  intro n
  induction n with
  | zero =>
      intro _
      exact ⟨none, rfl⟩
  | succ n ih =>
      intro hn
      unfold allocateScan
      cases hst : ids[n + 1]? with
      | none => exact absurd (List.getElem?_eq_none_iff.mp hst) (by omega)
      | some st =>
          cases st with
          | free => exact ⟨_, rfl⟩
          | leased => exact ih (by omega)
          | used => exact ih (by omega)

theorem allocateServerObjectId_spec {s : ServerGameState F} {id : UInt16}
    (h : s.allocateServerObjectId = some (some id)) :
    s.idState id = some .free ∧ 0 < id.toNat ∧ id ≤ s.maxObjectId := by
  obtain ⟨h1, h2, h3⟩ := allocateScan_spec s.maxObjectId.toNat_lt h
  exact ⟨h1, h2, UInt16.le_iff_toNat_le.mpr h3⟩

/-- A despawn of an entity that is there. -/
theorem despawnEntity_cases {s s' : ServerGameState F} {id : UInt16} {ok : Bool}
    (h : s.despawnEntity id = some (s', ok)) :
    (id ∉ s.entities ∧ s' = s ∧ ok = false) ∨
      (id ∈ s.entities ∧ id.toNat < s.ids.length ∧ s' = s.afterRemove id ∧ ok = true) := by
  unfold despawnEntity at h
  split at h
  · rename_i hmem
    obtain ⟨t, ht, h⟩ := Option.bind_eq_some_iff.mp h
    obtain ⟨bound, rfl⟩ := setIdState_eq_some ht
    obtain ⟨rfl, rfl⟩ := Prod.mk.inj (Option.some.inj h)
    exact .inr ⟨hmem, bound, rfl, rfl⟩
  · rename_i hmem
    obtain ⟨rfl, rfl⟩ := Prod.mk.inj (Option.some.inj h)
    exact .inl ⟨hmem, rfl, rfl⟩

theorem despawnEntity_total {s : ServerGameState F} (id : UInt16)
    (h : id ∈ s.entities → id.toNat < s.ids.length) : ∃ r, s.despawnEntity id = some r := by
  unfold despawnEntity
  split
  · rename_i hmem
    simp only [setIdState, if_pos (h hmem)]
    exact ⟨_, rfl⟩
  · exact ⟨_, rfl⟩

variable [Scalar F]

/-- The state after a spawn. -/
def afterSpawn (s : ServerGameState F) (id : UInt16) (req : SpawnRequest F)
    (createData : List UInt8) : ServerGameState F :=
  { s with
    creationToken := s.creationToken + 1
    ids := s.ids.set id.toNat .used
    entities := s.entities.insert id
      (req.entity id (s.creationToken + 1) createData s.frameIndex) }

/-- A spawn fails and at most burns a creation token, or it takes a free id. -/
theorem spawnWithId_cases {s s' : ServerGameState F} {id : UInt16} {req : SpawnRequest F}
    {ok : Bool} (h : s.spawnServerEntityWithId id req = some (s', ok)) :
    (ok = false ∧ ∃ token, s' = { s with creationToken := token }) ∨
      (ok = true ∧ s.idState id = some .free ∧ 0 < id.toNat ∧ id ≤ s.maxObjectId ∧
        ∃ createData, writeSyncTree req.entityType true s.lengthHack s.build
            (req.nodes (s.creationToken + 1)) = some createData ∧
          s' = s.afterSpawn id req createData) := by
  unfold spawnServerEntityWithId at h
  split at h
  · obtain ⟨rfl, rfl⟩ := Prod.mk.inj (Option.some.inj h)
    exact .inl ⟨rfl, s.creationToken, rfl⟩
  · rename_i hid
    push Not at hid
    obtain ⟨st, hst, h⟩ := Option.bind_eq_some_iff.mp h
    split at h
    · obtain ⟨rfl, rfl⟩ := Prod.mk.inj (Option.some.inj h)
      exact .inl ⟨rfl, s.creationToken, rfl⟩
    · rename_i hfree
      rw [not_not] at hfree
      subst hfree
      simp only at h
      split at h
      · obtain ⟨rfl, rfl⟩ := Prod.mk.inj (Option.some.inj h)
        exact .inl ⟨rfl, s.creationToken + 1, rfl⟩
      · rename_i createData hwrite
        obtain ⟨t, ht, h⟩ := Option.bind_eq_some_iff.mp h
        obtain ⟨-, rfl⟩ := setIdState_eq_some ht
        obtain ⟨rfl, rfl⟩ := Prod.mk.inj (Option.some.inj h)
        refine .inr ⟨rfl, hst, ?_, UInt16.not_lt.mp hid.2, createData, hwrite, rfl⟩
        rw [Nat.pos_iff_ne_zero]
        exact fun h0 => hid.1 (UInt16.toNat.inj h0)

theorem spawnWithId_total {s : ServerGameState F} (id : UInt16) (req : SpawnRequest F)
    (hsize : s.maxObjectId.toNat < s.ids.length) :
    ∃ r, s.spawnServerEntityWithId id req = some r := by
  unfold spawnServerEntityWithId
  split
  · exact ⟨_, rfl⟩
  · rename_i hid
    push Not at hid
    have hlt : id.toNat < s.ids.length := by
      have := UInt16.le_iff_toNat_le.mp (UInt16.not_lt.mp hid.2)
      omega
    cases hst : s.idState id with
    | none => exact absurd (List.getElem?_eq_none_iff.mp hst) (by omega)
    | some st =>
        simp only [Option.bind_eq_bind, Option.bind_some]
        split
        · exact ⟨_, rfl⟩
        · split
          · exact ⟨_, rfl⟩
          · simp only [setIdState, if_pos hlt]
            exact ⟨_, rfl⟩

/-- `spawn_server_entity` is the spawn on the id it allocates. -/
theorem spawn_cases {s s' : ServerGameState F} {req : SpawnRequest F} {r : Option UInt16}
    (h : s.spawnServerEntity req = some (s', r)) :
    (r = none ∧ s' = s) ∨
      ∃ id ok, s.allocateServerObjectId = some (some id) ∧
        s.spawnServerEntityWithId id req = some (s', ok) ∧
        r = if ok then some id else none := by
  unfold spawnServerEntity at h
  obtain ⟨alloc, halloc, h⟩ := Option.bind_eq_some_iff.mp h
  cases alloc with
  | none =>
      obtain ⟨rfl, rfl⟩ := Prod.mk.inj (Option.some.inj h)
      exact .inl ⟨rfl, rfl⟩
  | some id =>
      obtain ⟨⟨t, ok⟩, ht, h⟩ := Option.bind_eq_some_iff.mp h
      obtain ⟨rfl, rfl⟩ := Prod.mk.inj (Option.some.inj h)
      exact .inr ⟨id, ok, halloc, ht, rfl⟩

theorem spawn_total {s : ServerGameState F} (req : SpawnRequest F)
    (hsize : s.maxObjectId.toNat < s.ids.length) : ∃ r, s.spawnServerEntity req = some r := by
  obtain ⟨alloc, halloc⟩ := allocateScan_total hsize
  unfold spawnServerEntity allocateServerObjectId
  rw [halloc]
  cases alloc with
  | none => exact ⟨_, rfl⟩
  | some id =>
      obtain ⟨r, hr⟩ := spawnWithId_total id req hsize
      simp only [Option.bind_eq_bind, Option.bind_some, hr]
      exact ⟨_, rfl⟩

end ServerGameState

end Baston.Zone
