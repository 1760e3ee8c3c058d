/-
What a store holds, and what opening its file holds.

Without a separator in the name of a resource, a resource and a key are read off their flat key.
So the flat map is a map from resources and keys, a search by the start of a flat key finds the
keys of one resource alone, and the file a flush leaves behind opens to the same map.
-/
import Baston.Proofs.KvpFile

namespace Baston.Scripting

open Assoc

/-! ### Flat keys -/

variable {resource key lead flat : Text}

theorem splitOnce_flatKey_of : ∀ {resource : Text}, separator ∉ resource →
    splitOnce (flatKey resource key) = some (resource, key) := by
  intro resource
  induction resource with
  | nil =>
      intro _
      rfl
  | cons c rest ih =>
      intro h
      rw [List.mem_cons, not_or] at h
      show splitOnce (c :: flatKey rest key) = _
      rw [splitOnce, if_neg fun hc => h.1 hc.symm, ih h.2]
      rfl

theorem flatKey_inj {resource' key' : Text} (h : separator ∉ resource)
    (h' : separator ∉ resource') :
    flatKey resource key = flatKey resource' key' ↔ resource = resource' ∧ key = key' := by
  refine ⟨fun heq => ?_, fun heq => by rw [heq.1, heq.2]⟩
  have hsplit : splitOnce (flatKey resource key) = some (resource, key) := splitOnce_flatKey_of h
  rw [heq, splitOnce_flatKey_of h'] at hsplit
  obtain ⟨hresource, hkey⟩ := Prod.mk.inj (Option.some.inj hsplit)
  exact ⟨hresource.symm, hkey.symm⟩

/-- A flat key starts with a resource and a start of a key exactly if it is one of them. -/
theorem flatKey_prefix_iff (h : separator ∉ resource) :
    flatKey resource lead <+: flat ∧ keyOf flat = some key
      ↔ flat = flatKey resource key ∧ lead <+: key := by
  constructor
  · rintro ⟨⟨more, rfl⟩, hkey⟩
    have hflat : flatKey resource lead ++ more = flatKey resource (lead ++ more) := by
      unfold flatKey
      rw [List.append_assoc, List.cons_append]
    unfold keyOf at hkey
    rw [hflat, splitOnce_flatKey_of h] at hkey
    obtain rfl := Option.some.inj hkey
    exact ⟨hflat, List.prefix_append lead more⟩
  · rintro ⟨rfl, more, rfl⟩
    refine ⟨⟨more, ?_⟩, ?_⟩
    · unfold flatKey
      rw [List.append_assoc, List.cons_append]
    · unfold keyOf
      rw [splitOnce_flatKey_of h]
      rfl

/-! ### Searching -/

namespace KvpStore

variable {s s' : KvpStore} {ord ord' : IterOrder Text}

theorem keysWithPrefix_sorted : (s.keysWithPrefix ord resource lead).Pairwise (· ≤ ·) :=
  List.pairwise_mergeSort' (fun a b : Text => a ≤ b) _

/-- The keys that are found, before they are sorted. -/
theorem mem_keysWithPrefix :
    key ∈ s.keysWithPrefix ord resource lead ↔ ∃ flat value, s.entries.lookup flat = some value
      ∧ flatKey resource lead <+: flat ∧ keyOf flat = some key := by
  unfold keysWithPrefix
  simp only [List.mem_mergeSort, List.mem_filterMap, List.mem_filter, List.isPrefixOf_iff_prefix]
  constructor
  · rintro ⟨⟨flat, value⟩, ⟨hmem, hlead⟩, hkey⟩
    exact ⟨flat, value, Map.mem_visit.mp hmem, hlead, hkey⟩
  · rintro ⟨flat, value, hlookup, hlead, hkey⟩
    exact ⟨(flat, value), ⟨Map.mem_visit.mpr hlookup, hlead⟩, hkey⟩

/-- **A search finds the keys of its resource** that start as asked, and no others. -/
theorem mem_keysWithPrefix_iff (h : separator ∉ resource) :
    key ∈ s.keysWithPrefix ord resource lead ↔ lead <+: key ∧ (s.get resource key).isSome = true := by
  rw [mem_keysWithPrefix]
  simp only [flatKey_prefix_iff h]
  unfold get
  rw [Option.isSome_iff_exists]
  constructor
  · rintro ⟨flat, value, hlookup, rfl, hlead⟩
    exact ⟨hlead, value, hlookup⟩
  · rintro ⟨hlead, value, hlookup⟩
    exact ⟨_, value, hlookup, rfl, hlead⟩

theorem keysWithPrefix_nodup (h : separator ∉ resource) :
    (s.keysWithPrefix ord resource lead).Nodup := by
  have hflat : ∀ {entry : Text × Text} {key : Text},
      entry ∈ (s.entries.visit ord).filter (fun e => (flatKey resource lead).isPrefixOf e.1) →
        keyOf entry.1 = some key → entry.1 = flatKey resource key := by
    intro entry key hmem hkey
    have hlead := (List.mem_filter.mp hmem).2
    rw [List.isPrefixOf_iff_prefix] at hlead
    exact ((flatKey_prefix_iff h).mp ⟨hlead, hkey⟩).1
  have hvisited := (List.pairwise_map.mp (Map.nodup_visit ord s.entries)).filter
    fun e => (flatKey resource lead).isPrefixOf e.1
  unfold keysWithPrefix
  rw [(List.mergeSort_perm _ _).nodup_iff]
  unfold List.Nodup
  rw [List.pairwise_filterMap]
  refine hvisited.imp_of_mem ?_
  intro entry entry' hmem hmem' hne key hkey key' hkey' heq
  rw [hflat hmem hkey, hflat hmem' hkey', heq] at hne
  exact hne rfl

/-- Stores that hold the same are searched alike. -/
theorem keysWithPrefix_congr (h : ∀ flat, s.entries.lookup flat = s'.entries.lookup flat) :
    s.keysWithPrefix ord resource lead = s'.keysWithPrefix ord' resource lead := by
  have hvisit : (s.entries.visit ord).Perm (s'.entries.visit ord') := by
    refine (List.perm_ext_iff_of_nodup ?_ ?_).mpr ?_
    · exact (Map.nodup_visit ord s.entries).of_map _
    · exact (Map.nodup_visit ord' s'.entries).of_map _
    · rintro ⟨flat, value⟩
      rw [Map.mem_visit, Map.mem_visit, h]
  refine List.Perm.eq_of_pairwise (fun a b _ _ => le_antisymm) keysWithPrefix_sorted
    keysWithPrefix_sorted ?_
  exact (List.mergeSort_perm _ _).trans (((hvisit.filter _).filterMap _).trans
    (List.mergeSort_perm _ _).symm)

end KvpStore

/-! ### Calls and their steps -/

namespace KvpStore

open Trace

/-- The map, the mark and the file. -/
def view (s : KvpStore) : Map Text Text × Bool × Option KvpFile := (s.entries, s.dirty, s.file)

variable (s : KvpStore) (ord : IterOrder Text)

/-- A call and its next `n` steps, with nothing in between. -/
def alone (op : KvpOp) (n : Nat) : Option KvpStore :=
  exec step (op :: List.replicate n (.advance s.nextCall ord)) s

/-- The steps of a flush are the flush. -/
theorem alone_flush : ∃ n, (s.alone ord .flush n).map view = some (s.flush (.written ord)).view := by
  unfold alone flush
  cases hdirty : s.dirty with
  | false =>
      refine ⟨1, ?_⟩
      simp [exec, step, begin, next, hdirty, finish, view]
  | true =>
      refine ⟨4, ?_⟩
      simp [exec, step, begin, next, hdirty, finish, goOn, view, List.replicate]

/-- The steps of a `set` or `remove` are the call. -/
theorem alone_edit {op : KvpOp} {resource key : Text} {value : Option Text} {sync : Bool}
    (hop : step op s = some (s.begin (.edit ⟨⟨flatKey resource key, value⟩, sync⟩), .none)) :
    ∃ n, (s.alone ord op n).map view
      = some (s.edit resource key value sync (.written ord)).view := by
  unfold alone edit markDirty flush
  cases sync with
  | false =>
      refine ⟨2, ?_⟩
      rw [exec, hop]
      simp [exec, step, begin, next, finish, goOn, view, List.replicate]
  | true =>
      refine ⟨6, ?_⟩
      rw [exec, hop]
      simp [exec, step, begin, next, finish, goOn, view, List.replicate]

theorem alone_set (resource key value : Text) (sync : Bool) :
    ∃ n, (s.alone ord (.set resource key value sync) n).map view
      = some (s.set resource key value sync (.written ord)).view :=
  s.alone_edit ord rfl

theorem alone_remove (resource key : Text) (sync : Bool) :
    ∃ n, (s.alone ord (.remove resource key sync) n).map view
      = some (s.remove resource key sync (.written ord)).view :=
  s.alone_edit ord rfl

end KvpStore

/-! ### What the calls leave -/

/-- The value of every key of every resource. -/
abbrev Contents := Text → Text → Option Text

def KvpCall.apply (c : Contents) : KvpCall → Contents
  | .set resource key value _ => fun r k => if r = resource ∧ k = key then some value else c r k
  | .remove resource key _ => fun r k => if r = resource ∧ k = key then none else c r k
  | .flush => c

/-- The resource's name has no separator in it. -/
def KvpCall.Named : KvpCall → Prop
  | .set resource _ _ _ => separator ∉ resource
  | .remove resource _ _ => separator ∉ resource
  | .flush => True

/-- What a document holds. -/
def KvpFile.contents (file : Option KvpFile) : Contents := fun resource key =>
  file.bind fun file => cell file resource key

/-- Every resource's name in a document is without a separator. -/
def KvpFile.Named (file : Option KvpFile) : Prop :=
  ∀ doc ∈ file, ∀ resource, (doc.lookup resource).isSome = true → separator ∉ resource

/-- The store holds `c`, in a form that a flush can write, and its file does if nothing is
pending. -/
structure Keeps (s : KvpStore) (c : Contents) : Prop where
  split : ∀ flat value, s.entries.lookup flat = some value → (splitOnce flat).isSome = true
  saved : s.dirty = false → ∀ flat, (load s.file).lookup flat = s.entries.lookup flat
  holds : ∀ resource key, separator ∉ resource → s.get resource key = c resource key

variable {s : KvpStore} {c : Contents} {disk : Disk}

theorem lookup_load_split {file : Option KvpFile} {value : Text}
    (h : (load file).lookup flat = some value) : (splitOnce flat).isSome = true := by
  cases file with
  | none => exact absurd h (by simp [load])
  | some doc =>
      unfold load at h
      rw [WriteLog.lookup_replay, AList.lookup_empty] at h
      cases hlast : WriteLog.last flat (fileEntries doc) with
      | none =>
          rw [hlast] at h
          exact absurd h (by simp)
      | some image =>
          obtain ⟨w, hw, rfl, -⟩ := WriteLog.mem_of_last hlast
          obtain ⟨resource, key, written, -, rfl⟩ := mem_fileEntries.mp hw
          exact splitOnce_flatKey resource key

theorem Keeps.flush (h : Keeps s c) (disk : Disk) : Keeps (s.flush disk) c := by
  unfold KvpStore.flush
  cases hdirty : s.dirty with
  | false => exact h
  | true =>
      rw [if_pos rfl]
      cases disk with
      | failed temporary => exact ⟨h.split, fun hclean => Bool.noConfusion hclean, h.holds⟩
      | written ord => exact ⟨h.split, fun _ => lookup_load_byResource h.split ord, h.holds⟩

theorem Keeps.markDirty (h : Keeps s c) (sync : Bool) (disk : Disk) :
    Keeps (s.markDirty sync disk) c := by
  have hdirty : Keeps { s with dirty := true } c :=
    ⟨h.split, fun hclean => Bool.noConfusion hclean, h.holds⟩
  unfold KvpStore.markDirty
  cases sync with
  | true => exact hdirty.flush disk
  | false => exact hdirty

/-- A document opens to what it holds. -/
theorem lookup_load_named {file : Option KvpFile} (hfile : KvpFile.Named file)
    (h : separator ∉ resource) :
    (load file).lookup (flatKey resource key) = KvpFile.contents file resource key := by
  cases file with
  | none => rfl
  | some doc =>
      have hentry : ∀ w ∈ fileEntries doc, w.key = flatKey resource key →
          w.image = cell doc resource key := by
        intro w hw hkey
        obtain ⟨resource', key', value, hcell, rfl⟩ := mem_fileEntries.mp hw
        obtain ⟨values, hvalues, -⟩ := Option.bind_eq_some_iff.mp hcell
        have hnamed := hfile doc rfl resource' (by rw [hvalues]; rfl)
        obtain ⟨rfl, rfl⟩ := (flatKey_inj hnamed h).mp hkey
        exact hcell.symm
      unfold load
      rw [WriteLog.lookup_replay, AList.lookup_empty]
      show _ = cell doc resource key
      cases hcell : cell doc resource key with
      | none =>
          rw [WriteLog.last_eq_none]
          · rfl
          · intro w hw hkey
            obtain ⟨_, _, value, -, rfl⟩ := mem_fileEntries.mp hw
            have himage := hentry _ hw hkey
            rw [hcell] at himage
            exact absurd himage (by simp)
      | some value =>
          rw [WriteLog.last_eq_of_agree (x := some value)]
          · rfl
          · exact ⟨_, mem_fileEntries.mpr ⟨resource, key, value, hcell, rfl⟩, rfl⟩
          · intro w hw hkey
            rw [hentry w hw hkey, hcell]

theorem keeps_openFile {file : Option KvpFile} (hfile : KvpFile.Named file) :
    Keeps (KvpStore.openFile file) (KvpFile.contents file) :=
  ⟨fun _ _ => lookup_load_split, fun _ _ => rfl, fun _ _ h => lookup_load_named hfile h⟩

/-- A value is set, or is removed. -/
theorem Keeps.edit (h : Keeps s c) (hresource : separator ∉ resource) (value : Option Text)
    (sync : Bool) (disk : Disk) :
    Keeps (s.edit resource key value sync disk)
      fun r k => if r = resource ∧ k = key then value else c r k := by
  unfold KvpStore.edit
  -- the map has it at once, and the file is behind
  suffices hput : Keeps { s with
      entries := WriteLog.put s.entries ⟨flatKey resource key, value⟩, dirty := true }
      fun r k => if r = resource ∧ k = key then value else c r k from hput.markDirty sync disk
  refine ⟨?_, fun hclean => Bool.noConfusion hclean, ?_⟩
  · intro flat written hlookup
    simp only [WriteLog.lookup_put] at hlookup
    split at hlookup
    · next hflat =>
        rw [← hflat]
        exact splitOnce_flatKey resource key
    · exact h.split flat written hlookup
  · intro r k hr
    unfold KvpStore.get
    simp only [WriteLog.lookup_put, flatKey_inj hresource hr, eq_comm (a := r), eq_comm (a := k)]
    split
    · rfl
    · exact h.holds r k hr

theorem Keeps.call (h : Keeps s c) {call : KvpCall × Disk} (hnamed : call.1.Named) :
    Keeps (s.call call) (call.1.apply c) := by
  obtain ⟨call, disk⟩ := call
  cases call with
  | set resource key value sync => exact h.edit hnamed (some value) sync disk
  | remove resource key sync => exact h.edit hnamed none sync disk
  | flush => exact h.flush disk

theorem Keeps.calls : ∀ {calls : List (KvpCall × Disk)} {s : KvpStore} {c : Contents},
    (∀ call ∈ calls, call.1.Named) → Keeps s c →
      Keeps (calls.foldl KvpStore.call s) (calls.foldl (fun c call => call.1.apply c) c) := by
  intro calls
  induction calls with
  | nil => exact fun _ h => h
  | cons call rest ih =>
      intro s c hnamed h
      exact ih (fun call hcall => hnamed call (List.mem_cons_of_mem _ hcall))
        (h.call (hnamed call List.mem_cons_self))

/-- **A store is found again.**  After any calls and a flush that succeeds, opening the file gives
a store that answers every question alike, and a search finds the keys of its resource in order. -/
theorem reopened_store_agrees (file : Option KvpFile) (calls : List (KvpCall × Disk))
    (flushed : IterOrder Text) (hfile : KvpFile.Named file)
    (hcalls : ∀ call ∈ calls, call.1.Named) :
    let s := (calls.foldl KvpStore.call (KvpStore.openFile file)).flush (.written flushed)
    let reopened := KvpStore.openFile s.file
    (∀ resource key, reopened.get resource key = s.get resource key)
      ∧ (∀ ord ord' resource lead,
        reopened.keysWithPrefix ord resource lead = s.keysWithPrefix ord' resource lead)
      ∧ ∀ ord resource lead, separator ∉ resource →
        (s.keysWithPrefix ord resource lead).Pairwise (· < ·)
          ∧ ∀ key, key ∈ s.keysWithPrefix ord resource lead
            ↔ lead <+: key ∧ (calls.foldl (fun c call => call.1.apply c)
              (KvpFile.contents file) resource key).isSome = true := by
  intro s reopened
  have hkeeps : Keeps s _ := ((keeps_openFile hfile).calls hcalls).flush (.written flushed)
  have hclean : s.dirty = false := by
    show ((calls.foldl KvpStore.call (KvpStore.openFile file)).flush (.written flushed)).dirty = _
    unfold KvpStore.flush
    split
    · rfl
    · next hdirty => exact Bool.not_eq_true _ ▸ hdirty
  have hsame : ∀ flat, reopened.entries.lookup flat = s.entries.lookup flat := hkeeps.saved hclean
  refine ⟨fun resource key => hsame _, fun ord ord' resource lead =>
    KvpStore.keysWithPrefix_congr hsame, fun ord resource lead h => ⟨?_, fun key => ?_⟩⟩
  · refine List.Pairwise.imp₂ (fun a b => lt_of_le_of_ne)
      KvpStore.keysWithPrefix_sorted (KvpStore.keysWithPrefix_nodup h)
  · rw [KvpStore.mem_keysWithPrefix_iff h, hkeeps.holds resource key h]

/-- A key with a separator in it and an empty one, and a flush that failed in between. -/
theorem odd_keys_found_again :
    let s := ([(.set ['a'] ['k', separator] [] true, .failed none), (.set ['a'] [] ['v'] false,
      .written (.stored _)), (.remove ['b'] ['k'] true, .written (.stored _))].foldl KvpStore.call
        (KvpStore.openFile none)).flush (.written (.stored _))
    (KvpStore.openFile s.file).get ['a'] ['k', separator] = s.get ['a'] ['k', separator] :=
  have hcalls : ∀ call ∈ [(KvpCall.set ['a'] ['k', separator] [] true, Disk.failed none),
      (.set ['a'] [] ['v'] false, .written (.stored _)),
      (.remove ['b'] ['k'] true, .written (.stored _))], call.1.Named := by
    simp [KvpCall.Named, separator]
  (reopened_store_agrees none _ (.stored _) (by simp [KvpFile.Named]) hcalls).1 _ _

end Baston.Scripting
