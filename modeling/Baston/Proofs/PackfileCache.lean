/-
When the packfile cache is stale.

An archive is a function of the whole manifest and of the contents of the listed files.  Its
fingerprint says less: it is taken of the sorted paths of scripts and files together, and of a
file that is missing or older than the epoch it says zero.  So an answer is right as long as
two calls in a row that take the same fingerprint also find the same manifest text and the
same files; what the last call found is carried along the run for this.
-/
import Baston.Gateway.PackfileCache
import Baston.Proofs.PackfileBytes
import Baston.Proofs.PackfileTable

namespace Baston.Gateway.Packfiles

open Assoc Trace Baston.Zone.Packfile

/-- An archive can be built of any files. -/
theorem build_total (sha1 : List UInt8 → List UInt8) (found : Found) :
    ∃ bytes, buildRpf found.inputs = some bytes
      ∧ build sha1 found = some ⟨bytes, hexEncode (sha1 bytes)⟩ := by
  obtain ⟨entries, hentries⟩ := flattenLoop_total (rootOf found.inputs).dirCount [.dir [] 0 0]
    [(0, rootOf found.inputs)] (by simp [pendingDirs])
  have hbytes : buildRpf found.inputs = some (layOut entries) := by
    unfold buildRpf flatten
    rw [hentries]
    rfl
  refine ⟨layOut entries, hbytes, ?_⟩
  unfold build
  rw [hbytes]
  rfl

/-! ### The assumption on files -/

variable {contents : Name → Option Int → UInt64 → Option (List UInt8)}

/-- Path, modification time and size determine what is read. -/
def Determined (contents : Name → Option Int → UInt64 → Option (List UInt8)) (files : Files) :
    Prop :=
  ∀ path file, files path = some file → file.data = contents path file.modified file.len

/-- No file is written otherwise. -/
def Op.Respects (contents : Name → Option Int → UInt64 → Option (List UInt8)) : Op → Prop
  | .file path (some state) => state.data = contents path state.modified state.len
  | _ => True

/-- What a call finds of the listed files without reading them. -/
def Found.listing (found : Found) : List (Name × Name × Option (Option Int × UInt64)) :=
  found.list.map fun rel =>
    (rel, join found.root rel,
      (found.files (join found.root rel)).map fun file => (file.modified, file.len))

/-- The same manifest text, and the same files. -/
structure Alike (a b : Found) : Prop where
  manifest : generateFxmanifest a.manifest = generateFxmanifest b.manifest
  listing : a.listing = b.listing

/-- What is alike is packed alike. -/
theorem Alike.inputs {a b : Found} (h : Alike a b) (ha : Determined contents a.files)
    (hb : Determined contents b.files) : a.inputs = b.inputs := by
  have names : ∀ found : Found, found.listing.map Prod.fst = found.list := by
    intro found
    unfold Found.listing
    rw [List.map_map]
    exact List.map_id _
  have hlist : a.list = b.list := by
    rw [← names a, ← names b, h.listing]
  have hfiles := h.listing
  unfold Found.listing at hfiles
  rw [hlist, List.map_inj_left] at hfiles
  unfold Found.inputs
  rw [h.manifest, hlist]
  congr 1
  refine List.filterMap_congr fun rel hrel => ?_
  obtain ⟨hpath, hmeta⟩ := Prod.mk.inj (Prod.mk.inj (hfiles rel hrel)).2
  rw [hpath] at hmeta ⊢
  congr 1
  rcases hfile : a.files (join b.root rel) with _ | file
  · rw [hfile] at hmeta
    rw [Option.map_eq_none_iff.mp hmeta.symm]
  · rw [hfile] at hmeta
    obtain ⟨file', hfile', hsame⟩ := Option.map_eq_some_iff.mp hmeta.symm
    obtain ⟨htime, hlen⟩ := Prod.mk.inj hsame
    rw [hfile', Option.bind_some, Option.bind_some, ha _ file hfile, hb _ file' hfile', htime, hlen]

/-! ### Runs -/

/-- What the last call that packed a resource found. -/
def lastFound (resource : Name) : List (Entry State Op (Option CachedPackfile)) → Option Found
  | [] => none
  | e :: past =>
    match e.op with
    | .get name manifestOnlyFallback =>
      if name = resource then
        (e.pre.world.toPack name manifestOnlyFallback).or (lastFound resource past)
      else lastFound resource past
    | _ => lastFound resource past

/-- A call that takes the fingerprint of the last one finds the same. -/
def Telling (past : List (Entry State Op (Option CachedPackfile)))
    (e : Entry State Op (Option CachedPackfile)) : Prop :=
  match e.op with
  | .get resource manifestOnlyFallback =>
    ∀ found ∈ e.pre.world.toPack resource manifestOnlyFallback,
      ∀ earlier ∈ lastFound resource past, earlier.print = found.print → Alike earlier found
  | _ => True

variable (sha1 : List UInt8 → List UInt8)

/-- A call with something to pack answers the archive of what there is, and its digest. -/
def Current (e : Entry State Op (Option CachedPackfile)) : Prop :=
  match e.op with
  | .get resource manifestOnlyFallback =>
    match e.pre.world.toPack resource manifestOnlyFallback with
    | none => e.answer = none
    | some found => ∃ bytes, buildRpf found.inputs = some bytes
        ∧ e.answer = some ⟨bytes, hexEncode (sha1 bytes)⟩
  | _ => True

/-- The archive that is kept is that of what the last call found. -/
structure Kept (contents : Name → Option Int → UInt64 → Option (List UInt8))
    (past : List (Entry State Op (Option CachedPackfile))) (s : State) : Prop where
  files : Determined contents s.world.files
  absent : ∀ resource, lastFound resource past = none → s.cache.lookup resource = none
  present : ∀ resource found, lastFound resource past = some found →
    Determined contents found.files
      ∧ ∃ cached, s.cache.lookup resource = some (found.print, cached)
        ∧ build sha1 found = some cached

variable {sha1}

/-- A step that makes no call keeps what is kept. -/
theorem Kept.other {past : List (Entry State Op (Option CachedPackfile))} {s s' : State}
    (h : Kept sha1 contents past s) (hfiles : Determined contents s'.world.files)
    (hcache : s'.cache = s.cache) {e : Entry State Op (Option CachedPackfile)}
    (hlast : ∀ resource, lastFound resource (e :: past) = lastFound resource past) :
    Kept sha1 contents (e :: past) s' := by
  refine ⟨hfiles, ?_, ?_⟩
  · intro resource hnone
    rw [hlast] at hnone
    rw [hcache]
    exact h.absent resource hnone
  · intro resource found hsome
    rw [hlast] at hsome
    rw [hcache]
    exact h.present resource found hsome

/-- **A call** answers the archive of what it finds, and that is what is kept after it. -/
theorem Kept.call {past : List (Entry State Op (Option CachedPackfile))} {s s' : State}
    (h : Kept sha1 contents past s) {resource : Name} {manifestOnlyFallback : Bool}
    {answer : Option CachedPackfile}
    (hstep : step sha1 (.get resource manifestOnlyFallback) s = some (s', answer))
    (htelling : Telling past ⟨s, .get resource manifestOnlyFallback, answer, s'⟩) :
    Kept sha1 contents (⟨s, .get resource manifestOnlyFallback, answer, s'⟩ :: past) s'
      ∧ Current sha1 ⟨s, .get resource manifestOnlyFallback, answer, s'⟩ := by
  obtain ⟨⟨cache, answer'⟩, hget, heq⟩ := Option.map_eq_some_iff.mp hstep
  obtain ⟨rfl, rfl⟩ := Prod.mk.inj heq
  unfold get at hget
  rcases hpack : s.world.toPack resource manifestOnlyFallback with _ | found
  · simp only [hpack, Option.some.injEq, Prod.mk.injEq] at hget
    obtain ⟨rfl, rfl⟩ := hget
    refine ⟨h.other h.files rfl ?_, ?_⟩
    · intro name
      simp only [lastFound, hpack, Option.none_or, ite_self]
    · simp only [Current, hpack]
  · have hdetermined : Determined contents found.files := by
      obtain ⟨p, -, hp⟩ := Option.bind_eq_some_iff.mp hpack
      split at hp
      · exact absurd hp (by simp)
      · rw [← Option.some.inj hp]
        exact h.files
    have hlast : ∀ name, lastFound name
        (⟨s, .get resource manifestOnlyFallback, answer', { s with cache := cache }⟩ :: past)
          = if resource = name then some found else lastFound name past := by
      intro name
      simp only [lastFound, hpack, Option.some_or]
    obtain ⟨bytes, hbytes, hbuild⟩ := build_total sha1 found
    -- either way the archive of what was found is kept, and answered
    have hafter : answer' = some ⟨bytes, hexEncode (sha1 bytes)⟩
        ∧ cache.lookup resource = some (found.print, ⟨bytes, hexEncode (sha1 bytes)⟩)
        ∧ ∀ name, name ≠ resource → cache.lookup name = s.cache.lookup name := by
      simp only [hpack] at hget
      rcases hhit : (s.cache.lookup resource).filter fun entry => entry.1 = found.print
        with _ | entry
      · simp only [hhit, hbuild, Option.map_some, Option.some.injEq, Prod.mk.injEq] at hget
        obtain ⟨rfl, rfl⟩ := hget
        exact ⟨rfl, AList.lookup_insert _, fun name hne => AList.lookup_insert_ne hne⟩
      · simp only [hhit, Option.some.injEq, Prod.mk.injEq] at hget
        obtain ⟨rfl, rfl⟩ := hget
        obtain ⟨hentry, hprint⟩ := Option.filter_eq_some_iff.mp hhit
        rcases hearlier : lastFound resource past with _ | earlier
        · rw [h.absent resource hearlier] at hentry
          exact absurd hentry (by simp)
        · obtain ⟨hold, cached, hlookup, hcached⟩ := h.present resource earlier hearlier
          obtain rfl := Option.some.inj (hentry.symm.trans hlookup)
          have hsame : earlier.print = found.print := of_decide_eq_true hprint
          have halike := htelling found hpack earlier hearlier hsame
          have hinputs := halike.inputs hold hdetermined
          have hbuilt : build sha1 earlier = build sha1 found := by
            unfold build
            rw [hinputs]
          rw [hbuilt, hbuild] at hcached
          obtain rfl := Option.some.inj hcached
          exact ⟨rfl, by rw [hlookup, hsame], fun name _ => rfl⟩
    obtain ⟨hanswer, hkept, hothers⟩ := hafter
    refine ⟨⟨h.files, ?_, ?_⟩, ?_⟩
    · intro name hnone
      rw [hlast] at hnone
      split at hnone
      · exact absurd hnone (by simp)
      · rename_i hne
        exact (hothers name (Ne.symm hne)).trans (h.absent name hnone)
    · intro name other hsome
      rw [hlast] at hsome
      split at hsome
      · rename_i heq
        obtain rfl := Option.some.inj hsome
        subst heq
        exact ⟨hdetermined, _, hkept, hbuild⟩
      · rename_i hne
        obtain ⟨hold, cached, hlookup, hcached⟩ := h.present name other hsome
        exact ⟨hold, cached, (hothers name (Ne.symm hne)).trans hlookup, hcached⟩
    · simp only [Current, hpack]
      exact ⟨bytes, hbytes, hanswer⟩

/-- **The packfile cache is current as long as fingerprints tell.**  If path, modification time
and size determine what is read of a file, every call of a run answers the archive of the
current manifest and files, provided that no call takes the fingerprint of the last call for
its resource where the manifest text or the files are others. -/
theorem packfile_current (sha1 : List UInt8 → List UInt8)
    (contents : Name → Option Int → UInt64 → Option (List UInt8)) {world : World}
    (hworld : Determined contents world.files) :
    ∀ {past : List (Entry State Op (Option CachedPackfile))} {s : State},
      Run (step sha1) ⟨world, ∅⟩ past s → (∀ e ∈ past, e.op.Respects contents) →
        Along Telling past → ∀ e ∈ past, Current sha1 e := by
  have hall : ∀ {past : List (Entry State Op (Option CachedPackfile))} {s : State},
      Run (step sha1) ⟨world, ∅⟩ past s → (∀ e ∈ past, e.op.Respects contents) →
        Along Telling past → Kept sha1 contents past s ∧ ∀ e ∈ past, Current sha1 e := by
    intro past s run
    induction run with
    | nil =>
        intro _ _
        refine ⟨⟨hworld, fun _ _ => rfl, ?_⟩, by simp⟩
        intro resource found hsome
        exact absurd hsome (by simp [lastFound])
    | @snoc past s s' op answer run hstep ih =>
        intro hfiles htelling
        obtain ⟨hkept, hcurrent⟩ :=
          ih (fun e he => hfiles e (List.mem_cons_of_mem _ he)) htelling.2
        have hop := hfiles _ List.mem_cons_self
        have hafter : Kept sha1 contents (⟨s, op, answer, s'⟩ :: past) s'
            ∧ Current sha1 ⟨s, op, answer, s'⟩ := by
          cases op with
          | manifest resource now =>
              obtain ⟨rfl, rfl⟩ := Prod.mk.inj (Option.some.inj hstep)
              refine ⟨hkept.other ?_ ?_ fun _ => rfl, trivial⟩
              · exact hkept.files
              · rfl
          | file path now =>
              obtain ⟨rfl, rfl⟩ := Prod.mk.inj (Option.some.inj hstep)
              refine ⟨hkept.other ?_ ?_ fun _ => rfl, trivial⟩
              · intro path' file hfile
                by_cases hpath : path' = path
                · subst hpath
                  simp only [Function.update_self] at hfile
                  subst hfile
                  exact hop
                · simp only [Function.update_of_ne hpath] at hfile
                  exact hkept.files path' file hfile
              · rfl
          | get resource manifestOnlyFallback => exact hkept.call hstep htelling.1
        refine ⟨hafter.1, fun e he => ?_⟩
        rcases List.mem_cons.mp he with rfl | he
        · exact hafter.2
        · exact hcurrent e he
  intro past s run hfiles htelling
  exact (hall run hfiles htelling).2

/-! ### A resource with one script -/

instance (contents : Name → Option Int → UInt64 → Option (List UInt8)) (op : Op) :
    Decidable (op.Respects contents) :=
  match op with
  | .file _ (some _) => inferInstanceAs (Decidable (_ = _))
  | .file _ none | .manifest _ _ | .get _ _ => isTrue trivial

instance (a b : Found) : Decidable (Alike a b) :=
  decidable_of_iff (generateFxmanifest a.manifest = generateFxmanifest b.manifest
      ∧ a.listing = b.listing)
    ⟨fun h => ⟨h.1, h.2⟩, fun h => ⟨h.manifest, h.listing⟩⟩

instance (past : List (Entry State Op (Option CachedPackfile)))
    (e : Entry State Op (Option CachedPackfile)) : Decidable (Telling past e) :=
  match e with
  | ⟨pre, .get resource manifestOnlyFallback, _, _⟩ =>
    inferInstanceAs (Decidable (∀ found ∈ pre.world.toPack resource manifestOnlyFallback,
      ∀ earlier ∈ lastFound resource past, earlier.print = found.print → Alike earlier found))
  | ⟨_, .manifest _ _, _, _⟩ | ⟨_, .file _ _, _, _⟩ => isTrue trivial

def car : Name := literal "car"

def carRoot : Name := literal "resources/car"

/-- What its script is read as. -/
def carContents : Name → Option Int → UInt64 → Option (List UInt8) := fun _ _ _ => some [1, 2, 3]

/-- A car whose one file is a client script. -/
def carWorld : World where
  started name := if name = car then some (carRoot, ⟨[literal "a.lua"], []⟩) else none
  files path :=
    if path = literal "resources/car/a.lua" then some ⟨some 5, 3, some [1, 2, 3]⟩ else none

/-- The SHA-1 of its archive. -/
def carDigest : List UInt8 :=
  [79, 214, 83, 165, 65, 37, 67, 195, 224, 122, 250, 207, 58, 197, 171, 58, 142, 135, 187, 115]

theorem carWorld_determined : Determined carContents carWorld.files := by
  intro path file hfile
  simp only [carWorld] at hfile
  split at hfile
  · rw [← Option.some.inj hfile]
    rfl
  · exact absurd hfile (by simp)

/-- Two calls, a file that does not belong to the car written between them. -/
theorem car_current : ∃ past s, Run (step fun _ => carDigest) ⟨carWorld, ∅⟩ past s
    ∧ past.length = 3 ∧ ∀ e ∈ past, Current (fun _ => carDigest) e := by
  obtain ⟨past, s, run, hcheck⟩ := exists_run (step fun _ => carDigest) ⟨carWorld, ∅⟩
    [.get car false, .file (literal "notes") (some ⟨none, 0, some [1, 2, 3]⟩), .get car false]
    (fun past _ => past.length = 3 ∧ (∀ e ∈ past, e.op.Respects carContents)
      ∧ Along Telling past) (by decide +kernel)
  obtain ⟨hlength, hfiles, htelling⟩ := of_decide_eq_true hcheck
  exact ⟨past, s, run, hlength, packfile_current (fun _ => carDigest) carContents
    carWorld_determined run hfiles htelling⟩

/-- The script is a client script, and it is a plain file. -/
def scripted : ResourceManifest := ⟨[literal "a.lua"], []⟩
def moved : ResourceManifest := ⟨[], [literal "a.lua"]⟩

/-- What a call finds of the car, whatever its manifest is. -/
def carFound (manifest : ResourceManifest) : Found := ⟨carRoot, manifest, carWorld.files⟩

def carEntries (manifest : ResourceManifest) : List TocEntry :=
  [.dir [] 2 1, .file (literal "a.lua") [1, 2, 3],
    .file (literal "fxmanifest.lua") (generateFxmanifest manifest)]

theorem flatten_scripted :
    flatten (rootOf (carFound scripted).inputs) = some (carEntries scripted) := by
  decide +kernel

theorem flatten_moved : flatten (rootOf (carFound moved).inputs) = some (carEntries moved) := by
  decide +kernel

/-- Neither the files nor their fingerprint tell the two manifests apart. -/
theorem print_moved : (carFound scripted).print = (carFound moved).print := by decide +kernel

/-- The two archives differ in the length of the generated manifest. -/
theorem archives_differ : layOut (carEntries scripted) ≠ layOut (carEntries moved) := by
  intro hsame
  exact absurd (length_of_layOut_eq (i := 2) hsame rfl rfl) (by decide +kernel)

/-- The archive of the car with its script, and the cache that holds it. -/
def carArchive : CachedPackfile := ⟨layOut (carEntries scripted), hexEncode carDigest⟩

def carCache : PackfileCache :=
  (∅ : PackfileCache).insert car ((carFound scripted).print, carArchive)

/-- The world in which the script is a plain file. -/
def movedWorld : World :=
  { carWorld with started := Function.update carWorld.started car (some (carRoot, moved)) }

theorem toPack_carWorld : carWorld.toPack car false = some (carFound scripted) := by
  have hlist : ¬ (clientFileList scripted = [] ∧ ¬ false = true) := by decide +kernel
  show (if clientFileList scripted = [] ∧ ¬ false = true then none
    else some (carFound scripted)) = _
  exact if_neg hlist

theorem toPack_movedWorld : movedWorld.toPack car false = some (carFound moved) := by
  have hlist : ¬ (clientFileList moved = [] ∧ ¬ false = true) := by decide +kernel
  show (if clientFileList moved = [] ∧ ¬ false = true then none else some (carFound moved)) = _
  exact if_neg hlist

/-- The first call builds the archive. -/
theorem car_built : step (fun _ => carDigest) (.get car false) ⟨carWorld, ∅⟩
    = some (⟨carWorld, carCache⟩, some carArchive) := by
  have hbuild : build (fun _ => carDigest) (carFound scripted) = some carArchive := by
    unfold build buildRpf
    rw [flatten_scripted]
    rfl
  simp only [step, get, toPack_carWorld, hbuild]
  rfl

/-- The call after the move is answered from the cache. -/
theorem car_kept : step (fun _ => carDigest) (.get car false) ⟨movedWorld, carCache⟩
    = some (⟨movedWorld, carCache⟩, some carArchive) := by
  have hkept : (carCache.lookup car).filter (fun entry => entry.1 = (carFound moved).print)
      = some ((carFound scripted).print, carArchive) := by
    rw [carCache, AList.lookup_insert, Option.filter_some, if_pos (by simp [print_moved])]
  simp only [step, get, toPack_movedWorld, hkept]
  rfl

/-- The cache is not always current: the script becomes a plain file, and the archive still has
the old manifest. -/
theorem moved_script_stale : ¬ ∀ (sha1 : List UInt8 → List UInt8)
    (contents : Name → Option Int → UInt64 → Option (List UInt8)) (world : World),
    Determined contents world.files →
      ∀ (past : List (Entry State Op (Option CachedPackfile))) (s : State),
        Run (step sha1) ⟨world, ∅⟩ past s → (∀ e ∈ past, e.op.Respects contents) →
          ∀ e ∈ past, Current sha1 e := by
  intro hclaim
  have hmove : step (fun _ => carDigest) (.manifest car (some (carRoot, moved)))
      ⟨carWorld, carCache⟩ = some (⟨movedWorld, carCache⟩, none) := rfl
  have run := ((Run.nil.snoc car_built).snoc hmove).snoc car_kept
  have hcurrent := hclaim _ carContents carWorld carWorld_determined _ _ run (by
    intro e he
    simp only [List.mem_cons, List.not_mem_nil, or_false] at he
    rcases he with rfl | rfl | rfl
    · exact trivial
    · exact trivial
    · exact trivial) _ List.mem_cons_self
  simp only [Current, toPack_movedWorld] at hcurrent
  obtain ⟨bytes, hbytes, hanswer⟩ := hcurrent
  rw [buildRpf, flatten_moved] at hbytes
  exact archives_differ ((CachedPackfile.mk.inj (Option.some.inj hanswer)).1.trans
    (Option.some.inj hbytes).symm)

end Baston.Gateway.Packfiles
