/-
Frames in a stream of bytes.

A frame is a header of a fixed size, which says how long the payload is, and the payload.  A
length over a limit ends the stream.  A reader takes frames off what has arrived so far and keeps
what is left; the stream arrives in pieces that have nothing to do with the frames.

A stream is read in one way only, and the pieces do not matter: `feed_append` says it of two, and
`handed_eq` of any number, with a consumer that may stop the reader after any frame.
-/
import Mathlib.Data.List.Basic

namespace Framing

variable {β τ μ : Type}

/-- How the frames of a stream look. -/
structure Format (β τ : Type) where
  headerSize : Nat
  /-- What a header says: the tag, and the length of the payload. -/
  parse : List β → τ × Nat
  limit : Nat
  headerSize_pos : 0 < headerSize

/-- What is at the start of a stream. -/
inductive Next (β τ : Type)
  /-- Not a whole frame yet. -/
  | starved
  /-- A length over the limit. -/
  | refused
  | frame (tag : τ) (payload rest : List β)

/-- The next frame of what has arrived. -/
def next (f : Format β τ) (bytes : List β) : Next β τ :=
  if bytes.length < f.headerSize then .starved
  else
    let (tag, len) := f.parse (bytes.take f.headerSize)
    let body := bytes.drop f.headerSize
    if f.limit < len then .refused
    else if body.length < len then .starved
    else .frame tag (body.take len) (body.drop len)

/-- What is left of a stream when no more frames can be taken. -/
inductive Tail (β : Type)
  | pending (bytes : List β)
  | refused

/-- All frames of what has arrived; every turn takes a header at least. -/
def takeFrames (f : Format β τ) : Nat → List β → List (τ × List β) × Tail β
  | 0, bytes => ([], .pending bytes)
  | turns + 1, bytes =>
    match next f bytes with
    | .starved => ([], .pending bytes)
    | .refused => ([], .refused)
    | .frame tag payload rest =>
      let (frames, tail) := takeFrames f turns rest
      ((tag, payload) :: frames, tail)

/-- All frames of what has arrived. -/
def feed (f : Format β τ) (bytes : List β) : List (τ × List β) × Tail β :=
  takeFrames f bytes.length bytes

/-! ### One frame -/

variable {f : Format β τ} {bytes rest payload : List β} {tag : τ}

/-- The bytes are those of a frame: a header that says so, and a payload of that length. -/
structure IsFrame (f : Format β τ) (tag : τ) (payload header : List β) : Prop where
  size : header.length = f.headerSize
  parses : f.parse header = (tag, payload.length)
  fits : payload.length ≤ f.limit

theorem next_frame {header : List β} (h : IsFrame f tag payload header) (rest : List β) :
    next f (header ++ payload ++ rest) = .frame tag payload rest := by
  have htake : (header ++ payload ++ rest).take f.headerSize = header := by
    rw [List.append_assoc, ← h.size, List.take_left]
  have hdrop : (header ++ payload ++ rest).drop f.headerSize = payload ++ rest := by
    rw [List.append_assoc, ← h.size, List.drop_left]
  have hlong : ¬ (header ++ payload ++ rest).length < f.headerSize := by
    simp only [List.length_append, h.size]
    omega
  unfold next
  rw [if_neg hlong, htake, hdrop, h.parses]
  simp only [if_neg (Nat.not_lt.mpr h.fits)]
  rw [if_neg (by simp), List.take_left, List.drop_left]

/-- What is taken is a frame at the start of the stream. -/
theorem of_next_frame (h : next f bytes = .frame tag payload rest) :
    ∃ header, IsFrame f tag payload header ∧ bytes = header ++ payload ++ rest := by
  unfold next at h
  split at h
  · cases h
  · rename_i hlong
    cases hparse : f.parse (bytes.take f.headerSize) with
    | mk tag' len =>
        rw [hparse] at h
        simp only at h
        split at h
        · cases h
        · rename_i hlimit
          split at h
          · cases h
          · rename_i hbody
            obtain ⟨rfl, rfl, rfl⟩ := Next.frame.inj h
            have hlen : ((bytes.drop f.headerSize).take len).length = len := by
              rw [List.length_take]
              omega
            refine ⟨bytes.take f.headerSize, ⟨?_, ?_, ?_⟩, ?_⟩
            · rw [List.length_take]
              omega
            · rw [hparse, hlen]
            · rw [hlen]
              omega
            · rw [List.append_assoc, List.take_append_drop, List.take_append_drop]

/-- A frame takes up room. -/
theorem next_frame_length (h : next f bytes = .frame tag payload rest) :
    rest.length < bytes.length := by
  obtain ⟨header, hframe, rfl⟩ := of_next_frame h
  have := f.headerSize_pos
  simp only [List.length_append, hframe.size]
  omega

/-- A stream that has been refused stays refused. -/
theorem next_refused_append (h : next f bytes = .refused) (more : List β) :
    next f (bytes ++ more) = .refused := by
  unfold next at h ⊢
  split at h
  · cases h
  · rename_i hlong
    have hlong' : ¬ (bytes ++ more).length < f.headerSize := by
      rw [List.length_append]
      omega
    have htake : (bytes ++ more).take f.headerSize = bytes.take f.headerSize :=
      List.take_append_of_le_length (by omega)
    rw [if_neg hlong', htake]
    cases hparse : f.parse (bytes.take f.headerSize) with
    | mk tag' len =>
        rw [hparse] at h
        simp only at h ⊢
        split at h
        · rename_i hlimit
          rw [if_pos hlimit]
        · split at h <;> cases h

/-! ### All frames -/

/-- More turns than bytes make no difference. -/
theorem takeFrames_of_le : ∀ {turns : Nat} {bytes : List β}, bytes.length ≤ turns →
    takeFrames f turns bytes = feed f bytes := by
  have key : ∀ (turns turns' : Nat) (bytes : List β), bytes.length ≤ turns →
      bytes.length ≤ turns' → takeFrames f turns bytes = takeFrames f turns' bytes := by
    intro turns
    induction turns with
    | zero =>
        intro turns' bytes h h'
        obtain rfl := List.length_eq_zero_iff.mp (Nat.le_zero.mp h)
        have hstarved : next f ([] : List β) = .starved := if_pos f.headerSize_pos
        cases turns' with
        | zero => rfl
        | succ _ => simp only [takeFrames, hstarved]
    | succ turns ih =>
        intro turns' bytes h h'
        cases turns' with
        | zero =>
            obtain rfl := List.length_eq_zero_iff.mp (Nat.le_zero.mp h')
            have hstarved : next f ([] : List β) = .starved := if_pos f.headerSize_pos
            simp only [takeFrames, hstarved]
        | succ turns' =>
            unfold takeFrames
            cases hnext : next f bytes with
            | starved => rfl
            | refused => rfl
            | frame tag payload rest =>
                have hlt := next_frame_length hnext
                simp only
                rw [ih turns' rest (by omega) (by omega)]
  intro turns bytes h
  exact key turns bytes.length bytes h (Nat.le_refl _)

theorem feed_starved (h : next f bytes = .starved) : feed f bytes = ([], .pending bytes) := by
  rw [← takeFrames_of_le (Nat.le_succ bytes.length), takeFrames, h]

theorem feed_refused (h : next f bytes = .refused) : feed f bytes = ([], .refused) := by
  rw [← takeFrames_of_le (Nat.le_succ bytes.length), takeFrames, h]

theorem feed_frame (h : next f bytes = .frame tag payload rest) :
    feed f bytes = ((tag, payload) :: (feed f rest).1, (feed f rest).2) := by
  have hlt := next_frame_length h
  rw [← takeFrames_of_le (Nat.le_succ bytes.length), takeFrames, h]
  simp only [takeFrames_of_le (Nat.le_of_lt hlt)]

/-- What a reader does with what arrives after it has taken what it can. -/
def resume (f : Format β τ) (frames : List (τ × List β)) (tail : Tail β) (more : List β) :
    List (τ × List β) × Tail β :=
  match tail with
  | .refused => (frames, .refused)
  | .pending bytes => (frames ++ (feed f (bytes ++ more)).1, (feed f (bytes ++ more)).2)

/-- **The pieces do not matter.**  Two pieces are read as one. -/
theorem feed_append (bytes more : List β) :
    feed f (bytes ++ more) = resume f (feed f bytes).1 (feed f bytes).2 more := by
  induction hlen : bytes.length using Nat.strongRecOn generalizing bytes with
  | ind n ih =>
      cases hnext : next f bytes with
      | starved =>
          rw [feed_starved hnext]
          rfl
      | refused =>
          rw [feed_refused hnext, feed_refused (next_refused_append hnext more)]
          rfl
      | frame tag payload rest =>
          have hlt := next_frame_length hnext
          obtain ⟨header, hframe, rfl⟩ := of_next_frame hnext
          have hmore := next_frame hframe (rest ++ more)
          rw [← List.append_assoc] at hmore
          rw [feed_frame hmore, feed_frame hnext, ih rest.length (hlen ▸ hlt) rest rfl]
          cases (feed f rest).2 <;> rfl

/-- No frame can be taken off what is left. -/
def Tail.Stuck (f : Format β τ) (left : List β) : Tail β → Prop
  | .pending bytes => bytes = left ∧ next f left = .starved
  | .refused => next f left = .refused

/-- **A stream is made of frames**, up to what is left of it. -/
theorem feed_spec (bytes : List β) : ∃ headers left,
    List.Forall₂ (fun frame header => IsFrame f frame.1 frame.2 header) (feed f bytes).1 headers ∧
      bytes = (List.zipWith (fun frame header => header ++ frame.2) (feed f bytes).1
        headers).flatten ++ left ∧
      (feed f bytes).2.Stuck f left := by
  induction hlen : bytes.length using Nat.strongRecOn generalizing bytes with
  | ind n ih =>
      cases hnext : next f bytes with
      | starved =>
          rw [feed_starved hnext]
          exact ⟨[], bytes, .nil, rfl, rfl, hnext⟩
      | refused =>
          rw [feed_refused hnext]
          exact ⟨[], bytes, .nil, rfl, hnext⟩
      | frame tag payload rest =>
          have hlt := next_frame_length hnext
          obtain ⟨header, hframe, hbytes⟩ := of_next_frame hnext
          obtain ⟨headers, left, hall, hrest, hstuck⟩ := ih rest.length (hlen ▸ hlt) rest rfl
          rw [feed_frame hnext]
          refine ⟨header :: headers, left, .cons hframe hall, ?_, hstuck⟩
          rw [List.zipWith_cons_cons, List.flatten_cons, List.append_assoc, ← hrest]
          exact hbytes

/-- **And in one way only**: the frames at the start of a stream are the first that are taken. -/
theorem feed_frames (more : List β) :
    ∀ {frames : List (τ × List β)} {headers : List (List β)},
      List.Forall₂ (fun frame header => IsFrame f frame.1 frame.2 header) frames headers →
      feed f ((List.zipWith (fun frame header => header ++ frame.2) frames headers).flatten
        ++ more) = (frames ++ (feed f more).1, (feed f more).2) := by
  intro frames headers hall
  induction hall with
  | nil => rfl
  | @cons frame header frames headers hframe hall ih =>
      rw [List.zipWith_cons_cons, List.flatten_cons, List.append_assoc,
        feed_frame (next_frame hframe _), ih]
      rfl

/-! ### A consumer -/

/-- A reader with its consumer: what it has not taken yet, how many frames it has handed on, and
whether it reads on. -/
structure Reader (β : Type) where
  pending : List β := []
  handed : Nat := 0
  reading : Bool := true

/-- The frames that mean something are handed on, until the consumer says stop: `goesOn n` is what
it says after the `n`-th. -/
def handOn (meaning : τ × List β → Option μ) (goesOn : Nat → Bool) :
    Nat → List (τ × List β) → List μ × Nat × Bool
  | n, [] => ([], n, true)
  | n, frame :: frames =>
    match meaning frame with
    | none => handOn meaning goesOn n frames
    | some message =>
      if goesOn n then
        let (messages, n, reading) := handOn meaning goesOn (n + 1) frames
        (message :: messages, n, reading)
      else ([message], n + 1, false)

/-- The reader after it has taken all frames. -/
def Reader.after (tail : Tail β) (handed : Nat) (reading : Bool) : Reader β :=
  match tail with
  | .pending bytes => { pending := bytes, handed, reading }
  | .refused => { handed, reading := false }

/-- A piece arrives. -/
def Reader.arrive (f : Format β τ) (meaning : τ × List β → Option μ) (goesOn : Nat → Bool)
    (r : Reader β) (piece : List β) : Reader β × List μ :=
  if r.reading then
    let (frames, tail) := feed f (r.pending ++ piece)
    let (messages, handed, reading) := handOn meaning goesOn r.handed frames
    (Reader.after tail handed reading, messages)
  else (r, [])

/-- Several pieces arrive. -/
def Reader.arriveAll (f : Format β τ) (meaning : τ × List β → Option μ) (goesOn : Nat → Bool) :
    Reader β → List (List β) → List μ
  | _, [] => []
  | r, piece :: pieces =>
    let (r, messages) := r.arrive f meaning goesOn piece
    messages ++ r.arriveAll f meaning goesOn pieces

variable {meaning : τ × List β → Option μ} {goesOn : Nat → Bool}

theorem handOn_append : ∀ (frames more : List (τ × List β)) (n : Nat),
    handOn meaning goesOn n (frames ++ more)
      = if (handOn meaning goesOn n frames).2.2 then
          ((handOn meaning goesOn n frames).1
              ++ (handOn meaning goesOn (handOn meaning goesOn n frames).2.1 more).1,
            (handOn meaning goesOn (handOn meaning goesOn n frames).2.1 more).2)
        else handOn meaning goesOn n frames := by
  intro frames more
  induction frames with
  | nil =>
      intro n
      simp [handOn]
  | cons frame frames ih =>
      intro n
      simp only [List.cons_append, handOn]
      cases meaning frame with
      | none => exact ih n
      | some message =>
          simp only
          split
          · rw [ih (n + 1)]
            split <;> rfl
          · rfl

/-- What a consumer has got of the messages of a stream: all of them up to the first after which
it says stop. -/
structure HandedOn (goesOn : Nat → Bool) (messages handed : List μ) : Prop where
  isPrefix : handed <+: messages
  before_last : ∀ n, n + 1 < handed.length → goesOn n = true
  all : (∀ n, n < handed.length → goesOn n = true) → handed = messages

/-- A message is handed on unless the consumer has said stop before it. -/
theorem HandedOn.reaches {messages handed : List μ} (h : HandedOn goesOn messages handed) {i : Nat}
    (hi : i < messages.length) (hgoes : ∀ n < i, goesOn n = true) : i < handed.length := by
  rcases Nat.lt_or_ge i handed.length with hlt | hge
  · exact hlt
  · have hall := h.all fun n hn => hgoes n (Nat.lt_of_lt_of_le hn hge)
    rw [hall]
    exact hi

theorem handedOn_of_handOn (meaning : τ × List β → Option μ) (goesOn : Nat → Bool) :
    ∀ (frames : List (τ × List β)) (n : Nat),
    HandedOn (fun k => goesOn (n + k)) (frames.filterMap meaning)
      (handOn meaning goesOn n frames).1 := by
  intro frames
  induction frames with
  | nil =>
      intro n
      exact ⟨List.prefix_rfl, fun k h => absurd h (by simp [handOn]), fun _ => rfl⟩
  | cons frame frames ih =>
      intro n
      cases hmeaning : meaning frame with
      | none =>
          rw [List.filterMap_cons_none hmeaning]
          simp only [handOn, hmeaning]
          exact ih n
      | some message =>
          obtain ⟨hfirst, hgoes, hall⟩ := ih (n + 1)
          rw [List.filterMap_cons_some hmeaning]
          simp only [handOn, hmeaning]
          split
          · rename_i hgo
            refine ⟨(List.prefix_cons_inj message).mpr hfirst, ?_, ?_⟩
            · intro k hk
              cases k with
              | zero => exact hgo
              | succ k =>
                  have hk' := hgoes k (by simpa using hk)
                  rwa [Nat.add_assoc, Nat.add_comm 1 k] at hk'
            · intro h
              refine congrArg (message :: ·) (hall fun k hk => ?_)
              have hk' := h (k + 1) (by simpa using hk)
              rwa [← Nat.add_comm 1 k, ← Nat.add_assoc] at hk'
          · rename_i hstop
            refine ⟨⟨frames.filterMap meaning, rfl⟩, ?_, ?_⟩
            · intro k hk
              exact absurd hk (by simp)
            · intro h
              exact absurd (h 0 (by simp)) hstop

theorem arriveAll_closed (r : Reader β) (h : r.reading = false) : ∀ pieces : List (List β),
    r.arriveAll f meaning goesOn pieces = [] := by
  intro pieces
  induction pieces with
  | nil => rfl
  | cons piece pieces ih =>
      have hsame : r.arrive f meaning goesOn piece = (r, []) := by simp [Reader.arrive, h]
      simp only [Reader.arriveAll, hsame, ih, List.append_nil]

/-- What is left when frames have been taken is not a whole frame. -/
theorem starved_of_pending {left : List β} (h : (feed f bytes).2 = .pending left) :
    next f left = .starved := by
  obtain ⟨headers, left', -, -, hstuck⟩ := feed_spec (f := f) bytes
  rw [h] at hstuck
  obtain ⟨rfl, hnext⟩ := hstuck
  exact hnext

/-- **What is handed on does not depend on the pieces**: it is what a consumer takes of the frames
of the whole stream. -/
theorem handed_eq : ∀ (pieces : List (List β)) (r : Reader β), r.reading = true →
    next f r.pending = .starved →
    r.arriveAll f meaning goesOn pieces
      = (handOn meaning goesOn r.handed (feed f (r.pending ++ pieces.flatten)).1).1 := by
  intro pieces
  induction pieces with
  | nil =>
      intro r _ hstarved
      rw [List.flatten_nil, List.append_nil, feed_starved hstarved]
      rfl
  | cons piece pieces ih =>
      intro r hreading _
      rw [List.flatten_cons, ← List.append_assoc, feed_append]
      simp only [Reader.arriveAll, Reader.arrive, if_pos hreading]
      cases htail : (feed f (r.pending ++ piece)).2 with
      | refused =>
          simp only [resume, Reader.after]
          rw [arriveAll_closed _ rfl, List.append_nil]
      | pending bytes =>
          simp only [resume, Reader.after]
          rw [handOn_append]
          cases hgoes : (handOn meaning goesOn r.handed (feed f (r.pending ++ piece)).1).2.2 with
          | false =>
              rw [arriveAll_closed _ rfl, List.append_nil]
              simp
          | true => rw [ih _ rfl (starved_of_pending htail), if_pos rfl]

end Framing
