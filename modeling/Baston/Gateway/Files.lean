/-
Resource delivery (`http/files.rs`): byte ranges, and the bodies they are answered with.

A file on disk is streamed in chunks, so what is sent depends on how much each read hands back;
a packfile in memory is sliced.  Offsets are 64-bit words, and every operation on them that could
leave their range is checked.
-/
import Baston.Gateway.Auth
import Baston.Lib.Checked

namespace Baston.Gateway

structure ByteRange where
  start : Nat
  endInclusive : Nat
  deriving DecidableEq

def ByteRange.len (r : ByteRange) : Checked Nat := do
  let gap ← Checked.sub r.endInclusive r.start
  Checked.add gap 1

/-! ### Range headers -/

/-- `str::strip_prefix`. -/
def stripLead (lead text : List Char) : Option (List Char) :=
  if lead.isPrefixOf text then some (text.drop lead.length) else none

/-- `str::split_once`. -/
def splitOnceAt (sep : Char) : List Char → Option (List Char × List Char)
  | [] => none
  | c :: rest =>
    if c = sep then some ([], rest) else (splitOnceAt sep rest).map fun p => (c :: p.1, p.2)

/-- `none` is the error of the source. -/
def parseRange (value : List Char) (size : Nat) : Checked (Option ByteRange) :=
  match stripLead "bytes=".toList value with
  | none => .ok none
  | some spec =>
    if ',' ∈ spec then .ok none
    else
      match splitOnceAt '-' spec with
      | none => .ok none
      | some (start, stop) =>
        if size = 0 then .ok none
        else
          match start.isEmpty, stop.isEmpty with
          | false, false =>
            match parseU64 start, parseU64 stop with
            | some start, some stop =>
              if start > stop ∨ start.toNat ≥ size then .ok none
              else do
                let last ← Checked.sub size 1
                pure (some ⟨start.toNat, min stop.toNat last⟩)
            | _, _ => .ok none
          | false, true =>
            match parseU64 start with
            | some start =>
              if start.toNat ≥ size then .ok none
              else do
                let last ← Checked.sub size 1
                pure (some ⟨start.toNat, last⟩)
            | none => .ok none
          | true, false =>
            match parseU64 stop with
            | some suffix =>
              if suffix = 0 then .ok none
              else do
                let start ← Checked.sub size (min suffix.toNat size)
                let last ← Checked.sub size 1
                pure (some ⟨start, last⟩)
            | none => .ok none
          | true, true => .ok none

/-- The range of the request's header; the outer `none` is the error.  `toStr` is
`HeaderValue::to_str`. -/
def requestedRange (toStr : List UInt8 → Option (List Char)) (header : Option (List UInt8))
    (size : Nat) : Checked (Option (Option ByteRange)) :=
  match header with
  | none => .ok (some none)
  | some value =>
    match toStr value with
    | none => .ok none
    | some text => (parseRange text size).map fun r => r.map some

/-! ### Responses -/

inductive StatusCode
  | ok | partialContent | rangeNotSatisfiable | serviceUnavailable | internalServerError
  | requestTimeout
  deriving DecidableEq

/-- How a body ends. -/
inductive Ending
  | normal | failed | timedOut | unexpectedEof
  deriving DecidableEq

/-- The chunks of a body, and its end if it has come to it. -/
structure Body where
  chunks : List (List UInt8)
  ending : Option Ending

def Body.empty : Body := ⟨[], some .normal⟩

structure Response where
  status : StatusCode
  contentType : Option String := none
  acceptRanges : Option String := none
  contentLength : Option String := none
  contentRange : Option String := none
  body : Body

def rangeNotSatisfiable (size : Nat) : Response where
  status := .rangeNotSatisfiable
  acceptRanges := some "bytes"
  contentRange := some ("bytes */" ++ toString size)
  body := .empty

/-- The number of bytes that are asked for. -/
def rangeLen (size : Nat) : Option ByteRange → Checked Nat
  | some range => range.len
  | none => .ok size

def responseHeaders (status : StatusCode) (contentType : String) (size : Nat)
    (range : Option ByteRange) (body : Body) : Checked Response := do
  let length ← rangeLen size range
  pure {
    status
    contentType := some contentType
    acceptRanges := some "bytes"
    contentLength := some (toString length)
    contentRange := range.map fun range => "bytes " ++ toString range.start ++ "-"
      ++ toString range.endInclusive ++ "/" ++ toString size
    body }

/-! ### Bodies from disk -/

/-- What comes of asking the disk for something. -/
inductive DiskOutcome
  | done | failed | timedOut

/-- What comes of a read: at most this many bytes, or nothing. -/
inductive ReadOutcome
  | read (most : Nat)
  | failed
  | timedOut

structure DiskStream where
  /-- Where the file is read next. -/
  position : Nat
  remaining : Nat
  chunkSize : Nat

/-- The body as far as the reads go. -/
def diskBody (file : List UInt8) : DiskStream → List ReadOutcome → Checked Body
  | state, [] => .ok ⟨[], if state.remaining = 0 then some .normal else none⟩
  | state, outcome :: rest =>
    if state.remaining = 0 then .ok ⟨[], some .normal⟩
    else
      match outcome with
      | .failed => .ok ⟨[], some .failed⟩
      | .timedOut => .ok ⟨[], some .timedOut⟩
      | .read most =>
        let capacity := min state.remaining state.chunkSize
        let bytes := (file.drop state.position).take (min most capacity)
        if bytes.length = 0 then .ok ⟨[], some .unexpectedEof⟩
        else do
          let remaining ← Checked.sub state.remaining bytes.length
          let body ← diskBody file { state with
            position := state.position + bytes.length, remaining := remaining } rest
          pure ⟨bytes :: body.chunks, body.ending⟩

/-! ### Serving -/

section Serving

variable (toStr : List UInt8 → Option (List Char))

inductive Method
  | get | head

/-- The status of a whole answer or a part. -/
def statusOf (range : Option ByteRange) : StatusCode :=
  if range.isSome then .partialContent else .ok

/-- `acquired`: there is a permit in time. -/
def serveMemory (method : Method) (header : Option (List UInt8)) (acquired : Bool)
    (bytes : List UInt8) : Checked Response := do
  let size := bytes.length
  match ← requestedRange toStr header size with
  | none => pure (rangeNotSatisfiable size)
  | some range =>
    match method with
    | .head => responseHeaders (statusOf range) "application/octet-stream" size range .empty
    | .get =>
      if acquired then do
        let selected ← match range with
          | some range => do
            let stop ← Checked.add range.endInclusive 1
            Checked.slice bytes range.start stop
          | none => pure bytes
        responseHeaders (statusOf range) "application/octet-stream" size range
          ⟨[selected], some .normal⟩
      else pure { status := .serviceUnavailable, body := .empty }

/-- `serve_disk` once the path is known to be a file that may be served. -/
def serveDisk (method : Method) (header : Option (List UInt8)) (contentType : String)
    (acquired : Bool) (opened sought : DiskOutcome) (chunkSize : Nat) (reads : List ReadOutcome)
    (file : List UInt8) : Checked Response := do
  let size := file.length
  match ← requestedRange toStr header size with
  | none => pure (rangeNotSatisfiable size)
  | some range =>
    match method with
    | .head => responseHeaders (statusOf range) contentType size range .empty
    | .get =>
      if acquired then
        match opened with
        | .failed => pure { status := .internalServerError, body := .empty }
        | .timedOut => pure { status := .requestTimeout, body := .empty }
        | .done =>
          let start := (range.map ByteRange.start).getD 0
          match if start ≠ 0 then sought else .done with
          | .failed => pure { status := .internalServerError, body := .empty }
          | .timedOut => pure { status := .requestTimeout, body := .empty }
          | .done => do
            let remaining ← rangeLen size range
            let body ← diskBody file ⟨start, remaining, chunkSize⟩ reads
            responseHeaders (statusOf range) contentType size range body
      else pure { status := .serviceUnavailable, body := .empty }

end Serving

end Baston.Gateway
