/-
The limit on out-of-band replies (`udp/oob.rs`).

Anybody may ask for server info, and the reply is longer than the question.  So every source
address has a bucket of tokens, in a table that is bounded and that idle buckets are swept from.
Times and tokens are exact, in an ordered field; a time is in seconds.
-/
import Mathlib.Algebra.Order.Field.Basic
import Baston.Lib.Map

namespace Baston.Gateway

open Assoc

def OOB_RATE_PER_SEC : Nat := 5
def OOB_BURST : Nat := 5
def OOB_MAX_TRACKED_IPS : Nat := 8192
def OOB_SWEEP_INTERVAL : Nat := 30

structure Bucket (K : Type) where
  tokens : K
  last : K

/-- Per-address token buckets in a bounded table. -/
structure OobRateLimiter (Ip K : Type) where
  buckets : Map Ip (Bucket K)
  lastSweep : K

variable {Ip K : Type} [DecidableEq Ip] [Field K] [LinearOrder K]

/-- `now.saturating_duration_since(then)`. -/
def saturatingSince (now before : K) : K := max 0 (now - before)

/-- The tokens of a bucket at a time, if nothing were in the way of it. -/
def Bucket.refilled (b : Bucket K) (now : K) : K :=
  b.tokens + saturatingSince now b.last * OOB_RATE_PER_SEC

namespace OobRateLimiter

def new (now : K) : OobRateLimiter Ip K := ⟨∅, now⟩

/-- Periodically drop the buckets that are full again. -/
def maybeSweep (s : OobRateLimiter Ip K) (now : K) : OobRateLimiter Ip K :=
  if saturatingSince now s.lastSweep < OOB_SWEEP_INTERVAL then s
  else ⟨s.buckets.retain fun _ b => b.refilled now < OOB_BURST, now⟩

/-- Consume one token for `ip`; whether a reply is allowed. -/
def allow (s : OobRateLimiter Ip K) (ip : Ip) (now : K) : OobRateLimiter Ip K × Bool :=
  let s := s.maybeSweep now
  -- a full table takes no new address
  if s.buckets.keys.length ≥ OOB_MAX_TRACKED_IPS ∧ ip ∉ s.buckets then (s, false)
  else
    let bucket := (s.buckets.lookup ip).getD ⟨OOB_BURST, now⟩
    let tokens := min (bucket.refilled now) OOB_BURST
    if tokens ≥ 1 then ({ s with buckets := s.buckets.insert ip ⟨tokens - 1, now⟩ }, true)
    else ({ s with buckets := s.buckets.insert ip ⟨tokens, now⟩ }, false)

end OobRateLimiter

end Baston.Gateway
