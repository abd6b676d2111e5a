import Mathlib.Data.List.DropRight
import DexFeed.Latency.Window

/-!
# Histories of latency windows

A window is asked to record samples and to forget them. All that matters later of such a history are
the samples since the last reset, which `recorded` reads off the requests. What a summary should say
of some samples is told by their ascending order, whatever order they stand in.
-/

namespace DexFeed

/-- Something asked of a window. -/
inductive SampleRequest
  /-- To record a sample. -/
  | record (sample : Nat)
  /-- To forget all samples. -/
  | reset
deriving DecidableEq

namespace SampleRequest

/-- The sample that a request records. -/
def sample? : SampleRequest → Option Nat
  | record sample => some sample
  | reset => none

/-- The samples recorded since the last reset, oldest first. -/
def recorded (requests : List SampleRequest) : List Nat :=
  (requests.rtakeWhile (· ≠ reset)).filterMap sample?

end SampleRequest

namespace SampleWindow

/-- The window after a request. -/
def perform (w : SampleWindow) : SampleRequest → SampleWindow
  | .record sample => w.record sample
  | .reset => w.reset

/-- The window that a history of requests leaves. -/
def after (capacity : Nat) (requests : List SampleRequest) : SampleWindow :=
  requests.foldl perform (ofCapacity capacity)

end SampleWindow

/-- A value stands at a rank of the ascending order of some samples. -/
def IsRanked (samples : List Nat) (rank x : Nat) : Prop :=
  ∃ order : List Nat, order.Perm samples ∧ order.Pairwise (· ≤ ·) ∧
    ∃ h : rank < order.length, order[rank] = x

namespace Summary

/-- The summary of no samples. -/
def empty : Summary := ⟨0, 0, Binary.zero, 0, 0, 0, 0, 0, 0⟩

/-- A summary gives the number, the extremes and the quantiles of some samples. -/
structure Describes (s : Summary) (samples : List Nat) : Prop where
  /-- The samples are counted. -/
  count_eq : s.count = samples.length
  /-- The least sample is the minimum. -/
  least : s.least ∈ samples ∧ ∀ x ∈ samples, s.least ≤ x
  /-- The greatest sample is the maximum. -/
  greatest : s.greatest ∈ samples ∧ ∀ x ∈ samples, x ≤ s.greatest
  /-- The median stands at half of the count. -/
  p50 : IsRanked samples (s.count * 50 / 100) s.p50
  /-- The next quantile stands at 95 hundredths of the count. -/
  p95 : IsRanked samples (s.count * 95 / 100) s.p95
  /-- The next quantile stands at 99 hundredths of the count. -/
  p99 : IsRanked samples (s.count * 99 / 100) s.p99
  /-- The last quantile stands at 999 thousandths of the count. -/
  p999 : IsRanked samples (s.count * 999 / 1000) s.p999

end Summary

end DexFeed
