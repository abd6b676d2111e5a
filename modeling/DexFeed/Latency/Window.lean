import DexFeed.Number.Rounding

/-!
# Windows of latency samples

A window keeps the most recent samples, up to a capacity of at least one, and the number of all
samples recorded since it was last emptied. While there is room a sample is appended; after that it
takes the place of the oldest, which is the one at the total modulo the capacity. `summary` gives
the extremes, the mean and four quantiles of the samples that are kept; a quantile is the element of
their sorted order at a rank that is rounded down. The mean is worked out in the extended format,
where every addition rounds, from the smallest sample up, and so does the division, and is then
rounded once more. Samples and their number have 64 bits in the running program and are natural
numbers here.
-/

namespace DexFeed

/-- The most recent latency samples, in nanoseconds. -/
structure SampleWindow where
  /-- How many samples are kept at most. -/
  capacity : Nat
  /-- The samples, in the order of their places. -/
  samples : Array Nat
  /-- How many samples were recorded, kept or not. -/
  total : Nat
deriving DecidableEq

/-- What is known about the samples of a window; all zero if there are none. -/
structure Summary where
  /-- The smallest sample. -/
  least : Nat
  /-- The largest sample. -/
  greatest : Nat
  /-- The mean, rounded to binary64. -/
  mean : Binary64
  /-- The sample at half of the ranks. -/
  p50 : Nat
  /-- The sample at 95 of 100 ranks. -/
  p95 : Nat
  /-- The sample at 99 of 100 ranks. -/
  p99 : Nat
  /-- The sample at 999 of 1000 ranks. -/
  p999 : Nat
  /-- How many samples are kept. -/
  count : Nat
  /-- How many samples were recorded. -/
  total : Nat
deriving DecidableEq

namespace SampleWindow

/-- A window without samples; a capacity of zero counts as one. -/
def ofCapacity (n : Nat) : SampleWindow :=
  ⟨max n 1, #[], 0⟩

/-- Records a sample. -/
def record (w : SampleWindow) (sample : Nat) : SampleWindow :=
  if w.samples.size < w.capacity then
    { w with samples := w.samples.push sample, total := w.total + 1 }
  else
    { w with
      samples := w.samples.setIfInBounds (w.total % w.capacity) sample
      total := w.total + 1 }

/-- Forgets all samples. -/
def reset (w : SampleWindow) : SampleWindow :=
  { w with samples := #[], total := 0 }

/-- The number of samples that are kept. -/
def count (w : SampleWindow) : Nat :=
  w.samples.size

/-- The samples in ascending order. -/
def sorted (w : SampleWindow) : List Nat :=
  w.samples.toList.mergeSort

/-- The rank of a quantile `per / of` among `count` samples. -/
def rank (count per of : Nat) : Nat :=
  count * per / of

/-- What is known about the samples. -/
def summary (w : SampleWindow) : Summary :=
  let s := w.sorted
  let n := s.length
  let quantile (per of : Nat) : Nat := s.getD (rank n per of) 0
  { least := s.headD 0
    greatest := s.getLastD 0
    mean := ((s.foldl Binary.addNat (Binary.zero : Extended)).divNat n).convert
    p50 := quantile 50 100
    p95 := quantile 95 100
    p99 := quantile 99 100
    p999 := quantile 999 1000
    count := n
    total := w.total }

/-- Sorting keeps the number of samples. -/
theorem length_sorted (w : SampleWindow) : w.sorted.length = w.count := by
  simp [sorted, count, List.length_mergeSort]

end SampleWindow

end DexFeed
