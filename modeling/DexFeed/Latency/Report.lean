import DexFeed.Latency.Window
import DexFeed.Number.Significant

/-!
# Latency reports

The text that shows a window: a heading, how many samples are kept and recorded, and the figures in
microseconds with six significant digits. A figure is first a binary64 number of nanoseconds and
then divided by a thousand, and each of the two steps rounds. A window without samples has a report
of one line.
-/

namespace DexFeed.SampleWindow

/-- A number of nanoseconds in microseconds. -/
def microseconds (ns : Binary64) : String :=
  let us := ns.divNat 1000
  Significant.text 6 us.ratio.1 us.ratio.2

/-- The line of a figure. -/
def figure (label : String) (ns : Binary64) : String :=
  label ++ microseconds ns ++ " us\n"

/-- The part of a report that names the window and counts its samples. -/
def reportHead (w : SampleWindow) (name : String) : String :=
  if w.count = 0 then name ++ ": no samples\n"
  else
    "=== " ++ name ++ " latency ===\n" ++
      "Samples: " ++ toString w.count ++ " of " ++ toString w.total ++ "\n"

/-- The part of a report that gives the figures, empty without samples. -/
def reportFigures (w : SampleWindow) : String :=
  if w.count = 0 then ""
  else
    let s := w.summary
    let exact (n : Nat) : Binary64 := Binary.nearest n 1
    figure "Min:     " (exact s.least) ++ figure "Avg:     " s.mean ++
      figure "P50:     " (exact s.p50) ++ figure "P95:     " (exact s.p95) ++
      figure "P99:     " (exact s.p99) ++ figure "P99.9:   " (exact s.p999) ++
      figure "Max:     " (exact s.greatest) ++ "\n"

/-- The report on a window. -/
def report (w : SampleWindow) (name : String) : String :=
  w.reportHead name ++ w.reportFigures

end DexFeed.SampleWindow
