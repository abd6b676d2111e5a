import DexFeed.Log.Trace
import DexFeed.Proofs.Log.Scan

/-!
# What programs print

A program prints a text on a line of its own behind `Program log: `. To the scan `log:` is a word
like any id, so a text that reads as an outcome is taken for a report: the payload that follows it
is attributed to nobody. All other texts leave the payloads and their attribution as they are.
-/

namespace DexFeed

namespace LogLine

/-- The line on which a program prints a text. -/
def printed (text : Bytes) : Bytes :=
  ascii "Program log: " ++ text

/-- A printed line reads as a line about a program called `log:`. -/
theorem printed_eq (text : Bytes) :
    printed text = ascii "Program " ++ ascii "log:" ++ 32 :: text := rfl

/-- What a printed line seems to say about a call is decided by the text. -/
theorem invocation?_printed (text : Bytes) :
    invocation? (printed text) = outcome? (ascii "log:") text := by
  rw [printed_eq, invocation?_words (by decide)]

/-- Whether a printed line is taken for a report depends on the text alone. -/
theorem isReport_printed_iff (text : Bytes) : IsReport (printed text) ↔ IsOutcome text := by
  rw [← not_iff_not, ← invocation?_eq_none_iff, invocation?_printed, outcome?_eq_none_iff]

/-- A text without a marker does not make a printed line marked. -/
theorem isMarked_printed {text : Bytes} (hm : isMarked text = false) :
    isMarked (printed text) = false := by
  rw [Bool.eq_false_iff, Ne, isMarked_iff] at hm ⊢
  intro hline
  have hcut : printed text = ascii "Program" ++ 32 :: (ascii "log:" ++ 32 :: text) := rfl
  rw [hcut] at hline
  rcases infix_marker_cut (by decide) hline with hline | ⟨-, hdata⟩
  · rcases infix_marker_cut (by decide) hline with htext | ⟨hend, -⟩
    · exact hm htext
    · exact absurd hend (by decide)
  · have hhead : some (108 : UInt8) = some 100 := head?_of_data hdata
    exact absurd hhead (by decide)

end LogLine

namespace Emission

/-- An emission in a log with one more line at a position. -/
def moved (position : Nat) (e : Emission) : Emission :=
  if position ≤ e.lineIndex then { e with lineIndex := e.lineIndex + 1 } else e

/-- A line that neither carries a payload nor reports an invocation only moves the lines behind
it. -/
theorem all_insert {line : Bytes} (hm : LogLine.isMarked line = false)
    (hr : ¬ LogLine.IsReport line) (enabled : ProtocolSet) (before after : List Bytes) :
    all enabled (before ++ line :: after) =
      (all enabled (before ++ after)).map (moved before.length) := by
  have hbefore : (scan enabled false some CallStack.start 0 before).map (moved before.length) =
      scan enabled false some CallStack.start 0 before := by
    refine (List.map_congr_left fun e he => ?_).trans (List.map_id _)
    have hlt := (lineIndex_bounds he).2
    rw [moved, if_neg (by omega), id]
  have hafter : (scan enabled false some (CallStack.start.run before) before.length after).map
      (moved before.length) =
        scan enabled false some (CallStack.start.run before) (before.length + 1) after := by
    rw [scan_succ, List.map_inj_left]
    intro e he
    rw [moved, if_pos (lineIndex_bounds he).1]
  rw [all, all, scan_append, scan_append, scan_cons, ofLine?_of_unmarked hm,
    CallStack.step_of_not_isReport hr, List.map_append, hbefore, Nat.zero_add, hafter]
  rfl

/-- A line that begins the invocation of a known program. -/
def begun : Bytes :=
  Trace.enterLine (ascii Protocol.pumpFun.idText) 1

/-- In front of the printed line the payload belongs to the program that was called. -/
theorem all_begun : all .full ([begun] ++ [Trace.dataLine [0]]) = [⟨.pumpFun, 0, 1, [0]⟩] := by
  decide +kernel

/-- A printed outcome ends the program that logs the payload, or puts another one on top of it. -/
theorem all_begun_insert {text : Bytes} (hm : LogLine.isMarked text = false)
    (ho : LogLine.IsOutcome text) :
    all .full ([begun] ++ LogLine.printed text :: [Trace.dataLine [0]]) = [] := by
  have hrun : CallStack.start.run [begun] = ⟨[ascii Protocol.pumpFun.idText], 1⟩ := by
    decide +kernel
  have hfirst : scan .full false some CallStack.start 0 [begun] = [] := by
    decide +kernel
  have hnobody :
      ((CallStack.start.run [begun]).step (LogLine.printed text)).protocol? .full = none := by
    rw [hrun, CallStack.step_of_unmarked (LogLine.isMarked_printed hm),
      LogLine.invocation?_printed, LogLine.outcome?]
    split
    · rfl
    · rw [if_pos (ho.resolve_left ‹_›)]
      rfl
  rw [all, scan_append, hfirst, scan_cons,
    ofLine?_of_unmarked (LogLine.isMarked_printed hm), scan_cons, ofLine?_of_no_protocol hnobody]
  rfl

/-- Exactly the texts that do not read as an outcome can be printed anywhere without changing which
payloads are found and how they are attributed. No line but a report moves the running programs
and the count of top-level invocations. -/
theorem all_insert_printed_iff {text : Bytes} (hm : LogLine.isMarked text = false) :
    ((∀ (enabled : ProtocolSet) (before after : List Bytes),
      all enabled (before ++ LogLine.printed text :: after) =
        (all enabled (before ++ after)).map (moved before.length)) ↔
      ¬ LogLine.IsOutcome text) ∧
    ∀ (s : CallStack) (line : Bytes), s.step line ≠ s →
      LogLine.isMarked line = false ∧ LogLine.IsReport line := by
  refine ⟨⟨?_, ?_⟩, fun s line h => CallStack.isReport_of_step_ne h⟩
  · intro hall ho
    have hlost := hall .full [begun] [Trace.dataLine [0]]
    rw [all_begun_insert hm ho, all_begun] at hlost
    contradiction
  · intro ho enabled before after
    exact all_insert (LogLine.isMarked_printed hm)
      (fun hr => ho ((LogLine.isReport_printed_iff text).mp hr)) enabled before after

/-- Printing `success` can lose a payload, printing `successful` cannot. -/
theorem all_insert_printed_success :
    LogLine.isMarked (ascii "success") = false ∧
      LogLine.isMarked (ascii "successful") = false ∧
      (¬ ∀ (enabled : ProtocolSet) (before after : List Bytes),
        all enabled (before ++ LogLine.printed (ascii "success") :: after) =
          (all enabled (before ++ after)).map (moved before.length)) ∧
      ∀ (enabled : ProtocolSet) (before after : List Bytes),
        all enabled (before ++ LogLine.printed (ascii "successful") :: after) =
          (all enabled (before ++ after)).map (moved before.length) := by
  refine ⟨by decide, by decide, ?_, ?_⟩
  · intro hall
    exact (all_insert_printed_iff (by decide)).1.mp hall (by decide)
  · exact (all_insert_printed_iff (by decide)).1.mpr (by decide)

end Emission

end DexFeed
