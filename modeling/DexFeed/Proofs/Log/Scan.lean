import DexFeed.Proofs.Log.Line

/-!
# Scanning line by line

A scan that does not stop early gives what each line gives in the state that the lines in front of
it leave behind. The state after some lines is the fold of `CallStack.step`; only reports that carry
no payload move it. Line numbers enter nothing but the emissions themselves, so a scan that begins
one line later gives the same emissions with line numbers one higher.
-/

namespace DexFeed

namespace CallStack

/-- The state after some lines. -/
def run (s : CallStack) (lines : List Bytes) : CallStack :=
  lines.foldl step s

@[simp] theorem run_nil (s : CallStack) : s.run [] = s := rfl

@[simp] theorem run_cons (s : CallStack) (line : Bytes) (lines : List Bytes) :
    s.run (line :: lines) = (s.step line).run lines := rfl

/-- Lines are followed one part after the other. -/
theorem run_append (s : CallStack) (xs ys : List Bytes) :
    s.run (xs ++ ys) = (s.run xs).run ys :=
  List.foldl_append

/-- A marked line says nothing about calls. -/
theorem step_of_marked {line : Bytes} (hm : LogLine.isMarked line = true) (s : CallStack) :
    s.step line = s := by
  rw [step, if_pos hm]

/-- An unmarked line does to the stack what it reports, if it reports something. -/
theorem step_of_unmarked {line : Bytes} (hm : LogLine.isMarked line = false) (s : CallStack) :
    s.step line = (LogLine.invocation? line).elim s s.report := by
  rw [step, if_neg (by simp [hm])]
  cases LogLine.invocation? line <;> rfl

/-- A line that is no report leaves the stack. -/
theorem step_of_not_isReport {line : Bytes} (hr : ¬ LogLine.IsReport line) (s : CallStack) :
    s.step line = s := by
  cases hm : LogLine.isMarked line with
  | true => exact step_of_marked hm s
  | false =>
    rw [step_of_unmarked hm, (LogLine.invocation?_eq_none_iff line).mpr hr, Option.elim_none]

/-- Nothing moves the state but a report without the marker. -/
theorem isReport_of_step_ne {s : CallStack} {line : Bytes} (h : s.step line ≠ s) :
    LogLine.isMarked line = false ∧ LogLine.IsReport line := by
  constructor
  · by_contra hm
    exact h (step_of_marked (by simpa using hm) s)
  · by_contra hr
    exact h (step_of_not_isReport hr s)

end CallStack

namespace Emission

variable {α : Type} {reader : Emission → Option α} {enabled : ProtocolSet}

/-- An unmarked line carries no payload. -/
theorem ofLine?_of_unmarked {line : Bytes} (hm : LogLine.isMarked line = false)
    (s : CallStack) (i : Nat) : ofLine? enabled s i line = none := by
  rw [ofLine?, if_neg (by simp [hm])]

/-- While no enabled program is running, nothing is emitted. -/
theorem ofLine?_of_no_protocol {s : CallStack} (h : s.protocol? enabled = none) (i : Nat)
    (line : Bytes) : ofLine? enabled s i line = none := by
  rw [ofLine?, h]
  split <;> rfl

/-- An emission carries the number of its line, whatever that number is. -/
theorem ofLine?_succ (s : CallStack) (i : Nat) (line : Bytes) :
    ofLine? enabled s (i + 1) line =
      (ofLine? enabled s i line).map fun e => { e with lineIndex := e.lineIndex + 1 } := by
  unfold ofLine?
  split
  · cases s.protocol? enabled with
    | none => rfl
    | some p =>
      cases LogLine.payload? line with
      | none => simp
      | some bytes => simp
  · rfl

/-- An emission has the index of its line. -/
theorem lineIndex_of_ofLine? {s : CallStack} {i : Nat} {line : Bytes} {e : Emission}
    (h : ofLine? enabled s i line = some e) : e.lineIndex = i := by
  unfold ofLine? at h
  split at h
  · obtain ⟨p, -, h⟩ := Option.bind_eq_some_iff.mp h
    obtain ⟨bytes, -, h⟩ := Option.bind_eq_some_iff.mp h
    rw [← Option.some.inj h]
  · contradiction

/-- An emission has the payload of its line. -/
theorem payload?_of_ofLine? {s : CallStack} {i : Nat} {line : Bytes} {e : Emission}
    (h : ofLine? enabled s i line = some e) : LogLine.payload? line = some e.bytes := by
  rw [ofLine?] at h
  by_cases hmarked : LogLine.isMarked line = true
  · rw [if_pos hmarked] at h
    obtain ⟨p, -, h⟩ := Option.bind_eq_some_iff.mp h
    obtain ⟨bytes, hbytes, h⟩ := Option.bind_eq_some_iff.mp h
    rw [hbytes, ← Option.some.inj h]
  · rw [if_neg hmarked] at h
    contradiction

/-- A scan reads the first line and goes on behind it with the stack that the line leaves. -/
theorem scan_cons (s : CallStack) (i : Nat) (line : Bytes) (lines : List Bytes) :
    scan enabled false reader s i (line :: lines) =
      ((ofLine? enabled s i line).bind reader).toList ++
        scan enabled false reader (s.step line) (i + 1) lines := by
  rw [scan]
  cases (ofLine? enabled s i line).bind reader <;> rfl

/-- Every payload that is found is that of a line. -/
theorem exists_line_of_mem_scan {s : CallStack} {i : Nat} {lines : List Bytes} {e : Emission}
    (h : e ∈ scan enabled false some s i lines) :
    ∃ line ∈ lines, LogLine.payload? line = some e.bytes := by
  induction lines generalizing s i with
  | nil => contradiction
  | cons line lines ih =>
    rw [scan_cons] at h
    cases List.mem_append.1 h with
    | inl hfirst =>
      obtain ⟨found, hfound, hsome⟩ := Option.bind_eq_some_iff.1 (Option.mem_toList.1 hfirst)
      cases hsome
      exact ⟨line, List.mem_cons_self, payload?_of_ofLine? hfound⟩
    | inr hmore =>
      obtain ⟨line', hline', hpayload⟩ := ih hmore
      exact ⟨line', List.mem_cons_of_mem line hline', hpayload⟩

/-- A scan of joined lines is the scans of the parts, the second from where the first ends. -/
theorem scan_append (s : CallStack) (i : Nat) (xs ys : List Bytes) :
    scan enabled false reader s i (xs ++ ys) =
      scan enabled false reader s i xs ++
        scan enabled false reader (s.run xs) (i + xs.length) ys := by
  induction xs generalizing s i with
  | nil => rfl
  | cons x xs ih =>
    have hi : i + 1 + xs.length = i + (x :: xs).length := by
      rw [List.length_cons]
      omega
    rw [List.cons_append, scan_cons, scan_cons, ih, List.append_assoc, CallStack.run_cons, hi]

/-- What a reader makes of a scan is what it makes of the payloads. -/
theorem scan_eq_filterMap (s : CallStack) (i : Nat) (lines : List Bytes) :
    scan enabled false reader s i lines =
      (scan enabled false some s i lines).filterMap reader := by
  induction lines generalizing s i with
  | nil => rfl
  | cons line lines ih =>
    rw [scan_cons, scan_cons, List.filterMap_append, ← ih]
    cases ofLine? enabled s i line with
    | none => rfl
    | some e =>
      simp only [Option.bind_some, Option.toList_some, List.filterMap_cons, List.filterMap_nil]
      cases reader e <;> rfl

/-- Counting the lines from one further only moves the indices. -/
theorem scan_succ (s : CallStack) (i : Nat) (lines : List Bytes) :
    scan enabled false some s (i + 1) lines =
      (scan enabled false some s i lines).map fun e => { e with lineIndex := e.lineIndex + 1 } := by
  induction lines generalizing s i with
  | nil => rfl
  | cons line lines ih =>
    rw [scan_cons, scan_cons, List.map_append, ih, ofLine?_succ]
    cases ofLine? enabled s i line <;> rfl

/-- Every emission stands at one of the lines scanned. -/
theorem lineIndex_bounds {s : CallStack} {i : Nat} {lines : List Bytes} {e : Emission}
    (he : e ∈ scan enabled false some s i lines) :
    i ≤ e.lineIndex ∧ e.lineIndex < i + lines.length := by
  induction lines generalizing s i with
  | nil => simp [scan] at he
  | cons line lines ih =>
    rw [scan_cons, List.mem_append] at he
    rw [List.length_cons]
    rcases he with he | he
    · rw [Option.bind_fun_some, Option.mem_toList] at he
      have hi := lineIndex_of_ofLine? he
      omega
    · have hlater := ih he
      omega

/-- The enabled protocols decide whether a payload is kept, and nothing else about it. -/
theorem ofLine?_enabled (enabled : ProtocolSet) (s : CallStack) (i : Nat) (line : Bytes) :
    ofLine? enabled s i line =
      (ofLine? .full s i line).filter fun e => enabled.contains e.protocol := by
  unfold ofLine? CallStack.protocol?
  split
  · cases s.running.head? with
    | none => rfl
    | some id =>
      cases hp : Protocol.ofIdText? id with
      | none => simp [hp]
      | some p =>
        cases hb : LogLine.payload? line with
        | none => simp [hp]
        | some bytes =>
          cases hc : enabled.contains p <;>
            simp [hp, hc, ProtocolSet.contains_full, Option.filter]
  · rfl

/-- A scan with fewer protocols finds what a scan with all protocols finds of these. -/
theorem scan_enabled (enabled : ProtocolSet) (s : CallStack) (i : Nat) (lines : List Bytes) :
    scan enabled false some s i lines =
      (scan .full false some s i lines).filter fun e => enabled.contains e.protocol := by
  induction lines generalizing s i with
  | nil => rfl
  | cons line lines ih =>
    rw [scan_cons, scan_cons, List.filter_append, ih, ofLine?_enabled]
    cases ofLine? .full s i line with
    | none => rfl
    | some e =>
      cases hc : enabled.contains e.protocol <;> simp [hc, Option.filter]

end Emission

end DexFeed
