import Mathlib.Algebra.Group.Nat.Defs
import DexFeed.Proofs.Log.TraceLines

/-!
# Attribution in nested invocations

A log that was written from a trace is attributed as the trace says. The lines of an invocation
leave the state as they found it, so the induction over the trace carries one state through a body:
whatever runs inside it has ended before the next item begins. Only invocations at top level move
the count of top-level invocations, and nothing is attributed between them.
-/

namespace DexFeed

/-- What an origin gives at a line: its payload, if the program is known and enabled. -/
def Origin.emission? (enabled : ProtocolSet) (lineIndex : Nat) (o : Origin) : Option Emission :=
  (Protocol.ofIdText? o.program).bind fun p =>
    if enabled.contains p then some ⟨p, o.outer, lineIndex, o.payload⟩ else none

/-- What the origins of consecutive lines give, the first line having a number. -/
def Origin.emissions (enabled : ProtocolSet) (first : Nat) (origins : List (Option Origin)) :
    List Emission :=
  (origins.zipIdx first).filterMap fun x => x.1.bind (emission? enabled x.2)

/-- A trace that a chain can log: ids are base58 texts, payloads are not empty and their encodings
have less than `2 ^ 31` characters, and neither reasons nor other lines look like something else. -/
inductive Trace.Loggable : Trace → Prop
  /-- An invocation whose items can be logged. -/
  | call {id : Bytes} {body : List Trace} {failure : Option Bytes} (hid : Base58.IsText id)
      (hbody : ∀ t ∈ body, Trace.Loggable t)
      (hf : ∀ reason, failure = some reason → LogLine.isMarked reason = false) :
      Trace.Loggable (.call id body failure)
  /-- A payload. -/
  | data {payload : Bytes} (hne : payload ≠ [])
      (hlength : (Base64.encode payload).length < 2 ^ 31) : Trace.Loggable (.data payload)
  /-- A line without the marker that reports no invocation. -/
  | line {text : Bytes} (hm : LogLine.isMarked text = false) (hr : ¬ LogLine.IsReport text) :
      Trace.Loggable (.line text)

namespace Trace

open Emission

variable {enabled : ProtocolSet} {s : CallStack} {i depth outer : Nat} {id : Bytes}
  {body : List Trace} {failure : Option Bytes}

/-- The emissions of joined logs are those of the parts, the second part numbered on from the
first. -/
theorem emissions_append (xs ys : List (Option Origin)) :
    Origin.emissions enabled i (xs ++ ys) =
      Origin.emissions enabled i xs ++ Origin.emissions enabled (i + xs.length) ys := by
  rw [Origin.emissions, List.zipIdx_append, List.filterMap_append, Origin.emissions,
    Origin.emissions]

/-- Lines that are attributed as their origins say, and after which the state is a given one. -/
structure Attributed (enabled : ProtocolSet) (s : CallStack) (i : Nat) (lines : List Bytes)
    (origins : List (Option Origin)) (final : CallStack) : Prop where
  /-- Each line has an origin or none. -/
  length_eq : lines.length = origins.length
  /-- A line with an origin is the line of that payload. -/
  line_eq : ∀ (k : Nat) (o : Origin), origins[k]? = some (some o) →
    lines[k]? = some (dataLine o.payload)
  /-- The state after the lines. -/
  run_eq : s.run lines = final
  /-- The payloads of the lines. -/
  scan_eq : scan enabled false some s i lines = Origin.emissions enabled i origins

/-- Lines that are attributed one after the other are attributed together. -/
theorem Attributed.append {xs ys : List Bytes} {os ps : List (Option Origin)}
    {middle final : CallStack} (hx : Attributed enabled s i xs os middle)
    (hy : Attributed enabled middle (i + os.length) ys ps final) :
    Attributed enabled s i (xs ++ ys) (os ++ ps) final where
  length_eq := by rw [List.length_append, List.length_append, hx.length_eq, hy.length_eq]
  line_eq := by
    intro k o hk
    rw [List.getElem?_append] at hk ⊢
    rw [hx.length_eq]
    split at hk
    · rw [if_pos ‹_›]
      exact hx.line_eq k o hk
    · rw [if_neg ‹_›]
      exact hy.line_eq _ o hk
  run_eq := by rw [CallStack.run_append, hx.run_eq, hy.run_eq]
  scan_eq := by
    rw [scan_append, hx.scan_eq, hx.run_eq, hx.length_eq, hy.scan_eq, emissions_append]

/-- No line is attributed to nothing and leaves the stack as it was. -/
theorem attributed_nil : Attributed enabled s i [] [] s := ⟨rfl, by simp, rfl, rfl⟩

/-- A line that carries no payload has no origin, whatever it does to the state. -/
theorem attributed_unmarked {line : Bytes} (hm : LogLine.isMarked line = false) :
    Attributed enabled s i [line] [none] (s.step line) where
  length_eq := rfl
  line_eq := by simp [List.getElem?_singleton]
  run_eq := rfl
  scan_eq := by
    rw [scan_cons, ofLine?_of_unmarked hm]
    rfl

/-- A line without a meaning of its own leaves the state as it was. -/
theorem attributed_line {text : Bytes} (hm : LogLine.isMarked text = false)
    (hr : ¬ LogLine.IsReport text) : Attributed enabled s i [text] [none] s := by
  have hline : Attributed enabled s i [text] [none] (s.step text) := attributed_unmarked hm
  rwa [CallStack.step_of_not_isReport hr] at hline

/-- The first and the last line of an invocation put its id on the running programs and take it
off again. -/
theorem attributed_call (hid : Base58.IsText id)
    (hf : ∀ reason, failure = some reason → LogLine.isMarked reason = false)
    (hbody : ∀ t : CallStack, t = s.report (.enter id (decide (depth = 1))) →
      Attributed enabled t (i + 1) (bodyLines (depth + 1) body) (bodyOrigins id outer body) t) :
    Attributed enabled s i (lines depth (call id body failure))
      (none :: (bodyOrigins id outer body ++ [none]))
      ⟨s.running, if depth = 1 then s.outer + 1 else s.outer⟩ := by
  have henter : s.step (enterLine id depth) = s.report (.enter id (decide (depth = 1))) := by
    rw [CallStack.step_of_unmarked (isMarked_enterLine hid depth), invocation?_enterLine hid]
    rfl
  have hleave : (s.report (.enter id (decide (depth = 1)))).step (leaveLine id failure) =
      ⟨s.running, if depth = 1 then s.outer + 1 else s.outer⟩ := by
    rw [CallStack.step_of_unmarked (isMarked_leaveLine hid hf), invocation?_leaveLine hid]
    simp [CallStack.report]
  have hfirst : Attributed enabled s i [enterLine id depth] [none]
      (s.report (.enter id (decide (depth = 1)))) :=
    henter ▸ attributed_unmarked (isMarked_enterLine hid depth)
  have hlast : Attributed enabled (s.report (.enter id (decide (depth = 1))))
      (i + 1 + (bodyOrigins id outer body).length) [leaveLine id failure] [none]
      ⟨s.running, if depth = 1 then s.outer + 1 else s.outer⟩ :=
    hleave ▸ attributed_unmarked (isMarked_leaveLine hid hf)
  rw [lines]
  exact hfirst.append ((hbody _ rfl).append hlast)

/-- A data line is emitted by the program that is running, with the outermost call it belongs to. -/
theorem ofLine?_dataLine {payload : Bytes} (hne : payload ≠ [])
    (hlength : (Base64.encode payload).length < 2 ^ 31) (hrunning : s.running.head? = some id) :
    ofLine? enabled s i (dataLine payload) =
      Origin.emission? enabled i ⟨id, s.outer - 1, payload⟩ := by
  rw [ofLine?, if_pos (isMarked_dataLine payload), payload?_dataLine hne hlength,
    CallStack.protocol?, hrunning, Origin.emission?]
  simp only [Option.bind_eq_bind, Option.bind_some]
  cases Protocol.ofIdText? id with
  | none => rfl
  | some p =>
    simp only [Option.bind_some]
    split <;> rfl

/-- The lines of a body are attributed one item after the other. -/
theorem attributed_body (h : ∀ t ∈ body, ∀ i,
      Attributed enabled s i (lines depth t) (origins id outer t) s) :
    Attributed enabled s i (bodyLines depth body) (bodyOrigins id outer body) s := by
  induction body generalizing i with
  | nil => exact attributed_nil
  | cons t ts ih =>
    rw [bodyLines, bodyOrigins]
    exact (h t List.mem_cons_self i).append (ih fun u hu => h u (List.mem_cons_of_mem _ hu))

/-- The line of a payload is attributed to the running program. -/
theorem attributed_data {payload : Bytes} (hne : payload ≠ [])
    (hlength : (Base64.encode payload).length < 2 ^ 31) (hrunning : s.running.head? = some id) (houter : s.outer = outer + 1) :
    Attributed enabled s i [dataLine payload] [some ⟨id, outer, payload⟩] s where
  length_eq := rfl
  line_eq := by
    intro k o hk
    rw [List.getElem?_singleton] at hk ⊢
    split at hk
    · rw [if_pos ‹_›, ← Option.some.inj (Option.some.inj hk)]
    · contradiction
  run_eq := CallStack.step_of_marked (isMarked_dataLine payload) s
  scan_eq := by
    rw [scan_cons, ofLine?_dataLine hne hlength hrunning, houter, Nat.add_sub_cancel]
    cases he : Origin.emission? enabled i ⟨id, outer, payload⟩ <;>
      simp [Origin.emissions, scan, he]

/-- Inside an invocation, the lines of an item leave the state as it was. -/
theorem attributed_lines {t : Trace} (ht : t.Loggable) (hd : 1 < depth)
    (hrunning : s.running.head? = some id) (houter : s.outer = outer + 1) :
    Attributed enabled s i (lines depth t) (origins id outer t) s := by
  induction ht generalizing s i depth id with
  | @call inner body failure hid hbody hf ih =>
    have hitems : ∀ u : CallStack, u = s.report (.enter inner (decide (depth = 1))) →
        Attributed enabled u (i + 1) (bodyLines (depth + 1) body) (bodyOrigins inner outer body)
          u := by
      intro u hu
      have houter' : u.outer = outer + 1 := by
        simpa [hu, CallStack.report, hd.ne'] using houter
      exact attributed_body fun t ht i => ih t ht (by omega) (by rw [hu]; rfl) houter'
    have hcall := attributed_call hid hf hitems
    rw [if_neg hd.ne'] at hcall
    rw [origins]
    exact hcall
  | data hne hlength => exact attributed_data hne hlength hrunning houter
  | line hm hr => exact attributed_line hm hr

/-- A payload between the invocations at top level is attributed to nobody. -/
theorem attributed_idle {n : Nat} (payload : Bytes) :
    Attributed enabled ⟨[], n⟩ i [dataLine payload] [none] ⟨[], n⟩ where
  length_eq := rfl
  line_eq := by simp [List.getElem?_singleton]
  run_eq := CallStack.step_of_marked (isMarked_dataLine payload) _
  scan_eq := by
    rw [scan_cons, ofLine?_of_no_protocol rfl]
    rfl

/-- The log of any forest of calls is attributed to its calls, and the stack is empty again at its
end. -/
theorem attributed_log {forest : List Trace} (h : ∀ t ∈ forest, t.Loggable) (n i : Nat) :
    ∃ m, Attributed enabled ⟨[], n⟩ i (log forest) (logOrigins n forest) ⟨[], m⟩ := by
  induction forest generalizing n i with
  | nil => exact ⟨n, attributed_nil⟩
  | cons t ts ih =>
    have hts : ∀ u ∈ ts, u.Loggable := fun u hu => h u (List.mem_cons_of_mem t hu)
    cases h t List.mem_cons_self with
    | @call id body failure hid hbody hf =>
      have hitems : ∀ u : CallStack,
          u = CallStack.report ⟨[], n⟩ (.enter id (decide (1 = 1))) →
            Attributed enabled u (i + 1) (bodyLines 2 body) (bodyOrigins id n body) u := by
        rintro u rfl
        exact attributed_body fun t ht i => attributed_lines (hbody t ht) (by decide) rfl rfl
      have hcall := attributed_call (i := i) hid hf hitems
      obtain ⟨m, hrest⟩ := ih hts (n + 1) (i + (none :: (bodyOrigins id n body ++ [none])).length)
      refine ⟨m, ?_⟩
      have happend := hcall.append hrest
      rw [List.cons_append, List.append_assoc] at happend
      exact happend
    | data hne hlength =>
      obtain ⟨m, hrest⟩ := ih hts n (i + 1)
      exact ⟨m, (attributed_idle _).append hrest⟩
    | line hm hr =>
      obtain ⟨m, hrest⟩ := ih hts n (i + 1)
      exact ⟨m, (attributed_line hm hr).append hrest⟩

/-- A scan of a log finds the payloads that its invocations logged, in order: each belongs to the
innermost invocation around it if that is one of a known and enabled program, and carries its own
bytes, the position of the outermost invocation and the number of its line. -/
theorem all_log {forest : List Trace} (h : ∀ t ∈ forest, t.Loggable) (enabled : ProtocolSet) :
    all enabled (log forest) = Origin.emissions enabled 0 (logOrigins 0 forest) ∧
      (log forest).length = (logOrigins 0 forest).length ∧
      ∀ (k : Nat) (o : Origin), (logOrigins 0 forest)[k]? = some (some o) →
        (log forest)[k]? = some (dataLine o.payload) := by
  obtain ⟨m, hlog⟩ : ∃ m, Attributed enabled CallStack.start 0 (log forest) (logOrigins 0 forest)
      ⟨[], m⟩ := attributed_log h 0 0
  exact ⟨hlog.scan_eq, hlog.length_eq, hlog.line_eq⟩

/-- Two invocations at top level, the first around one of a program that is not known and the
second failing. -/
def sample : List Trace :=
  [call (ascii Protocol.bonk.idText)
      [line (ascii "Program log: Instruction: BuyExactIn"), data [42],
        call (ascii "TokenkegQfeZyiNwAJbNbGKPFXCWuBvf9Ss623VQ5DA") [data [7]] none]
      none,
    call (ascii Protocol.pumpFun.idText) [data [1, 2]]
      (some (ascii "custom program error: 0x1771"))]

/-- The sample can be logged. -/
theorem sample_loggable : ∀ t ∈ sample, t.Loggable := by
  have hline : Loggable (line (ascii "Program log: Instruction: BuyExactIn")) :=
    .line (by decide +kernel) ((LogLine.invocation?_eq_none_iff _).mp (by decide +kernel))
  have hinner : Loggable (call (ascii "TokenkegQfeZyiNwAJbNbGKPFXCWuBvf9Ss623VQ5DA") [data [7]]
      none) := by
    refine .call (by decide +kernel) ?_ (by simp)
    simpa using Loggable.data (by decide) (by decide)
  have hfirst : ∀ t ∈ [line (ascii "Program log: Instruction: BuyExactIn"), data [42],
      call (ascii "TokenkegQfeZyiNwAJbNbGKPFXCWuBvf9Ss623VQ5DA") [data [7]] none],
        t.Loggable := by
    simpa using ⟨hline, Loggable.data (by decide) (by decide), hinner⟩
  have hsecond : ∀ t ∈ [data [1, 2]], t.Loggable := by
    simpa using Loggable.data (by decide) (by decide)
  have hreason : ∀ reason, some (ascii "custom program error: 0x1771") = some reason →
      LogLine.isMarked reason = false := by
    rintro _ ⟨rfl⟩
    decide +kernel
  simpa [sample] using
    ⟨Loggable.call (by decide +kernel) hfirst (by simp),
      Loggable.call (by decide +kernel) hsecond hreason⟩

/-- The payload of the inner invocation belongs to nobody that is known, the others to the programs
around them. -/
theorem all_log_sample :
    (∀ t ∈ sample, t.Loggable) ∧
      all .full (log sample) = [⟨.bonk, 0, 2, [42]⟩, ⟨.pumpFun, 1, 8, [1, 2]⟩] := by
  refine ⟨sample_loggable, ?_⟩
  rw [(all_log sample_loggable .full).1]
  decide +kernel

end Trace

end DexFeed
