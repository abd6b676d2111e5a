import Mathlib.Data.List.Basic
import DexFeed.Proofs.Pass.Restriction

/-!
# Stopping at the first log event

Where one log event is enough, three places leave work undone: reports of programs to themselves are
not decoded once there is a log event, the text logs are not read if a report was decoded, and
otherwise the scan of the text logs ends at the first payload that decodes. Together they keep the
first of all log events, and they never change what instructions give.
-/

namespace DexFeed

namespace Config

/-- Settings under which every event is found and none is merged. -/
def exhaustive (config : Config) : Config :=
  { config with stopAfterFirstLog := false, mergeEnabled := false }

/-- Settings under which one log event is enough. -/
def brief (config : Config) : Config :=
  { config with stopAfterFirstLog := true }

end Config

namespace Finding

/-- A finding where no log event is wanted any more. -/
def withoutLog : Finding → Finding
  | log _ => nothing
  | f => f

/-- No log event is left. -/
theorem log?_withoutLog (f : Finding) : f.withoutLog.log? = none := by
  cases f <;> rfl

/-- Leaving out log events leaves the requests. -/
theorem request?_withoutLog : request? ∘ withoutLog = request? := by
  funext f
  cases f <;> rfl

/-- Leaving out log events leaves the count of instructions. -/
theorem isInstruction_withoutLog : isInstruction ∘ withoutLog = isInstruction := by
  funext f
  cases f <;> rfl

/-- Leaving out log events leaves the count of errors. -/
theorem isFault_withoutLog : isFault ∘ withoutLog = isFault := by
  funext f
  cases f <;> rfl

/-- Log events are left out once. -/
theorem withoutLog_withoutLog (f : Finding) : f.withoutLog.withoutLog = f.withoutLog := by
  cases f <;> rfl

/-- Of a log event nothing is left. -/
theorem withoutLog_ofOption_log (o : Option Event) : (ofOption log o).withoutLog = nothing := by
  cases o <;> rfl

/-- Of an instruction event all is left. -/
theorem withoutLog_ofOption_instruction (o : Option Event) :
    (ofOption instruction o).withoutLog = ofOption instruction o := by
  cases o <;> rfl

end Finding

variable (config : Config) (tx : Transaction)

/-! ## Instructions -/

/-- Where every event is wanted, what was found before does not matter. -/
theorem Visit.examine_exhaustive (v : Visit) (logged : Bool) :
    v.examine config.exhaustive tx logged = v.examine config.exhaustive tx false := by
  rw [examine, examine, Config.exhaustive]
  simp only [Bool.false_and]

/-- Where one log event is enough, a further one is not looked for, and nothing else changes. -/
theorem Visit.examine_brief (v : Visit) (logged : Bool) :
    v.examine config.brief tx logged =
      if logged then (v.examine config.exhaustive tx false).withoutLog
      else v.examine config.exhaustive tx false := by
  rw [examine, examine, Config.brief, Config.exhaustive]
  cases logged with
  | false => simp only [Bool.and_false, Bool.false_eq_true, if_false]
  | true =>
    rw [if_pos rfl]
    cases tx.keys[v.call.program.toNat]? with
    | none => cases config.emitErrorEvents <;> rfl
    | some program =>
      cases hp : Protocol.ofKey? program with
      | none =>
        simp only [hp]
        rfl
      | some p =>
        simp only [hp, Bool.and_true, Bool.false_and, Bool.false_eq_true, if_false, if_true]
        by_cases he : config.enabled.contains p = true
        · rw [if_pos he, if_pos he]
          split
          · rw [Finding.withoutLog_ofOption_log]
          · rw [Finding.withoutLog_ofOption_instruction]
        · rw [if_neg he, if_neg he]
          rfl

/-- Where all log events are wanted, what was found earlier has no influence on a visit. -/
theorem findings_exhaustive (logged : Bool) (vs : List Visit) :
    findings config.exhaustive tx logged vs =
      vs.map fun v => v.examine config.exhaustive tx false := by
  induction vs generalizing logged with
  | nil => rfl
  | cons v vs ih =>
    simp only [findings, List.map_cons]
    rw [ih, v.examine_exhaustive config tx logged]

/-- Apart from log events an early stop changes no finding. -/
theorem withoutLog_findings_brief (logged : Bool) (vs : List Visit) :
    (findings config.brief tx logged vs).map Finding.withoutLog =
      (findings config.exhaustive tx false vs).map Finding.withoutLog := by
  rw [findings_exhaustive]
  induction vs generalizing logged with
  | nil => rfl
  | cons v vs ih =>
    have hv : (v.examine config.brief tx logged).withoutLog =
        (v.examine config.exhaustive tx false).withoutLog := by
      rw [v.examine_brief]
      cases logged with
      | false => rfl
      | true => exact Finding.withoutLog_withoutLog _
    simp only [findings, List.map_cons]
    rw [ih, hv]

/-- Once there is a log event no further one is found, and until then the first is. -/
theorem logs_findings_brief (logged : Bool) (vs : List Visit) :
    (findings config.brief tx logged vs).filterMap Finding.log? =
      if logged then []
      else ((findings config.exhaustive tx false vs).filterMap Finding.log?).take 1 := by
  rw [findings_exhaustive]
  induction vs generalizing logged with
  | nil => cases logged <;> rfl
  | cons v vs ih =>
    simp only [findings, List.map_cons, List.filterMap_cons]
    rw [v.examine_brief, ih]
    cases logged with
    | true => simp only [if_true, Finding.log?_withoutLog, Bool.true_or]
    | false =>
      simp only [Bool.false_eq_true, if_false, Bool.false_or]
      cases (v.examine config.exhaustive tx false).log? with
      | none => rfl
      | some e => rfl

/-! ## Text logs -/

/-- A scan that ends at the first payload that its reader accepts finds that payload. -/
theorem Emission.scan_stop {α : Type} (enabled : ProtocolSet) (reader : Emission → Option α)
    (s : CallStack) (i : Nat) (lines : List Bytes) :
    scan enabled true reader s i lines = (scan enabled false reader s i lines).take 1 := by
  induction lines generalizing s i with
  | nil => rfl
  | cons line lines ih =>
    rw [scan, scan]
    cases (ofLine? enabled s i line).bind reader with
    | some x => rfl
    | none => exact ih _ _

/-! ## The pass -/

namespace Transaction

/-- Every log event of a transaction: what programs report to themselves in the order of the
instructions, then what they log in the order of the lines. -/
def allLogs (config : Config) (tx : Transaction) : List Event :=
  ((tx.visits config.decodeInner).filterMap fun v =>
    (v.examine config.exhaustive tx false).log?) ++
    (Emission.all config.enabled tx.logs).filterMap (Emission.event? tx)

/-- Every instruction and error event of a transaction in the order of the instructions. -/
def allRequests (config : Config) (tx : Transaction) : List Event :=
  (tx.visits config.decodeInner).filterMap fun v =>
    (v.examine config.exhaustive tx false).request?

/-- The exhaustive pass finds all requests. -/
theorem requests_exhaustive : tx.requests config.exhaustive = tx.allRequests config := by
  rw [requests, findings_exhaustive, List.filterMap_map]
  rfl

/-- The exhaustive pass finds all log events, reports before the texts of the log. -/
theorem logs_exhaustive :
    tx.reports config.exhaustive ++ tx.textLogs config.exhaustive = tx.allLogs config := by
  have htext : tx.textLogs config.exhaustive =
      (Emission.all config.enabled tx.logs).filterMap (Emission.event? tx) :=
    Emission.scan_eq_filterMap ..
  rw [reports, findings_exhaustive, List.filterMap_map, htext]
  rfl

/-- A pass that stops at the first log event finds all requests nevertheless. -/
theorem requests_brief : tx.requests config.brief = tx.allRequests config := by
  have h := congrArg (List.filterMap Finding.request?)
    (withoutLog_findings_brief config tx false (tx.visits config.decodeInner))
  rw [List.filterMap_map, List.filterMap_map, Finding.request?_withoutLog] at h
  exact h.trans (requests_exhaustive config tx)

/-- A pass that stops at the first log event keeps the first report, if there is one. -/
theorem reports_brief : tx.reports config.brief = (tx.reports config.exhaustive).take 1 :=
  logs_findings_brief config tx false (tx.visits config.decodeInner)

/-- A pass that stops at the first log event reads the log up to its first event. -/
theorem textLogs_brief : tx.textLogs config.brief = (tx.textLogs config.exhaustive).take 1 :=
  Emission.scan_stop ..

/-- The text logs are read only if no program has reported to itself. -/
theorem logs_brief :
    (if !(tx.reports config.brief).isEmpty then tx.reports config.brief
      else tx.reports config.brief ++ tx.textLogs config.brief) = (tx.allLogs config).take 1 := by
  rw [← logs_exhaustive, reports_brief, textLogs_brief]
  cases tx.reports config.exhaustive with
  | nil => rfl
  | cons e es => rfl

/-- The early stop does not change the count of instruction events. -/
theorem isInstruction_brief :
    (tx.decode config.brief).instructionEvents =
      (tx.decode config.exhaustive).instructionEvents := by
  have h := congrArg (List.countP Finding.isInstruction)
    (withoutLog_findings_brief config tx false (tx.visits config.decodeInner))
  rw [List.countP_map, List.countP_map, Finding.isInstruction_withoutLog] at h
  exact h

/-- The early stop does not change the count of errors. -/
theorem isFault_brief :
    (tx.decode config.brief).errors = (tx.decode config.exhaustive).errors := by
  have h := congrArg (List.countP Finding.isFault)
    (withoutLog_findings_brief config tx false (tx.visits config.decodeInner))
  rw [List.countP_map, List.countP_map, Finding.isFault_withoutLog] at h
  exact h

end Transaction

/-- Where every event is wanted and none is merged, a transaction gives its log events and then its
instruction and error events. Where one log event is enough, all of the latter remain and of the
log events the first, whether a program reported it to itself or logged it, and these are merged if
that is wanted. -/
theorem decode_brief (config : Config) (tx : Transaction) :
    (tx.decode config.exhaustive).events = tx.allLogs config ++ tx.allRequests config ∧
      (tx.decode config.exhaustive).logEvents = (tx.allLogs config).length ∧
      (tx.decode config.brief).events =
        (if config.mergeEnabled then
          reconcile (tx.allRequests config) ((tx.allLogs config).take 1)
        else (tx.allLogs config).take 1 ++ tx.allRequests config) ∧
      (tx.decode config.brief).logEvents = ((tx.allLogs config).take 1).length ∧
      (tx.decode config.brief).instructionEvents =
        (tx.decode config.exhaustive).instructionEvents ∧
      (tx.decode config.brief).errors = (tx.decode config.exhaustive).errors := by
  have hlogs := tx.logs_brief config
  have hrequests := tx.requests_brief config
  refine ⟨?_, ?_, ?_, ?_, tx.isInstruction_brief config, tx.isFault_brief config⟩
  · rw [← tx.logs_exhaustive, ← tx.requests_exhaustive]
    rfl
  · rw [← tx.logs_exhaustive]
    rfl
  · rw [← hlogs, ← hrequests]
    rfl
  · rw [← hlogs]
    rfl

end DexFeed
