import DexFeed.Config
import DexFeed.Log.Attribution
import DexFeed.Merge.Absorb
import DexFeed.Payload.Basic
import DexFeed.Transaction

/-!
# Decoding a transaction

One pass turns a transaction into events. It looks at the outer instructions and then at the inner
ones. Data of an inner instruction by which a program reports to itself give a log event, and all
other data an instruction event. Then it looks at the text logs, and in the end it merges
instruction events into log events. Programs that are not known or not enabled give nothing, nor do
data that do not decode. Where one log event is enough, everything that could only give a further
one is left undecoded.
-/

namespace DexFeed

/-- What an instruction gives. -/
inductive Finding
  /-- An instruction event. -/
  | instruction (e : Event)
  /-- An error event, for a program index out of range. -/
  | fault (e : Event)
  /-- A log event, from a program's report to itself. -/
  | log (e : Event)
  /-- No event. -/
  | nothing
deriving DecidableEq

namespace Finding

/-- The log event, if that is what was found. -/
def log? : Finding → Option Event
  | log e => some e
  | _ => none

/-- The instruction or error event, if that is what was found. -/
def request? : Finding → Option Event
  | instruction e | fault e => some e
  | _ => none

/-- Whether an instruction event was found. -/
def isInstruction : Finding → Bool
  | instruction _ => true
  | _ => false

/-- Whether an error event was found. -/
def isFault : Finding → Bool
  | fault _ => true
  | _ => false

/-- A finding from an event that may not be there. -/
def ofOption (kind : Event → Finding) : Option Event → Finding
  | some e => kind e
  | none => nothing

end Finding

/-- The error event for a program index outside the keys of a transaction. -/
def Visit.fault (v : Visit) (tx : Transaction) : Event :=
  let message : String :=
    "instruction " ++ v.place ++ ": program index " ++ toString v.call.program.toNat ++
      " outside " ++ toString tx.keys.length ++ " account keys"
  Event.ofValuation (v.locate tx.metadata) .error (Valuation.zero.set .message message)

/-- What an instruction gives; `logged` tells whether a log event was found before it. -/
def Visit.examine (v : Visit) (config : Config) (tx : Transaction) (logged : Bool) : Finding :=
  match tx.keys[v.call.program.toNat]? with
  | none => if config.emitErrorEvents then .fault (v.fault tx) else .nothing
  | some program =>
    match Protocol.ofKey? program with
    | none => .nothing
    | some p =>
      if config.enabled.contains p then
        let m := { v.locate tx.metadata with programId := program }
        if v.inner.isSome && LogKind.isSelfCall v.call.data then
          if config.stopAfterFirstLog && logged then .nothing
          else .ofOption .log (Payload.log? p v.call.data m)
        else .ofOption .instruction
          (Payload.instruction? p v.call.data ⟨tx.keys, v.call.accounts⟩ m)
      else .nothing

/-- What instructions give one after the other. -/
def findings (config : Config) (tx : Transaction) : (logged : Bool) → List Visit → List Finding
  | _, [] => []
  | logged, v :: vs =>
    let f := v.examine config tx logged
    f :: findings config tx (logged || f.log?.isSome) vs

/-- The event of a payload in the text logs of a transaction. -/
def Emission.event? (tx : Transaction) (payload : Emission) : Option Event :=
  Payload.log? payload.protocol payload.bytes
    { tx.metadata with
      programId := payload.protocol.programId
      outerIndex := Int64.ofNat payload.outerIndex }

/-- The events of the text logs of a transaction. -/
def Transaction.textLogs (config : Config) (tx : Transaction) : List Event :=
  Emission.scan config.enabled config.stopAfterFirstLog (Emission.event? tx) CallStack.start 0
    tx.logs

/-- The events of a transaction and how many there were of each origin. -/
structure Decoded where
  /-- The events in the order of their delivery. -/
  events : List Event
  /-- How many instruction events were found. -/
  instructionEvents : Nat
  /-- How many log events were found. -/
  logEvents : Nat
  /-- How many error events were found. -/
  errors : Nat
  /-- How many instruction events were merged into log events. -/
  merged : Nat
deriving DecidableEq

/-- Decodes a transaction. -/
def Transaction.decode (config : Config) (tx : Transaction) : Decoded :=
  let found := findings config tx false (tx.visits config.decodeInner)
  let requests := found.filterMap Finding.request?
  let reports := found.filterMap Finding.log?
  let logs :=
    if config.stopAfterFirstLog && !reports.isEmpty then reports else reports ++ tx.textLogs config
  let events := if config.mergeEnabled then reconcile requests logs else logs ++ requests
  { events
    instructionEvents := found.countP Finding.isInstruction
    logEvents := logs.length
    errors := found.countP Finding.isFault
    merged := requests.length + logs.length - events.length }

end DexFeed
