import DexFeed.Event.Basic
import DexFeed.Latency.Report

/-!
# Consumers

A consumer takes events off the delivery queue and gives each to a handler, which may fail. An event
is stamped with the time of its handling first. If the event carries a time of receipt that is not
in the future, the time between the two is recorded as a latency sample. A handler that fails is
counted, and the event counts as consumed all the same. The time of day is an argument. As in the
counters of a session, 64-bit counts are natural numbers here and never wrap.
-/

namespace DexFeed

/-- What a consumer has done so far. -/
structure Consumer where
  /-- Whether the consumer polls the queue by itself. -/
  running : Bool
  /-- How many events were handled. -/
  consumed : Nat
  /-- For how many of them the handler failed. -/
  handlerErrors : Nat
  /-- The times from receipt to handling. -/
  latency : SampleWindow
deriving DecidableEq

namespace Consumer

/-- A consumer that has done nothing yet and keeps so many latency samples. -/
def idle (latencySamples : Nat) : Consumer :=
  ⟨false, 0, 0, SampleWindow.ofCapacity latencySamples⟩

/-- Makes a consumer poll by itself, and tells whether it did not do so before. -/
def start (c : Consumer) : Bool × Consumer :=
  (!c.running, { c with running := true })

/-- Makes a consumer stop polling. -/
def stop (c : Consumer) : Consumer :=
  { c with running := false }

/-- The latency sample of an event handled at a moment, in nanoseconds, if there is one. -/
def sample? (now : Int64) (e : Event) : Option Nat :=
  let received := e.metadata.receivedAt
  if 0 < received ∧ received ≤ now then some ((now - received).toUInt64 * 1000).toNat else none

/-- The consumer after an event was handled; `succeeded` tells whether the handler did. -/
def handle (now : Int64) (succeeded : Bool) (c : Consumer) (e : Event) : Consumer where
  running := c.running
  consumed := c.consumed + 1
  handlerErrors := if succeeded then c.handlerErrors else c.handlerErrors + 1
  latency :=
    match sample? now e with
    | some ns => c.latency.record ns
    | none => c.latency

/-- The text that shows the counters, with the number of events that the queue refused. -/
def report (c : Consumer) (dropped : Nat) : String :=
  "=== CONSUMER STATS ===\n" ++
    "Consumed:       " ++ toString c.consumed ++ "\n" ++
    "Handler errors: " ++ toString c.handlerErrors ++ "\n" ++
    "Queue dropped:  " ++ toString dropped ++ "\n\n"

end Consumer

end DexFeed
