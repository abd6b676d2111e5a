/-!
# Counters of a session

A session counts what it decoded and what became of the events: those found in instructions and in
logs, instruction events that a log event took in, events that were handed on or refused by a full
queue, error events, account snapshots and blocks. `report` is the text that shows the counters.

The counters have 64 bits in the running program. Here they are natural numbers, which is the same
until one of them reaches `2 ^ 64`.
-/

namespace DexFeed

/-- The counters of a session. -/
structure Stats where
  /-- Transactions decoded. -/
  transactions : Nat
  /-- Instruction events found. -/
  instructionEvents : Nat
  /-- Log events found. -/
  logEvents : Nat
  /-- Instruction events merged into log events. -/
  merged : Nat
  /-- Events handed on. -/
  delivered : Nat
  /-- Events that a full queue refused. -/
  dropped : Nat
  /-- Error events found. -/
  errors : Nat
  /-- Account snapshots decoded. -/
  accounts : Nat
  /-- Blocks seen. -/
  blocks : Nat
deriving DecidableEq

namespace Stats

/-- The counters at the start. -/
def zero : Stats := ⟨0, 0, 0, 0, 0, 0, 0, 0, 0⟩

/-- The text that shows the counters. -/
def report (s : Stats) : String :=
  "=== DECODER STATS ===\n" ++
    "Transactions:       " ++ toString s.transactions ++ "\n" ++
    "Instruction events: " ++ toString s.instructionEvents ++ "\n" ++
    "Log events:         " ++ toString s.logEvents ++ "\n" ++
    "Merged:             " ++ toString s.merged ++ "\n" ++
    "Delivered:          " ++ toString s.delivered ++ "\n" ++
    "Dropped:            " ++ toString s.dropped ++ "\n" ++
    "Errors:             " ++ toString s.errors ++ "\n" ++
    "Accounts:           " ++ toString s.accounts ++ "\n" ++
    "Blocks:             " ++ toString s.blocks ++ "\n\n"

end Stats

end DexFeed
