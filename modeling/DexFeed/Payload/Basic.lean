import DexFeed.Payload.Instruction
import DexFeed.Payload.Log
import DexFeed.Payload.Snapshot

/-!
# Payloads

Every payload that is understood is an instruction, a log payload or an account snapshot, and the
program it belongs to together with its tag tells which. `Payload.instruction?`, `Payload.log?` and
`Payload.snapshot?` go from the data of one program to an event, or to nothing where the tag is not
known or the body does not have the format. `PayloadKind.all` numbers the kinds.
-/

namespace DexFeed

/-- A kind of payload. -/
inductive PayloadKind
  /-- An instruction. -/
  | instruction (kind : InstructionKind)
  /-- A log payload. -/
  | log (kind : LogKind)
  /-- An account snapshot. -/
  | snapshot (kind : SnapshotKind)
deriving DecidableEq, Repr

namespace PayloadKind

/-- The program that a kind belongs to. -/
def protocol : PayloadKind → Protocol
  | instruction kind => kind.protocol
  | log kind => kind.protocol
  | snapshot kind => kind.protocol

/-- Every kind: program by program the instructions, the log payloads and the snapshots. -/
def all : List PayloadKind :=
  Protocol.all.flatMap fun p =>
    (InstructionKind.all.filter (·.protocol = p)).map instruction ++
      (LogKind.all.filter (·.protocol = p)).map log ++
      (SnapshotKind.all.filter (·.protocol = p)).map snapshot

/-- The number of a kind; zero is left for data that have none. -/
def number (kind : PayloadKind) : Nat :=
  all.idxOf kind + 1

/-- The kind with a number. -/
def ofNumber? : Nat → Option PayloadKind
  | 0 => none
  | n + 1 => all[n]?

end PayloadKind

namespace Payload

/-- The event of an instruction, data and accounts as the transaction states them. -/
def instruction? (p : Protocol) (data : Bytes) (accounts : Accounts) (m : Metadata) :
    Option Event := do
  let kind ← InstructionKind.find? p data
  kind.event? (data.drop 8) accounts m

/-- The event of a log payload, in a text log or in a call of a program to itself. -/
def log? (p : Protocol) (data : Bytes) (m : Metadata) : Option Event := do
  let kind ← LogKind.find? p data
  kind.event? (data.drop (LogKind.headerSize data)) m

/-- The event of an account's state. -/
def snapshot? (p : Protocol) (data : Bytes) (account : Key) (m : Metadata) : Option Event := do
  let kind ← SnapshotKind.find? p data
  kind.event? (data.drop 8) account m

end Payload

end DexFeed
