import DexFeed.Log.Line
import DexFeed.Program

/-!
# Attribution of log payloads

A payload belongs to the program that was running when it was logged, which is the innermost one
invoked and not yet ended. `CallStack` follows the invocations line by line; lines with a payload
never move it. `scan` walks over the lines of a transaction and hands each payload of a known and
enabled program to a reader, in order; it can stop at the first payload that the reader accepts, and
then looks at no line behind it. The outer index of a payload counts top-level invocations from
zero, and a payload in front of all of them counts as the first's.
-/

namespace DexFeed

/-- The programs that are running. -/
structure CallStack where
  /-- The ids of the programs invoked and not yet ended, innermost first. -/
  running : List Bytes
  /-- The number of top-level invocations so far. -/
  outer : Nat
deriving DecidableEq

namespace CallStack

/-- The state in front of the first line. -/
def start : CallStack := ⟨[], 0⟩

/-- The state after a report; an end without a beginning changes nothing. -/
def report (s : CallStack) : LogLine.Invocation → CallStack
  | .enter id top => ⟨id :: s.running, if top then s.outer + 1 else s.outer⟩
  | .leave => { s with running := s.running.tail }

/-- The state after a line. -/
def step (s : CallStack) (line : Bytes) : CallStack :=
  if LogLine.isMarked line then s
  else
    match LogLine.invocation? line with
    | some i => s.report i
    | none => s

/-- The enabled protocol whose program is running. -/
def protocol? (enabled : ProtocolSet) (s : CallStack) : Option Protocol := do
  let id ← s.running.head?
  let p ← Protocol.ofIdText? id
  if enabled.contains p then some p else none

end CallStack

/-- A payload that a known program logged. -/
structure Emission where
  /-- The program's protocol. -/
  protocol : Protocol
  /-- The position of the top-level invocation that the line belongs to. -/
  outerIndex : Nat
  /-- The position of the line. -/
  lineIndex : Nat
  /-- The payload. -/
  bytes : Bytes
deriving DecidableEq

namespace Emission

/-- The payload of a line in a state of the invocations. -/
def ofLine? (enabled : ProtocolSet) (s : CallStack) (lineIndex : Nat) (line : Bytes) :
    Option Emission :=
  if LogLine.isMarked line then do
    let p ← s.protocol? enabled
    let bytes ← LogLine.payload? line
    return ⟨p, s.outer - 1, lineIndex, bytes⟩
  else none

/-- What a reader makes of the payloads of lines, from a state and a line number on; with `stop` the
first that it accepts ends the scan. -/
def scan {α : Type} (enabled : ProtocolSet) (stop : Bool) (reader : Emission → Option α) :
    CallStack → Nat → List Bytes → List α
  | _, _, [] => []
  | s, i, line :: lines =>
    match (ofLine? enabled s i line).bind reader with
    | some x => if stop then [x] else x :: scan enabled stop reader (s.step line) (i + 1) lines
    | none => scan enabled stop reader (s.step line) (i + 1) lines

/-- The payloads of all lines of a transaction, in order. -/
def all (enabled : ProtocolSet) (lines : List Bytes) : List Emission :=
  scan enabled false some CallStack.start 0 lines

end Emission

end DexFeed
