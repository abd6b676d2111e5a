import DexFeed.Log.Attribution

/-!
# Traces of invocations

A trace is what happens while the programs of a transaction run: invocations, each with what happens
inside it and how it ends, payloads that programs log, and other lines. `lines` writes a trace as
the chain logs it, with the depth of each invocation, and `origins` tells for each of these lines
which payload it carries, if any, with the program that logged it and the top-level invocation it
belongs to. Both describe a log without any reference to how a log is read back.
-/

namespace DexFeed

/-- Something that happens while programs run. -/
inductive Trace
  /-- A program is invoked; `failure` tells why it failed, if it did. -/
  | call (id : Bytes) (body : List Trace) (failure : Option Bytes)
  /-- The running program logs a payload. -/
  | data (payload : Bytes)
  /-- Any other line. -/
  | line (text : Bytes)

/-- A payload, the id of the program that logged it and the position of the top-level invocation. -/
structure Origin where
  /-- The id of the program that was running. -/
  program : Bytes
  /-- The position of the top-level invocation. -/
  outer : Nat
  /-- The payload. -/
  payload : Bytes
deriving DecidableEq

namespace Trace

/-- The line that begins an invocation at a depth. -/
def enterLine (id : Bytes) (depth : Nat) : Bytes :=
  ascii "Program " ++ id ++ ascii " invoke [" ++ ascii (toString depth) ++ ascii "]"

/-- The line that ends an invocation. -/
def leaveLine (id : Bytes) : Option Bytes → Bytes
  | none => ascii "Program " ++ id ++ ascii " success"
  | some reason => ascii "Program " ++ id ++ ascii " failed: " ++ reason

/-- The line that carries a payload. -/
def dataLine (payload : Bytes) : Bytes :=
  LogLine.marker ++ Base64.encode payload

mutual

/-- The lines of a trace at a depth. -/
def lines (depth : Nat) : Trace → List Bytes
  | call id body failure =>
    enterLine id depth :: (bodyLines (depth + 1) body ++ [leaveLine id failure])
  | data payload => [dataLine payload]
  | line text => [text]

/-- The lines of traces at a depth, one after the other. -/
def bodyLines (depth : Nat) : List Trace → List Bytes
  | [] => []
  | t :: ts => lines depth t ++ bodyLines depth ts

end

mutual

/-- For each line of a trace inside an invocation, what it carries. -/
def origins (program : Bytes) (outer : Nat) : Trace → List (Option Origin)
  | call id body _ => none :: (bodyOrigins id outer body ++ [none])
  | data payload => [some ⟨program, outer, payload⟩]
  | line _ => [none]

/-- For each line of traces inside an invocation, what it carries. -/
def bodyOrigins (program : Bytes) (outer : Nat) : List Trace → List (Option Origin)
  | [] => []
  | t :: ts => origins program outer t ++ bodyOrigins program outer ts

end

/-- The lines of the top-level invocations of a transaction. -/
def log (forest : List Trace) : List Bytes :=
  bodyLines 1 forest

/-- For each line of the top-level invocations of a transaction, what it carries, where the first
invocation has the position `outer`; nothing is running between them. -/
def logOrigins (outer : Nat) : List Trace → List (Option Origin)
  | [] => []
  | call id body _ :: ts => none :: (bodyOrigins id outer body ++ none :: logOrigins (outer + 1) ts)
  | _ :: ts => none :: logOrigins outer ts

end Trace

end DexFeed
