import DexFeed.Session.Basic

/-!
# Histories of a session

Everything that can be asked of a session is a command, and a history is a list of commands carried
out one after the other. `perform` gives the events that become visible through a command: those a
callback or a handler has seen, those returned by decoding alone, and the one that was taken off the
queue. A history goes on after a command that a failing callback has ended early.
-/

namespace DexFeed

/-- Something asked of a session. Where events may go to a callback, `callback` tells whether it comes
back from an event. -/
inductive Command
  /-- Decode a transaction and hand its events on. -/
  | ingest (tx : Transaction) (callback : Nat → Event → Bool)
  /-- Decode a transaction and return its events. -/
  | decode (tx : Transaction)
  /-- Decode an account update and hand its event on. -/
  | account (update : AccountWrite) (callback : Event → Bool)
  /-- Hand the event of a block on. -/
  | block (info : Block) (callback : Event → Bool)
  /-- Take the oldest event off the queue. -/
  | pop
  /-- Let the consumer handle all events of the queue; `handler` tells whether it succeeds on an
  event, given how many events were handled before. -/
  | drain (handler : Nat → Event → Bool)

namespace Session

/-- Carries out a command at a time, where decoding a transaction takes so many nanoseconds. -/
def perform (now : Int64) (elapsed : Nat) (s : Session) : Command → List Event × Session
  | .ingest tx callback =>
    let r := s.ingestWith now elapsed callback tx
    (r.seen, r.session)
  | .decode tx => s.decode elapsed tx
  | .account update callback =>
    let r := s.ingestAccountWith now callback update
    (r.seen, r.session)
  | .block info callback =>
    let r := s.ingestBlockWith now callback info
    (r.seen, r.session)
  | .pop =>
    let r := s.pop
    (r.1.toList, r.2)
  | .drain handler => s.drainWith now handler

/-- Carries out commands one after the other, each at its own time, and gives all visible events. -/
def run (s : Session) : List (Int64 × Nat × Command) → List Event × Session
  | [] => ([], s)
  | (now, elapsed, command) :: more =>
    let first := s.perform now elapsed command
    let rest := first.2.run more
    (first.1 ++ rest.1, rest.2)

end Session

end DexFeed
