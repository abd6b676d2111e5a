import DexFeed.Session.History

/-!
# Ledgers of a session

A ledger books what becomes of events: every event that was offered, with the answer whether it was
accepted, and every event that left the queue, with the outcome of its handler if it was given to
one. `entry` is what one command adds to the ledger, read off the answers that the session gives,
and `ledger` books a whole history. An event that a full queue refuses is offered and nothing more,
and so is one that a callback fails on; those behind it are not even offered.
-/

namespace DexFeed

/-- The event without the time of its handling. -/
def Event.unstamped (e : Event) : Event :=
  { e with metadata := { e.metadata with handledAt := 0 } }

/-- The events that a command makes to hand them on, in order. -/
def Command.produced (config : Config) : Command → List Event
  | .ingest tx _ => (tx.decode config).events
  | .decode _ => []
  | .account update _ => (Session.snapshot? config update).toList
  | .block info _ => [Session.blockEvent info]
  | .pop => []
  | .drain _ => []

/-- What became of events. -/
structure Ledger where
  /-- The events that were offered, each with whether it was accepted. -/
  offered : List (Event × Bool)
  /-- The events that left the queue, each with whether its handler succeeded, if it had one. -/
  taken : List (Event × Option Bool)

namespace Ledger

/-- Nothing happened. -/
def blank : Ledger := ⟨[], []⟩

/-- First the one, then the other. -/
def append (l m : Ledger) : Ledger :=
  ⟨l.offered ++ m.offered, l.taken ++ m.taken⟩

/-- All events that were offered. -/
def produced (l : Ledger) : List Event :=
  l.offered.map (·.1)

/-- The offered events that were accepted. -/
def accepted (l : Ledger) : List Event :=
  (l.offered.filter (·.2)).map (·.1)

/-- The offered events that were not accepted. -/
def refused (l : Ledger) : List Event :=
  (l.offered.filter (!·.2)).map (·.1)

/-- The events that left the queue. -/
def left (l : Ledger) : List Event :=
  l.taken.map (·.1)

/-- For each event that a handler was given, whether it succeeded. -/
def outcomes (l : Ledger) : List Bool :=
  l.taken.filterMap (·.2)

end Ledger

namespace Session

/-- Events handed on one after the other until a callback fails, each with whether it was
accepted. -/
def verdicts (now : Int64) (callback : Nat → Event → Bool) (s : Session) :
    List Event → List (Event × Bool)
  | [] => []
  | e :: es =>
    let first := s.deliver now (callback 0) e
    (e, first.accepted == 1) ::
      if first.finished then first.session.verdicts now (fun i => callback (i + 1)) es else []

/-- What a command adds to the ledger. -/
def entry (now : Int64) (elapsed : Nat) (s : Session) : Command → Ledger
  | .ingest tx callback =>
    let decoded := s.decode elapsed tx
    ⟨decoded.2.verdicts now callback decoded.1, []⟩
  | .decode _ => .blank
  | .account update callback =>
    let accepted := (s.ingestAccountWith now callback update).accepted == 1
    ⟨(snapshot? s.config update).toList.map (·, accepted), []⟩
  | .block info callback =>
    ⟨[(blockEvent info, (s.ingestBlockWith now callback info).accepted == 1)], []⟩
  | .pop => ⟨[], s.pop.1.toList.map (·, none)⟩
  | .drain handler =>
    let drained := (s.drainWith now handler).1
    ⟨[], drained.mapIdx fun i e => (e, some (handler (s.consumer.consumed + i) e))⟩

/-- The ledger of commands carried out one after the other. -/
def ledger (s : Session) : List (Int64 × Nat × Command) → Ledger
  | [] => .blank
  | (now, elapsed, command) :: more =>
    (s.entry now elapsed command).append ((s.perform now elapsed command).2.ledger more)

end Session

end DexFeed
