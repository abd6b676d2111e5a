import DexFeed.Pass
import DexFeed.Queue.Ring
import DexFeed.Session.Consumer
import DexFeed.Session.Stats

/-!
# Sessions

A session decodes what arrives from the chain and hands the events on, in order: to a callback, to
the delivery queue, or to nobody. It keeps the counters, a window of decoding times, the queue and
the queue's consumer. Events that go to a callback are stamped with the time at once, those that
wait in the queue when they are handled. Time comes from outside: `now` is the time of day in
microseconds and `elapsed` the nanoseconds that decoding took.

A callback may fail. Nothing catches that, unlike the failure of a consumer's handler: the event is
not counted, the events behind it are lost, and the call ends without an answer. What the callback
does comes from outside, too: `callback` tells whether it comes back from an event. In a call that
hands on several events it is also given how many of them the callback has seen before, and since
every call brings its own, a callback may remember whatever it likes.
-/

namespace DexFeed

/-- Where a session hands its events. -/
inductive Sink
  /-- To a callback, at once. -/
  | callback
  /-- To the delivery queue. -/
  | queue
  /-- To nobody. -/
  | discard
deriving DecidableEq, Repr

/-- The state of a session. -/
structure Session where
  /-- The settings. -/
  config : Config
  /-- Where events are handed. -/
  sink : Sink
  /-- The counters. -/
  stats : Stats
  /-- The decoding times of transactions. -/
  decodeTimes : SampleWindow
  /-- The delivery queue. -/
  queue : Ring Event
  /-- The consumer of the queue. -/
  consumer : Consumer

/-- What came of handing events on. -/
structure Handover where
  /-- How many events were accepted, which the caller learns if the call has come to its end. -/
  accepted : Nat
  /-- What a callback has seen. -/
  seen : List Event
  /-- Whether the call has come to its end; a callback that fails ends it early. -/
  finished : Bool
  /-- The session behind. -/
  session : Session

namespace Session

/-- A session at its start. -/
def start (config : Config) (sink : Sink) : Session where
  config
  sink
  stats := Stats.zero
  decodeTimes := SampleWindow.ofCapacity config.latencySamples
  queue := Ring.empty config.queueCapacity
  consumer := Consumer.idle config.latencySamples

/-- The session with one more event counted as handed on. -/
def countDelivered (s : Session) : Session :=
  { s with stats := { s.stats with delivered := s.stats.delivered + 1 } }

/-- The session with one more event counted as refused. -/
def countDropped (s : Session) : Session :=
  { s with stats := { s.stats with dropped := s.stats.dropped + 1 } }

/-- Hands an event on. -/
def deliver (now : Int64) (callback : Event → Bool) (s : Session) (e : Event) : Handover :=
  match s.sink with
  | .queue =>
    let pushed := s.queue.push e
    let s := { s with queue := pushed.2 }
    if pushed.1 then ⟨1, [], true, s.countDelivered⟩ else ⟨0, [], true, s.countDropped⟩
  | .callback =>
    let e := e.handled now
    if callback e then ⟨1, [e], true, s.countDelivered⟩ else ⟨0, [e], false, s⟩
  | .discard => ⟨1, [], true, s.countDelivered⟩

/-- Hands events on, one after the other, until a callback fails on one. -/
def deliverAll (now : Int64) (callback : Nat → Event → Bool) (s : Session) :
    List Event → Handover
  | [] => ⟨0, [], true, s⟩
  | e :: es =>
    let first := s.deliver now (callback 0) e
    if first.finished then
      let rest := first.session.deliverAll now (fun i => callback (i + 1)) es
      ⟨first.accepted + rest.accepted, first.seen ++ rest.seen, rest.finished, rest.session⟩
    else first

/-- Decodes a transaction without handing its events on. -/
def decode (elapsed : Nat) (s : Session) (tx : Transaction) : List Event × Session :=
  let d := tx.decode s.config
  (d.events, { s with
    decodeTimes := s.decodeTimes.record elapsed
    stats := { s.stats with
      transactions := s.stats.transactions + 1
      instructionEvents := s.stats.instructionEvents + d.instructionEvents
      logEvents := s.stats.logEvents + d.logEvents
      errors := s.stats.errors + d.errors
      merged := s.stats.merged + d.merged } })

/-- Decodes a transaction and hands its events on, where a callback may fail. -/
def ingestWith (now : Int64) (elapsed : Nat) (callback : Nat → Event → Bool) (s : Session)
    (tx : Transaction) : Handover :=
  let decoded := s.decode elapsed tx
  decoded.2.deliverAll now callback decoded.1

/-- Decodes a transaction and hands its events on, where a callback does not fail. -/
def ingest (now : Int64) (elapsed : Nat) (s : Session) (tx : Transaction) : Handover :=
  s.ingestWith now elapsed (fun _ _ => true) tx

/-- The event of an account update, if the owner is enabled and the data decode. -/
def snapshot? (config : Config) (update : AccountWrite) : Option Event := do
  let p ← Protocol.ofKey? update.owner
  if config.enabled.contains p then
    Payload.snapshot? p update.data update.account
      { Metadata.empty with
        slot := update.slot
        programId := update.owner
        receivedAt := update.receivedAt }
  else none

/-- Decodes an account update and hands its event on, where a callback may fail. -/
def ingestAccountWith (now : Int64) (callback : Event → Bool) (s : Session)
    (update : AccountWrite) : Handover :=
  match snapshot? s.config update with
  | some e =>
    { s with stats := { s.stats with accounts := s.stats.accounts + 1 } }.deliver now callback e
  | none => ⟨0, [], true, s⟩

/-- Decodes an account update and hands its event on, where a callback does not fail. -/
def ingestAccount (now : Int64) (s : Session) (update : AccountWrite) : Handover :=
  s.ingestAccountWith now (fun _ => true) update

/-- The event of a block. -/
def blockEvent (block : Block) : Event :=
  Event.ofValuation
    { Metadata.empty with
      slot := block.slot
      blockTime := block.blockTime
      blockTimeMs := milliseconds block.blockTime
      receivedAt := block.receivedAt }
    .blockMeta
    (((Valuation.zero.set .parentSlot block.parentSlot).set .blockHash block.hash).set
      .executedTransactionCount block.executed)

/-- Hands the event of a block on, where a callback may fail. -/
def ingestBlockWith (now : Int64) (callback : Event → Bool) (s : Session) (info : Block) :
    Handover :=
  { s with stats := { s.stats with blocks := s.stats.blocks + 1 } }.deliver now callback
    (blockEvent info)

/-- Hands the event of a block on, where a callback does not fail. -/
def ingestBlock (now : Int64) (s : Session) (info : Block) : Handover :=
  s.ingestBlockWith now (fun _ => true) info

/-- Takes the oldest event off the queue. -/
def pop (s : Session) : Option Event × Session :=
  let popped := s.queue.pop
  (popped.1, { s with queue := popped.2 })

/-- Lets the consumer handle at most `count` events of the queue; the events as they were handled
come first. `handler` tells whether it succeeds on an event, which may also depend on how many
events the consumer has handled before. -/
def handleUpTo (now : Int64) (handler : Nat → Event → Bool) :
    Nat → Session → List Event × Session
  | 0, s => ([], s)
  | count + 1, s =>
    match s.pop with
    | (some e, s) =>
      let e := e.handled now
      let succeeded := handler s.consumer.consumed e
      let s := { s with consumer := s.consumer.handle now succeeded e }
      let more := handleUpTo now handler count s
      (e :: more.1, more.2)
    | (none, s) => ([], s)

/-- Lets the consumer handle all events of the queue, with a handler that may fail on any of
them. -/
def drainWith (now : Int64) (handler : Nat → Event → Bool) (s : Session) :
    List Event × Session :=
  handleUpTo now handler s.queue.span s

/-- Lets the consumer handle all events of the queue; `handler` tells whether it succeeds. -/
def drain (now : Int64) (handler : Event → Bool) (s : Session) : List Event × Session :=
  s.drainWith now fun _ => handler

end Session

end DexFeed
