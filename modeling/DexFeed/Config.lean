import DexFeed.Program

/-!
# Configuration

What a session decodes and how it delivers: the protocols that are enabled, whether the first log
event ends the search, whether inner instructions are looked at, whether instructions and logs are
merged, whether references out of range are reported, and the sizes of the delivery queue and of
the latency windows.
-/

namespace DexFeed

/-- The settings of a session. -/
structure Config where
  /-- The least number of events that the delivery queue has room for. -/
  queueCapacity : UInt64
  /-- How often a consumer polls an empty queue before it yields. -/
  spinLimit : UInt32
  /-- Whether one log event per transaction is enough. -/
  stopAfterFirstLog : Bool
  /-- Whether a program reference out of range gives an error event. -/
  emitErrorEvents : Bool
  /-- Whether inner instructions are decoded. -/
  decodeInner : Bool
  /-- Whether instruction events are merged into log events. -/
  mergeEnabled : Bool
  /-- How many latency samples are kept. -/
  latencySamples : Nat
  /-- The protocols that are decoded. -/
  enabled : ProtocolSet
deriving DecidableEq

/-- The settings where none are given. -/
def Config.standard : Config where
  queueCapacity := 65536
  spinLimit := 4096
  stopAfterFirstLog := true
  emitErrorEvents := true
  decodeInner := true
  mergeEnabled := true
  latencySamples := 100000
  enabled := ProtocolSet.full

end DexFeed
