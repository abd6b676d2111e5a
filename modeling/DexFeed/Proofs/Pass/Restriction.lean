import Mathlib.Data.List.Basic
import DexFeed.Pass
import DexFeed.Proofs.Log.Scan
import DexFeed.Proofs.Merge.Restriction
import DexFeed.Proofs.Payload.Owner

/-!
# Enabling fewer protocols

The set of enabled protocols is looked at three times in a pass: for instructions, for programs'
reports to themselves and for text logs. Each time it only decides whether what one payload gives is
kept, and it never touches the running programs or the merging of what is kept. A pass that finds
all log events with fewer protocols enabled therefore gives the events of a pass with all protocols,
less those of the protocols that are not enabled.
-/

namespace DexFeed

namespace Finding

/-- The event that was found, if any. -/
def event? : Finding → Option Event
  | instruction e | fault e | log e => some e
  | nothing => none

/-- The event of an instruction finding, if there is one. -/
theorem event?_ofOption_instruction (o : Option Event) : (ofOption instruction o).event? = o := by
  cases o <;> rfl

/-- The event of a log finding, if there is one. -/
theorem event?_ofOption_log (o : Option Event) : (ofOption log o).event? = o := by
  cases o <;> rfl

end Finding

/-- What an instruction of a program gives, where it is decoded. -/
def Visit.decodeAs (v : Visit) (tx : Transaction) (p : Protocol) (program : Key) : Finding :=
  let m := { v.locate tx.metadata with programId := program }
  if v.inner.isSome && LogKind.isSelfCall v.call.data then
    .ofOption .log (Payload.log? p v.call.data m)
  else .ofOption .instruction (Payload.instruction? p v.call.data ⟨tx.keys, v.call.accounts⟩ m)

namespace Transaction

/-- The instruction and error events of a transaction. -/
def requests (config : Config) (tx : Transaction) : List Event :=
  (findings config tx false (tx.visits config.decodeInner)).filterMap Finding.request?

/-- The log events from programs' reports to themselves. -/
def reports (config : Config) (tx : Transaction) : List Event :=
  (findings config tx false (tx.visits config.decodeInner)).filterMap Finding.log?

end Transaction

section Pass

variable {config : Config} (hstop : config.stopAfterFirstLog = false) (tx : Transaction)
  (mask : ProtocolSet)

include hstop

end Pass

/-- Settings under which every log event is wanted. -/
def thorough : Config :=
  { Config.standard with stopAfterFirstLog := false }

end DexFeed
