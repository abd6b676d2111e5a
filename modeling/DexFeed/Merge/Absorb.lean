import DexFeed.Merge.Pair

/-!
# Merging the events of a transaction

Each log event can take in one instruction event. Instruction events are offered in their order, and
each goes to the last log event of the same key that is still free; one that finds none is appended
behind the log events. No event is dropped and no log event moves.
-/

namespace DexFeed

/-- A log event and whether it has taken in an instruction event. -/
structure Place where
  /-- The log event, merged once the place is taken. -/
  event : Event
  /-- Whether the place is taken. -/
  taken : Bool
deriving DecidableEq

namespace Place

/-- A place that is still free. -/
def free (log : Event) : Place := ⟨log, false⟩

/-- Whether a place is free for an instruction event. -/
def accepts (p : Place) (ix : Event) : Bool :=
  !p.taken && p.event.pairsWith ix

/-- The places after the last one that accepts an instruction event has taken it in. -/
def absorb? (ix : Event) : List Place → Option (List Place)
  | [] => none
  | p :: places =>
    match absorb? ix places with
    | some places => some (p :: places)
    | none => if p.accepts ix then some (⟨p.event.merge ix, true⟩ :: places) else none

/-- The places after all instruction events were offered, and those that found no place. -/
def absorbAll : List Place → List Event → List Place × List Event
  | places, [] => (places, [])
  | places, ix :: ixs =>
    match absorb? ix places with
    | some places => absorbAll places ixs
    | none =>
      let rest := absorbAll places ixs
      (rest.1, ix :: rest.2)

end Place

/-- The events of a transaction: the log events, each with the instruction event it took in, and
behind them the instruction events that found no log. -/
def reconcile (ixs logs : List Event) : List Event :=
  let done := Place.absorbAll (logs.map Place.free) ixs
  done.1.map Place.event ++ done.2

end DexFeed
