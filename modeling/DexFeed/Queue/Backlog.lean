import DexFeed.Queue.Ring

/-!
# Backlogs

To its users a bounded queue is a backlog: the values that wait, in the order of their arrival and
at most as many as there is room for, and the number of those that were refused. Requests to a queue
are answered one after the other; a ring answers them from its cells and a backlog from a list.
-/

namespace DexFeed

variable {α : Type}

/-- What a bounded queue holds. -/
structure Backlog (α : Type) where
  /-- The values that wait, oldest first. -/
  waiting : List α
  /-- How many values were refused. -/
  refused : Nat
deriving DecidableEq

namespace Backlog

/-- Nothing waits and nothing was refused. -/
def empty : Backlog α := ⟨[], 0⟩

/-- Appends a value if fewer than `capacity` values wait, and refuses it otherwise. -/
def push (capacity : Nat) (b : Backlog α) (x : α) : Bool × Backlog α :=
  if b.waiting.length < capacity then (true, { b with waiting := b.waiting ++ [x] })
  else (false, { b with refused := b.refused + 1 })

/-- Takes the oldest value off, if one waits. -/
def pop (b : Backlog α) : Option α × Backlog α :=
  (b.waiting.head?, { b with waiting := b.waiting.tail })

end Backlog

/-- The backlog that a ring holds. -/
def Ring.backlog (r : Ring α) : Backlog α :=
  ⟨r.toList, r.dropped⟩

/-- Something asked of a queue. -/
inductive QueueRequest (α : Type)
  /-- To append a value. -/
  | push (x : α)
  /-- To take the oldest value off. -/
  | pop
deriving DecidableEq

/-- The answer to a request. -/
inductive QueueAnswer (α : Type)
  /-- Whether the value was appended. -/
  | pushed (accepted : Bool)
  /-- The value that was taken off, if there was one. -/
  | popped (value : Option α)
deriving DecidableEq

namespace QueueAnswer

/-- The value that a request added to a queue, if its answer accepts one. -/
def added? : QueueRequest α → QueueAnswer α → Option α
  | .push x, .pushed true => some x
  | _, _ => none

/-- The values that requests added to a queue, in order. -/
def added (requests : List (QueueRequest α)) (answers : List (QueueAnswer α)) : List α :=
  (requests.zipWith added? answers).filterMap id

/-- The value that an answer takes off a queue, if there is one. -/
def taken? : QueueAnswer α → Option α
  | .popped value => value
  | .pushed _ => none

/-- The values that answers take off a queue, in order. -/
def taken (answers : List (QueueAnswer α)) : List α :=
  answers.filterMap taken?

end QueueAnswer

/-- The answer of a ring. -/
def Ring.answer (r : Ring α) : QueueRequest α → QueueAnswer α × Ring α
  | .push x => (.pushed (r.push x).1, (r.push x).2)
  | .pop => (.popped r.pop.1, r.pop.2)

/-- The answer of a backlog. -/
def Backlog.answer (capacity : Nat) (b : Backlog α) : QueueRequest α → QueueAnswer α × Backlog α
  | .push x => (.pushed (b.push capacity x).1, (b.push capacity x).2)
  | .pop => (.popped b.pop.1, b.pop.2)

/-- The answers to requests one after the other, and the queue behind them. -/
def serve {σ : Type} (answer : σ → QueueRequest α → QueueAnswer α × σ) :
    σ → List (QueueRequest α) → List (QueueAnswer α) × σ
  | s, [] => ([], s)
  | s, request :: more =>
    let first := answer s request
    let rest := serve answer first.2 more
    (first.1 :: rest.1, rest.2)

end DexFeed
