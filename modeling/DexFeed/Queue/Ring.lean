import DexFeed.Queue.Capacity

/-!
# The delivery queue

Events wait for their consumer in a ring of cells. Positions are 64-bit numbers that only grow; a
position's cell is found by masking. Each cell carries a sequence number that says whose turn it is:
it equals the position while the cell waits to be filled for it and is one more once it is filled,
and emptying a cell moves it to the position one lap ahead. The sign of the difference between
sequence number and position therefore tells a full ring from an empty one and both from a cell that
another party has already passed. A full ring refuses an event and counts it; an empty one yields
nothing. `toList` is the queue as a list, oldest first.

The difference is one of two signed numbers, and where it leaves their range it is taken as the
built program computes it, wrapping round; with a ring's sequence numbers that takes `2 ^ 63`
positions. The count of refused events has 64 bits there and is a natural number here, which is the
same until `2 ^ 64` events were refused.
-/

namespace DexFeed

/-- What the sequence number of a cell says about a position. -/
inductive Turn
  /-- It is the position's turn. -/
  | ready
  /-- The cell is not yet there. -/
  | behind
  /-- Another party has passed the position. -/
  | ahead
deriving DecidableEq, Repr

/-- Compares a sequence number with the one expected, as a signed distance that wraps round. -/
def Turn.of (sequence expected : UInt64) : Turn :=
  let distance := (sequence - expected).toInt64
  if distance = 0 then .ready else if distance < 0 then .behind else .ahead

/-- One cell of a ring. -/
structure Cell (α : Type) where
  /-- The number that says whose turn the cell is. -/
  sequence : UInt64
  /-- What the cell holds. -/
  value : Option α

/-- A bounded queue. -/
structure Ring (α : Type) where
  /-- The capacity less one, whose bits select a cell. -/
  mask : UInt64
  /-- The cells. -/
  cells : Array (Cell α)
  /-- There is a cell for each value of a masked position. -/
  size_cells : cells.size = mask.toNat + 1
  /-- The position of the oldest value. -/
  head : UInt64
  /-- The position behind the newest value. -/
  tail : UInt64
  /-- How many values were refused, a count that never wraps. -/
  dropped : Nat

namespace Ring

variable {α : Type}

/-- A queue with room for at least `n` values. -/
def empty (n : UInt64) : Ring α where
  mask := Capacity.roundUp n - 1
  cells := Array.ofFn fun i : Fin ((Capacity.roundUp n - 1).toNat + 1) =>
    ⟨UInt64.ofNat i, none⟩
  size_cells := Array.size_ofFn
  head := 0
  tail := 0
  dropped := 0

/-- The number of values that the queue has room for. -/
def capacity (r : Ring α) : UInt64 :=
  r.mask + 1

/-- The index of a position's cell. -/
def index (r : Ring α) (position : UInt64) : Nat :=
  (position &&& r.mask).toNat

/-- Every position has a cell. -/
theorem index_lt (r : Ring α) (position : UInt64) : r.index position < r.cells.size := by
  have h : (position &&& r.mask).toNat ≤ r.mask.toNat := by
    rw [UInt64.toNat_and]
    exact Nat.and_le_right
  rw [r.size_cells]
  exact Nat.lt_succ_of_le h

/-- The cell of a position. -/
def cell (r : Ring α) (position : UInt64) : Cell α :=
  have := r.index_lt position
  r.cells[r.index position]

/-- The cells with a position's cell replaced. -/
def replace (r : Ring α) (position : UInt64) (c : Cell α) : Array (Cell α) :=
  r.cells.set (r.index position) c (r.index_lt position)

/-- Replacing a cell keeps their number. -/
theorem size_replace (r : Ring α) (position : UInt64) (c : Cell α) :
    (r.replace position c).size = r.mask.toNat + 1 := by
  rw [replace, Array.size_set, r.size_cells]

/-- Whose turn the next cell to fill is. -/
def pushTurn (r : Ring α) : Turn :=
  Turn.of (r.cell r.tail).sequence r.tail

/-- Whose turn the next cell to empty is. -/
def popTurn (r : Ring α) : Turn :=
  Turn.of (r.cell r.head).sequence (r.head + 1)

/-- Appends a value if there is room, and tells whether there was; a value without room is counted.
Where another party has passed the position nothing happens. -/
def push (r : Ring α) (x : α) : Bool × Ring α :=
  match r.pushTurn with
  | .ready =>
    (true, { r with
      cells := r.replace r.tail ⟨r.tail + 1, some x⟩
      size_cells := r.size_replace r.tail _
      tail := r.tail + 1 })
  | .behind => (false, { r with dropped := r.dropped + 1 })
  | .ahead => (false, r)

/-- Takes the oldest value off, if there is one. -/
def pop (r : Ring α) : Option α × Ring α :=
  match r.popTurn with
  | .ready =>
    ((r.cell r.head).value, { r with
      cells := r.replace r.head ⟨r.head + r.mask + 1, none⟩
      size_cells := r.size_replace r.head _
      head := r.head + 1 })
  | .behind => (none, r)
  | .ahead => (none, r)

/-- The number of values that wait. -/
def size (r : Ring α) : Nat :=
  if r.head < r.tail then (r.tail - r.head).toNat else 0

/-- The distance between the two positions, which also counts right once they have wrapped. -/
def span (r : Ring α) : Nat :=
  (r.tail - r.head).toNat

/-- The values that wait, oldest first. -/
def toList (r : Ring α) : List α :=
  (List.range r.span).filterMap fun i => (r.cell (r.head + UInt64.ofNat i)).value

end Ring

end DexFeed
