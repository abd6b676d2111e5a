/-!
# Capacities of the delivery queue

A queue has room for a power of two of events, at least two, so that a position in 64 bits is
reduced to a cell by masking. `roundUp` finds the least such power that is no smaller than what was
asked for, by doubling; 62 doublings lead from 2 to `2 ^ 63`, and larger requests are outside the
contract.
-/

namespace DexFeed.Capacity

/-- Doubles a capacity, at most `steps` times, until it is no smaller than `n`. -/
def double (n : UInt64) : (steps : Nat) → UInt64 → UInt64
  | 0, capacity => capacity
  | steps + 1, capacity => if capacity < n then double n steps (capacity <<< 1) else capacity

/-- The least power of two that is at least 2 and at least `n`. -/
def roundUp (n : UInt64) : UInt64 :=
  double n 62 2

end DexFeed.Capacity
