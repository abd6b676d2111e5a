import DexFeed.Event.Basic

/-!
# Accounts of an instruction

A transaction lists all its account keys once, and each of its instructions refers to them by
index. What an account means to an instruction depends only on its position among these
references. A position without a reference, and a reference without a key, read as the zero key, so
a short list shifts nothing and fails nothing.
-/

namespace DexFeed

/-- The accounts that an instruction refers to. -/
structure Accounts where
  /-- The keys of the whole transaction. -/
  keys : List Key
  /-- The instruction's accounts as positions in `keys`. -/
  indices : List UInt32
deriving DecidableEq

namespace Accounts

/-- The number of accounts that the instruction refers to. -/
def size (a : Accounts) : Nat :=
  a.indices.length

/-- The key at a position of the instruction's accounts, zero where there is none. -/
def key (a : Accounts) (position : Nat) : Key :=
  match a.indices[position]? with
  | some i => (a.keys[i.toNat]?).getD Key.zero
  | none => Key.zero

end Accounts

/-- A field that takes the key at a position of the instruction's accounts. -/
structure Slot where nth ::
  /-- The position. -/
  position : Nat
  /-- The field, whose values are keys. -/
  field : Field
  /-- The field holds keys. -/
  isKey : field.type = .key := by rfl

/-- Fills the fields of slots with the accounts at their positions. -/
def Accounts.fill (a : Accounts) (v : Valuation) : List Slot → Valuation
  | [] => v
  | slot :: slots => a.fill (v.set slot.field (slot.isKey ▸ a.key slot.position)) slots

end DexFeed
