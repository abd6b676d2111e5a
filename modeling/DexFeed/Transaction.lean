import DexFeed.Event.Basic

/-!
# Data from the chain

The feed is handed transactions, account updates and blocks, and only reads them. A transaction
lists its keys, the instructions that it was sent with, groups of inner instructions that programs
issued while an outer one ran, and the lines that were logged. Instructions name their program and
accounts by index into the keys, which need not be in range.
-/

namespace DexFeed

/-- An instruction as a transaction states it. -/
structure Call where
  /-- The program, as an index into the transaction's keys. -/
  program : UInt32
  /-- The tag and the arguments. -/
  data : Bytes
  /-- The accounts, as indices into the transaction's keys. -/
  accounts : List UInt32
deriving DecidableEq

/-- The instructions that programs issued while an outer instruction ran. -/
structure InnerCalls where
  /-- The position of the outer instruction. -/
  outer : UInt32
  /-- The inner instructions in their order. -/
  calls : List Call
deriving DecidableEq

/-- A transaction. -/
structure Transaction where
  /-- The first signature. -/
  signature : Signature
  /-- The slot. -/
  slot : UInt64
  /-- The block time in seconds, where known. -/
  blockTime : Option Int64
  /-- The position in the block, where known. -/
  transactionIndex : Option UInt64
  /-- The account keys. -/
  keys : List Key
  /-- The instructions that the transaction was sent with. -/
  calls : List Call
  /-- The inner instructions. -/
  inner : List InnerCalls
  /-- The lines that were logged. -/
  logs : List Bytes
  /-- When the transaction was received, in microseconds. -/
  receivedAt : Int64
deriving DecidableEq

/-- The new state of an account. -/
structure AccountWrite where
  /-- The account. -/
  account : Key
  /-- The program that owns the account. -/
  owner : Key
  /-- The account's data. -/
  data : Bytes
  /-- The account's balance. -/
  lamports : UInt64
  /-- The slot of the update. -/
  slot : UInt64
  /-- When the update was received, in microseconds. -/
  receivedAt : Int64
deriving DecidableEq

/-- A block, without its transactions. -/
structure Block where
  /-- The slot. -/
  slot : UInt64
  /-- The slot of the block before. -/
  parentSlot : UInt64
  /-- The block's hash. -/
  hash : Key
  /-- The block time in seconds, where known. -/
  blockTime : Option Int64
  /-- How many transactions were executed. -/
  executed : UInt64
  /-- When the block was received, in microseconds. -/
  receivedAt : Int64
deriving DecidableEq

/-- A time in seconds as milliseconds; zero where it is not known, the nearest end of the range
where it does not fit. -/
def milliseconds : Option Int64 → Int64
  | none => 0
  | some s =>
    if 9223372036854775 < s then Int64.maxValue
    else if s < -9223372036854775 then Int64.minValue
    else s * 1000

namespace Transaction

/-- The metadata that all events of a transaction share. -/
def metadata (tx : Transaction) : Metadata :=
  { Metadata.empty with
    signature := tx.signature
    slot := tx.slot
    blockTime := tx.blockTime
    blockTimeMs := milliseconds tx.blockTime
    transactionIndex := tx.transactionIndex
    receivedAt := tx.receivedAt }

end Transaction

/-- An instruction and its place in the transaction. -/
structure Visit where
  /-- The instruction. -/
  call : Call
  /-- The position of the outer instruction. -/
  outer : Nat
  /-- The position among the inner instructions, if it is one. -/
  inner : Option Nat
deriving DecidableEq

namespace Transaction

/-- The outer instructions of a transaction, in order. -/
def outerVisits (tx : Transaction) : List Visit :=
  tx.calls.mapIdx fun i call => ⟨call, i, none⟩

/-- The inner instructions of a transaction, group by group. -/
def innerVisits (tx : Transaction) : List Visit :=
  tx.inner.flatMap fun group => group.calls.mapIdx fun j call => ⟨call, group.outer.toNat, some j⟩

/-- The instructions of a transaction: the outer ones and then, if wanted, the inner ones. -/
def visits (tx : Transaction) (inner : Bool) : List Visit :=
  tx.outerVisits ++ if inner then tx.innerVisits else []

end Transaction

namespace Visit

/-- Metadata at the place of an instruction. -/
def locate (v : Visit) (m : Metadata) : Metadata :=
  { m with outerIndex := Int64.ofNat v.outer, innerIndex := v.inner.map Int64.ofNat }

/-- The place of an instruction in words. -/
def place (v : Visit) : String :=
  match v.inner with
  | none => toString v.outer
  | some j => toString v.outer ++ "." ++ toString j

end Visit

end DexFeed
