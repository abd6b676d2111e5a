import DexFeed.Key

/-!
# Wire types

Payloads are sequences of typed values: little-endian integers of several widths, one-byte truth
values, keys, and texts and key lists behind a 32-bit count. `WireType` names the types, `Value`
gives the domain of each, `zero` the value that means "not filled in" and `width` the room that a
value takes. How a value is spelled in bytes is the next module's concern.
-/

namespace DexFeed

/-- The two sides of a trade on a launch curve. -/
inductive Side
  /-- Base token against quote token received. -/
  | buy
  /-- Quote token against base token received. -/
  | sell
deriving DecidableEq, Repr

/-- The types of the values that payloads are made of. -/
inductive WireType
  /-- An unsigned byte. -/
  | u8
  /-- An unsigned 16-bit integer. -/
  | u16
  /-- An unsigned 32-bit integer. -/
  | u32
  /-- An unsigned 64-bit integer. -/
  | u64
  /-- An unsigned 128-bit integer. -/
  | u128
  /-- A signed 32-bit integer. -/
  | i32
  /-- A signed 64-bit integer. -/
  | i64
  /-- A truth value in one byte; every byte but zero is true. -/
  | flag
  /-- A 32-byte key. -/
  | key
  /-- UTF-8 text behind its length in bytes. -/
  | text
  /-- Keys behind their number. -/
  | keys
  /-- A side of a trade in one byte, which must be 0 or 1. -/
  | side
  /-- Three unsigned 64-bit integers. -/
  | triple
deriving DecidableEq, Repr

namespace WireType

/-- The values of a wire type. -/
@[reducible] def Value : WireType → Type
  | u8 => UInt8
  | u16 => UInt16
  | u32 => UInt32
  | u64 => UInt64
  | u128 => BitVec 128
  | i32 => Int32
  | i64 => Int64
  | flag => Bool
  | key => Key
  | text => String
  | keys => List Key
  | side => Side
  | triple => UInt64 × UInt64 × UInt64

/-- The value of a field that was never filled in. -/
def zero : (t : WireType) → t.Value
  | u8 => (0 : UInt8)
  | u16 => (0 : UInt16)
  | u32 => (0 : UInt32)
  | u64 => (0 : UInt64)
  | u128 => (0 : BitVec 128)
  | i32 => (0 : Int32)
  | i64 => (0 : Int64)
  | flag => false
  | key => Key.zero
  | text => ""
  | keys => ([] : List Key)
  | side => Side.buy
  | triple => ((0, 0, 0) : UInt64 × UInt64 × UInt64)

/-- How many bytes a value takes; of a text or a list, how many its count does. -/
def width : WireType → Nat
  | u8 | flag | side => 1
  | u16 => 2
  | u32 | i32 | text | keys => 4
  | u64 | i64 => 8
  | u128 => 16
  | triple => 24
  | key => 32

/-- Whether any bytes of the width of a type are a value of the type, and no others are. -/
def isPlain : WireType → Bool
  | text | keys | side => false
  | _ => true

instance (t : WireType) : DecidableEq t.Value :=
  match t with
  | u8 => inferInstanceAs (DecidableEq UInt8)
  | u16 => inferInstanceAs (DecidableEq UInt16)
  | u32 => inferInstanceAs (DecidableEq UInt32)
  | u64 => inferInstanceAs (DecidableEq UInt64)
  | u128 => inferInstanceAs (DecidableEq (BitVec 128))
  | i32 => inferInstanceAs (DecidableEq Int32)
  | i64 => inferInstanceAs (DecidableEq Int64)
  | flag => inferInstanceAs (DecidableEq Bool)
  | key => inferInstanceAs (DecidableEq Key)
  | text => inferInstanceAs (DecidableEq String)
  | keys => inferInstanceAs (DecidableEq (List Key))
  | side => inferInstanceAs (DecidableEq Side)
  | triple => inferInstanceAs (DecidableEq (UInt64 × UInt64 × UInt64))

instance (t : WireType) : Inhabited t.Value := ⟨t.zero⟩

end WireType

end DexFeed
