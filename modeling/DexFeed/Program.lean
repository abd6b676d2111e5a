import DexFeed.Key

/-!
# Programs

The feed understands the payloads of six on-chain programs, called protocols here. Each has a name,
a base58 program id and a bit in the 32-bit sets by which callers choose protocols. A program is
recognised by its key, in instructions and account updates, or by the text of its id, in log lines.
-/

namespace DexFeed

/-- A program whose payloads are understood. -/
inductive Protocol
  | pumpFun | pumpSwap | bonk | raydiumCpmm | raydiumClmm | orcaWhirlpool
deriving DecidableEq, Repr

namespace Protocol

/-- Every protocol, in the order of their numbers. -/
def all : List Protocol :=
  [.pumpFun, .pumpSwap, .bonk, .raydiumCpmm, .raydiumClmm, .orcaWhirlpool]

/-- The number of a protocol. -/
def number : Protocol → Nat
  | pumpFun => 0
  | pumpSwap => 1
  | bonk => 2
  | raydiumCpmm => 3
  | raydiumClmm => 4
  | orcaWhirlpool => 5

/-- The protocol with a number. -/
def ofNumber? (n : Nat) : Option Protocol :=
  all[n]?

/-- The published name of a protocol. -/
def name : Protocol → String
  | pumpFun => "pumpfun"
  | pumpSwap => "pumpswap"
  | bonk => "bonk"
  | raydiumCpmm => "raydium_cpmm"
  | raydiumClmm => "raydium_clmm"
  | orcaWhirlpool => "orca_whirlpool"

/-- The base58 text of a protocol's program id. -/
def idText : Protocol → String
  | pumpFun => "6EF8rrecthR5Dkzon8Nwu78hRvfCKubJ14M5uBEwF6P"
  | pumpSwap => "pAMMBay6oceH9fJKBRHGP5D4bD4sWpmSwMn52FMfXEA"
  | bonk => "LanMV9sAd7wArD4vJFi2qDdfnVhFxYSUg6eADduJ3uj"
  | raydiumCpmm => "CPMMoo8L3F4NbTegBCKVNunggL7H1ZpdTHKxQB5qKP1C"
  | raydiumClmm => "CAMMCzo5YL8w4VFF8KVHrK22GGUsp5VTaW7grrKgrWqK"
  | orcaWhirlpool => "whirLbMiicVdio4qvUfM5KAg6Ct8VwpYzGff3uctyCc"

/-- The key of a protocol's program; the zero key would mean that `idText` names no key. -/
def programId (p : Protocol) : Key :=
  (Key.ofBase58? (ascii p.idText)).getD Key.zero

/-- The protocol whose program has a key. -/
def ofKey? (k : Key) : Option Protocol :=
  all.find? fun p => p.programId = k

/-- The protocol whose program id is spelled exactly so. -/
def ofIdText? (text : Bytes) : Option Protocol :=
  all.find? fun p => ascii p.idText = text

/-- No protocol is missing from the list. -/
theorem mem_all (p : Protocol) : p ∈ all := by
  cases p <;> decide

/-- The number of a protocol leads back to it. -/
theorem ofNumber?_number (p : Protocol) : ofNumber? p.number = some p := by
  cases p <;> rfl

end Protocol

/-- A set of protocols, one bit per protocol number; other bits mean nothing. -/
structure ProtocolSet where
  /-- The bits, the lowest for protocol 0. -/
  bits : UInt32
deriving DecidableEq, Repr

namespace ProtocolSet

/-- The set of all protocols. -/
def full : ProtocolSet := ⟨63⟩

/-- Whether a protocol belongs to a set. -/
def contains (s : ProtocolSet) (p : Protocol) : Bool :=
  s.bits.toNat.testBit p.number

/-- The full set has every protocol. -/
theorem contains_full (p : Protocol) : full.contains p = true := by
  cases p <;> decide

end ProtocolSet

end DexFeed
