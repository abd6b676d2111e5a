import DexFeed.Payload.Form

/-!
# Account snapshots

The state of an account is an eight-byte tag and a body. `SnapshotKind` lists the four kinds of
state that are understood, with the program that owns the account, the tag and the format of the
body of each. The account's own key comes from beside the data.
-/

namespace DexFeed

/-- The account states that are understood. -/
inductive SnapshotKind
  | pumpFunBondingCurve | pumpFunGlobal | pumpSwapPool | cpmmPoolState
deriving DecidableEq, Repr

namespace SnapshotKind

/-- Every kind of account snapshot, protocol by protocol. -/
def all : List SnapshotKind :=
  [.pumpFunBondingCurve, .pumpFunGlobal, .pumpSwapPool, .cpmmPoolState]

/-- The program that understands a kind. -/
def protocol : SnapshotKind → Protocol
  | pumpFunBondingCurve | pumpFunGlobal => .pumpFun
  | pumpSwapPool => .pumpSwap
  | cpmmPoolState => .raydiumCpmm

/-- The tag of a kind; a tag may recur among the programs. -/
def tag : SnapshotKind → Tag
  | pumpFunBondingCurve => ⟨[23, 183, 248, 55, 96, 216, 172, 96], rfl⟩
  | pumpFunGlobal => ⟨[167, 232, 232, 177, 200, 108, 114, 127], rfl⟩
  | pumpSwapPool => ⟨[241, 154, 109, 4, 17, 177, 109, 188], rfl⟩
  | cpmmPoolState => ⟨[247, 237, 227, 245, 215, 195, 222, 70], rfl⟩

/-- The body behind the tag of each state. -/
def format : SnapshotKind → Format
  | pumpFunBondingCurve =>
    Format.rowWithTail .pumpFunBondingCurveAccount
      [.virtualTokenReserves, .virtualSolReserves, .realTokenReserves, .realSolReserves,
       .tokenTotalSupply, .complete]
      (Addition.each [.creator])
  | pumpFunGlobal =>
    Format.row .pumpFunGlobalAccount
      [.initialized, .authority, .feeRecipient, .initialVirtualTokenReserves,
       .initialVirtualSolReserves, .initialRealTokenReserves, .tokenTotalSupply, .feeBasisPoints]
  | pumpSwapPool =>
    Format.rowWithTail .pumpSwapPoolAccount
      [.poolBump, .index, .creator, .baseMint, .quoteMint, .lpMint, .poolBaseTokenAccount,
       .poolQuoteTokenAccount, .lpSupply]
      (Addition.each [.coinCreator])
  | cpmmPoolState =>
    Format.row .raydiumCpmmPoolStateAccount
      [.ammConfig, .poolCreator, .token0Vault, .token1Vault, .lpMint, .token0Mint, .token1Mint,
       .token0Program, .token1Program, .observationKey, .authBump, .status, .lpMintDecimals,
       .mint0Decimals, .mint1Decimals, .lpSupply, .protocolFeesToken0, .protocolFeesToken1,
       .fundFeesToken0, .fundFeesToken1, .openTime]

/-- The event of a state of a kind, from what stands behind its tag and the account's key. -/
def event? (kind : SnapshotKind) (body : Bytes) (account : Key) (m : Metadata) : Option Event :=
  (kind.format.read body).map fun (variant, v) =>
    Event.ofValuation m variant (v.set .pubkey account)

/-- The state of an account of a program that some data hold. -/
def find? (p : Protocol) (data : Bytes) : Option SnapshotKind :=
  all.find? fun kind => kind.protocol = p ∧ data.take 8 = kind.tag.bytes

end SnapshotKind

end DexFeed
