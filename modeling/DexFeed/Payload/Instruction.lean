import DexFeed.Payload.Accounts
import DexFeed.Payload.Launch

/-!
# Instructions

The data of an instruction is an eight-byte tag and the arguments; the accounts that it works on are
named beside it, by position. `InstructionKind` lists the 35 instructions that are understood, with
the program, the tag, the format of the arguments and the meaning of the account positions of each.
Whether an instruction is accepted depends on its data alone: a position that names no account
reads as the zero key.
-/

namespace DexFeed

/-- The instructions that are understood. -/
inductive InstructionKind
  | pumpFunCreate | pumpFunBuy | pumpFunSell | pumpFunMigrate | pumpSwapBuy | pumpSwapSell
  | pumpSwapCreatePool | pumpSwapDeposit | pumpSwapWithdraw | bonkBuyExactIn | bonkBuyExactOut
  | bonkSellExactIn | bonkSellExactOut | bonkInitialize | bonkMigrateToAmm | cpmmSwapBaseInput
  | cpmmSwapBaseOutput | cpmmInitialize | cpmmDeposit | cpmmWithdraw | clmmSwap | clmmSwapV2
  | clmmCreatePool | clmmOpenPositionV2 | clmmOpenPositionToken22 | clmmClosePosition
  | clmmIncreaseLiquidity | clmmIncreaseLiquidityV2 | clmmDecreaseLiquidity
  | clmmDecreaseLiquidityV2 | orcaSwap | orcaIncreaseLiquidity | orcaDecreaseLiquidity
  | orcaInitializePool | orcaInitializePoolV2
deriving DecidableEq, Repr

namespace InstructionKind

/-- Every kind of instruction, protocol by protocol. -/
def all : List InstructionKind :=
  [.pumpFunCreate, .pumpFunBuy, .pumpFunSell, .pumpFunMigrate, .pumpSwapBuy, .pumpSwapSell,
   .pumpSwapCreatePool, .pumpSwapDeposit, .pumpSwapWithdraw, .bonkBuyExactIn, .bonkBuyExactOut,
   .bonkSellExactIn, .bonkSellExactOut, .bonkInitialize, .bonkMigrateToAmm, .cpmmSwapBaseInput,
   .cpmmSwapBaseOutput, .cpmmInitialize, .cpmmDeposit, .cpmmWithdraw, .clmmSwap, .clmmSwapV2,
   .clmmCreatePool, .clmmOpenPositionV2, .clmmOpenPositionToken22, .clmmClosePosition,
   .clmmIncreaseLiquidity, .clmmIncreaseLiquidityV2, .clmmDecreaseLiquidity,
   .clmmDecreaseLiquidityV2, .orcaSwap, .orcaIncreaseLiquidity, .orcaDecreaseLiquidity,
   .orcaInitializePool, .orcaInitializePoolV2]

/-- The program that understands a kind. -/
def protocol : InstructionKind → Protocol
  | pumpFunCreate | pumpFunBuy | pumpFunSell | pumpFunMigrate => .pumpFun
  | pumpSwapBuy | pumpSwapSell | pumpSwapCreatePool | pumpSwapDeposit | pumpSwapWithdraw
  => .pumpSwap
  | bonkBuyExactIn | bonkBuyExactOut | bonkSellExactIn | bonkSellExactOut | bonkInitialize
  | bonkMigrateToAmm => .bonk
  | cpmmSwapBaseInput | cpmmSwapBaseOutput | cpmmInitialize | cpmmDeposit | cpmmWithdraw
  => .raydiumCpmm
  | clmmSwap | clmmSwapV2 | clmmCreatePool | clmmOpenPositionV2 | clmmOpenPositionToken22
  | clmmClosePosition | clmmIncreaseLiquidity | clmmIncreaseLiquidityV2 | clmmDecreaseLiquidity
  | clmmDecreaseLiquidityV2 => .raydiumClmm
  | orcaSwap | orcaIncreaseLiquidity | orcaDecreaseLiquidity | orcaInitializePool
  | orcaInitializePoolV2 => .orcaWhirlpool

/-- The tag of a kind; a tag may recur among the programs. -/
def tag : InstructionKind → Tag
  | pumpFunCreate => ⟨[24, 30, 200, 40, 5, 28, 7, 119], rfl⟩
  | pumpFunBuy => ⟨[102, 6, 61, 18, 1, 218, 235, 234], rfl⟩
  | pumpFunSell => ⟨[51, 230, 133, 164, 1, 127, 131, 173], rfl⟩
  | pumpFunMigrate => ⟨[155, 234, 231, 146, 236, 158, 162, 30], rfl⟩
  | pumpSwapBuy => ⟨[102, 6, 61, 18, 1, 218, 235, 234], rfl⟩
  | pumpSwapSell => ⟨[51, 230, 133, 164, 1, 127, 131, 173], rfl⟩
  | pumpSwapCreatePool => ⟨[233, 146, 209, 142, 207, 104, 64, 188], rfl⟩
  | pumpSwapDeposit => ⟨[242, 35, 198, 137, 82, 225, 242, 182], rfl⟩
  | pumpSwapWithdraw => ⟨[183, 18, 70, 156, 148, 109, 161, 34], rfl⟩
  | bonkBuyExactIn => ⟨[250, 234, 13, 123, 213, 156, 19, 236], rfl⟩
  | bonkBuyExactOut => ⟨[24, 211, 116, 40, 105, 3, 153, 56], rfl⟩
  | bonkSellExactIn => ⟨[149, 39, 222, 155, 211, 124, 152, 26], rfl⟩
  | bonkSellExactOut => ⟨[95, 200, 71, 34, 8, 9, 11, 166], rfl⟩
  | bonkInitialize => ⟨[175, 175, 109, 31, 13, 152, 155, 237], rfl⟩
  | bonkMigrateToAmm => ⟨[207, 82, 192, 145, 254, 207, 145, 223], rfl⟩
  | cpmmSwapBaseInput => ⟨[143, 190, 90, 218, 196, 30, 51, 222], rfl⟩
  | cpmmSwapBaseOutput => ⟨[55, 217, 98, 86, 163, 74, 180, 173], rfl⟩
  | cpmmInitialize => ⟨[175, 175, 109, 31, 13, 152, 155, 237], rfl⟩
  | cpmmDeposit => ⟨[242, 35, 198, 137, 82, 225, 242, 182], rfl⟩
  | cpmmWithdraw => ⟨[183, 18, 70, 156, 148, 109, 161, 34], rfl⟩
  | clmmSwap => ⟨[248, 198, 158, 145, 225, 117, 135, 200], rfl⟩
  | clmmSwapV2 => ⟨[43, 4, 237, 11, 26, 201, 30, 98], rfl⟩
  | clmmCreatePool => ⟨[233, 146, 209, 142, 207, 104, 64, 188], rfl⟩
  | clmmOpenPositionV2 => ⟨[77, 184, 74, 214, 112, 86, 241, 199], rfl⟩
  | clmmOpenPositionToken22 => ⟨[77, 255, 174, 82, 125, 29, 201, 46], rfl⟩
  | clmmClosePosition => ⟨[123, 134, 81, 0, 49, 68, 98, 98], rfl⟩
  | clmmIncreaseLiquidity => ⟨[46, 156, 243, 118, 13, 205, 251, 178], rfl⟩
  | clmmIncreaseLiquidityV2 => ⟨[133, 29, 89, 223, 69, 238, 176, 10], rfl⟩
  | clmmDecreaseLiquidity => ⟨[160, 38, 208, 111, 104, 91, 44, 1], rfl⟩
  | clmmDecreaseLiquidityV2 => ⟨[58, 127, 188, 62, 79, 82, 196, 96], rfl⟩
  | orcaSwap => ⟨[248, 198, 158, 145, 225, 117, 135, 200], rfl⟩
  | orcaIncreaseLiquidity => ⟨[46, 156, 243, 118, 13, 205, 251, 178], rfl⟩
  | orcaDecreaseLiquidity => ⟨[160, 38, 208, 111, 104, 91, 44, 1], rfl⟩
  | orcaInitializePool => ⟨[95, 180, 10, 172, 84, 174, 232, 40], rfl⟩
  | orcaInitializePoolV2 => ⟨[207, 45, 87, 242, 27, 63, 204, 67], rfl⟩

/-- Liquidity that is added or removed against limits on both sides of a pump pool. -/
def pumpSwapLimits : List Field :=
  [.lpTokenAmount, .baseAmountLimit, .quoteAmountLimit]

/-- Liquidity that is added or removed against limits on both sides of a constant product pool. -/
def cpmmLimits : List Field :=
  [.lpTokenAmount, .token0Limit, .token1Limit]

/-- The arguments of a swap in a concentrated liquidity pool. -/
def clmmSwapArguments : List Field :=
  [.amount, .otherAmountThreshold, .sqrtPriceLimitX64, .isBaseInput]

/-- The arguments of a new position; the starts of its tick arrays are not kept. -/
def clmmPositionArguments : List Item :=
  Item.row [.tickLowerIndex, .tickUpperIndex] ++ [.unused .i32, .unused .i32] ++
    Item.row [.liquidity, .amount0Max, .amount1Max, .withMetadata]

/-- A launch curve trade, its side and whether the amount paid in is the exact one. -/
def bonkTrade (side : Side) (exactIn : Bool) (amounts : List Field) : Format :=
  [⟨.bonkTrade, [.given .tradeDirection side, .given .exactIn exactIn] ++
    Item.row (amounts ++ [.shareFeeRate]), []⟩]

/-- The arguments behind the tag of each instruction. -/
def format : InstructionKind → Format
  | pumpFunCreate =>
    Format.rowWithTail .pumpFunCreate [.name, .symbol, .uri] (Addition.each [.creator])
  | pumpFunBuy =>
    [⟨.pumpFunTrade, .given .isBuy true :: Item.row [.amount, .maxSolCost], []⟩]
  | pumpFunSell =>
    [⟨.pumpFunTrade, .given .isBuy false :: Item.row [.amount, .minSolOutput], []⟩]
  | pumpFunMigrate => Format.row .pumpFunMigrate []
  | pumpSwapBuy => Format.row .pumpSwapBuy [.baseAmountOut, .maxQuoteAmountIn]
  | pumpSwapSell => Format.row .pumpSwapSell [.baseAmountIn, .minQuoteAmountOut]
  | pumpSwapCreatePool => Format.row .pumpSwapCreatePool [.index, .baseAmountIn, .quoteAmountIn]
  | pumpSwapDeposit => Format.row .pumpSwapDeposit pumpSwapLimits
  | pumpSwapWithdraw => Format.row .pumpSwapWithdraw pumpSwapLimits
  | bonkBuyExactIn => bonkTrade .buy true [.amountIn, .minimumAmountOut]
  | bonkBuyExactOut => bonkTrade .buy false [.amountOut, .maximumAmountIn]
  | bonkSellExactIn => bonkTrade .sell true [.amountIn, .minimumAmountOut]
  | bonkSellExactOut => bonkTrade .sell false [.amountOut, .maximumAmountIn]
  | bonkInitialize => Launch.format []
  | bonkMigrateToAmm =>
    Format.row .bonkMigrateAmm [.baseLotSize, .quoteLotSize, .marketVaultSignerNonce]
  | cpmmSwapBaseInput =>
    [⟨.raydiumCpmmSwap, .given .baseInput true :: Item.row [.inputAmount, .minimumAmountOut], []⟩]
  | cpmmSwapBaseOutput =>
    [⟨.raydiumCpmmSwap, .given .baseInput false :: Item.row [.maxAmountIn, .outputAmount], []⟩]
  | cpmmInitialize => Format.row .raydiumCpmmInitialize [.initAmount0, .initAmount1, .openTime]
  | cpmmDeposit => Format.row .raydiumCpmmDeposit cpmmLimits
  | cpmmWithdraw => Format.row .raydiumCpmmWithdraw cpmmLimits
  | clmmSwap | clmmSwapV2 => Format.row .raydiumClmmSwap clmmSwapArguments
  | clmmCreatePool => Format.row .raydiumClmmCreatePool [.sqrtPriceX64, .openTime]
  | clmmOpenPositionV2 | clmmOpenPositionToken22 =>
    [⟨.raydiumClmmOpenPosition, clmmPositionArguments, []⟩]
  | clmmClosePosition => Format.row .raydiumClmmClosePosition []
  | clmmIncreaseLiquidity | clmmIncreaseLiquidityV2 =>
    Format.row .raydiumClmmIncreaseLiquidity [.liquidity, .amount0Max, .amount1Max]
  | clmmDecreaseLiquidity | clmmDecreaseLiquidityV2 =>
    Format.row .raydiumClmmDecreaseLiquidity [.liquidity, .amount0Min, .amount1Min]
  | orcaSwap =>
    Format.row .orcaSwap
      [.amount, .otherAmountThreshold, .sqrtPriceLimit, .amountSpecifiedIsInput, .aToB]
  | orcaIncreaseLiquidity =>
    Format.row .orcaLiquidityIncreased [.liquidity, .tokenLimitA, .tokenLimitB]
  | orcaDecreaseLiquidity =>
    Format.row .orcaLiquidityDecreased [.liquidity, .tokenLimitA, .tokenLimitB]
  | orcaInitializePool =>
    [⟨.orcaPoolInitialized, .unused .u8 :: Item.row [.tickSpacing, .initialSqrtPrice], []⟩]
  | orcaInitializePoolV2 => Format.row .orcaPoolInitialized [.tickSpacing, .initialSqrtPrice]

/-- The accounts of a trade on a pump curve; the vault's position differs between its sides. -/
def pumpFunTradeSlots (vault : Nat) : List Slot :=
  [.nth 0 .global, .nth 1 .feeRecipient, .nth 2 .mint, .nth 3 .bondingCurve,
   .nth 4 .associatedBondingCurve, .nth 5 .associatedUser, .nth 6 .user, .nth vault .creatorVault]

/-- The accounts of a trade in a pump pool. -/
def pumpSwapTradeSlots : List Slot :=
  [.nth 0 .pool, .nth 1 .user, .nth 2 .globalConfig, .nth 3 .baseMint, .nth 4 .quoteMint,
   .nth 5 .userBaseTokenAccount, .nth 6 .userQuoteTokenAccount, .nth 7 .poolBaseTokenAccount,
   .nth 8 .poolQuoteTokenAccount, .nth 9 .protocolFeeRecipient,
   .nth 10 .protocolFeeRecipientTokenAccount]

/-- The accounts of a change of liquidity in a pump pool. -/
def pumpSwapLiquiditySlots : List Slot :=
  [.nth 0 .pool, .nth 1 .globalConfig, .nth 2 .user, .nth 3 .baseMint, .nth 4 .quoteMint,
   .nth 5 .lpMint, .nth 6 .userBaseTokenAccount, .nth 7 .userQuoteTokenAccount,
   .nth 8 .userPoolTokenAccount, .nth 9 .poolBaseTokenAccount, .nth 10 .poolQuoteTokenAccount]

/-- The accounts of a launch curve trade. -/
def bonkTradeSlots : List Slot :=
  [.nth 0 .payer, .nth 2 .globalConfig, .nth 3 .platformConfig, .nth 4 .poolState,
   .nth 5 .userBaseToken, .nth 6 .userQuoteToken, .nth 7 .baseVault, .nth 8 .quoteVault,
   .nth 9 .baseTokenMint, .nth 10 .quoteTokenMint]

/-- The accounts of a swap in a constant product pool. -/
def cpmmSwapSlots : List Slot :=
  [.nth 0 .payer, .nth 2 .ammConfig, .nth 3 .pool, .nth 4 .inputTokenAccount,
   .nth 5 .outputTokenAccount, .nth 6 .inputVault, .nth 7 .outputVault, .nth 10 .inputTokenMint,
   .nth 11 .outputTokenMint, .nth 12 .observationState]

/-- The accounts of a change of liquidity in a constant product pool. -/
def cpmmLiquiditySlots : List Slot :=
  [.nth 0 .owner, .nth 2 .pool, .nth 3 .ownerLpToken, .nth 6 .token0Vault, .nth 7 .token1Vault,
   .nth 10 .vault0Mint, .nth 11 .vault1Mint, .nth 12 .lpMint]

/-- The accounts of a swap in a concentrated liquidity pool. -/
def clmmSwapSlots : List Slot :=
  [.nth 0 .sender, .nth 1 .ammConfig, .nth 2 .pool, .nth 3 .inputTokenAccount,
   .nth 4 .outputTokenAccount, .nth 5 .inputVault, .nth 6 .outputVault]

/-- The accounts of a new position; those of the pool and of the position stand where `pool` and
`personal` say. -/
def clmmPositionSlots (pool personal : Nat) : List Slot :=
  [.nth 0 .minter, .nth 1 .nftOwner, .nth 2 .positionNftMint, .nth 3 .positionNftAccount,
   .nth pool .pool, .nth personal .personalPosition]

/-- The accounts of a change of liquidity in a whirlpool. -/
def orcaLiquiditySlots : List Slot :=
  [.nth 0 .whirlpool, .nth 2 .positionAuthority, .nth 3 .position, .nth 4 .positionTokenAccount,
   .nth 5 .tokenOwnerAccountA, .nth 6 .tokenOwnerAccountB, .nth 7 .tokenVaultA,
   .nth 8 .tokenVaultB]

/-- The accounts of a new whirlpool that both versions name, those behind the mints from `base`. -/
def orcaPoolSlots (base : Nat) : List Slot :=
  [.nth 0 .whirlpoolsConfig, .nth 1 .tokenMintA, .nth 2 .tokenMintB, .nth base .funder,
   .nth (base + 1) .whirlpool, .nth (base + 2) .tokenVaultA, .nth (base + 3) .tokenVaultB,
   .nth (base + 4) .feeTier]

/-- The meaning of the account positions of each instruction. -/
def slots : InstructionKind → List Slot
  | pumpFunCreate =>
    [.nth 0 .mint, .nth 1 .mintAuthority, .nth 2 .bondingCurve, .nth 3 .associatedBondingCurve,
     .nth 4 .global, .nth 6 .metadataAccount, .nth 7 .user]
  | pumpFunBuy => pumpFunTradeSlots 9
  | pumpFunSell => pumpFunTradeSlots 8
  | pumpFunMigrate =>
    [.nth 0 .global, .nth 1 .withdrawAuthority, .nth 2 .mint, .nth 3 .bondingCurve,
     .nth 4 .associatedBondingCurve, .nth 5 .user, .nth 9 .pool]
  | pumpSwapBuy | pumpSwapSell => pumpSwapTradeSlots
  | pumpSwapCreatePool =>
    [.nth 0 .pool, .nth 1 .globalConfig, .nth 2 .creator, .nth 3 .baseMint, .nth 4 .quoteMint,
     .nth 5 .lpMint, .nth 6 .userBaseTokenAccount, .nth 7 .userQuoteTokenAccount,
     .nth 9 .poolBaseTokenAccount, .nth 10 .poolQuoteTokenAccount]
  | pumpSwapDeposit | pumpSwapWithdraw => pumpSwapLiquiditySlots
  | bonkBuyExactIn | bonkBuyExactOut | bonkSellExactIn | bonkSellExactOut => bonkTradeSlots
  | bonkInitialize =>
    [.nth 0 .payer, .nth 1 .creator, .nth 2 .config, .nth 3 .platformConfig, .nth 5 .poolState,
     .nth 6 .baseMint, .nth 7 .quoteMint, .nth 8 .baseVault, .nth 9 .quoteVault]
  | bonkMigrateToAmm =>
    [.nth 0 .payer, .nth 1 .baseMint, .nth 2 .quoteMint, .nth 4 .market, .nth 13 .ammPool,
     .nth 16 .ammLpMint, .nth 23 .poolState]
  | cpmmSwapBaseInput | cpmmSwapBaseOutput => cpmmSwapSlots
  | cpmmInitialize =>
    [.nth 0 .creator, .nth 1 .ammConfig, .nth 3 .pool, .nth 4 .token0Mint, .nth 5 .token1Mint,
     .nth 6 .lpMint, .nth 10 .token0Vault, .nth 11 .token1Vault]
  | cpmmDeposit | cpmmWithdraw => cpmmLiquiditySlots
  | clmmSwap | clmmSwapV2 => clmmSwapSlots
  | clmmCreatePool =>
    [.nth 0 .creator, .nth 1 .ammConfig, .nth 2 .pool, .nth 3 .tokenMint0, .nth 4 .tokenMint1,
     .nth 5 .tokenVault0, .nth 6 .tokenVault1]
  | clmmOpenPositionV2 => clmmPositionSlots 5 9
  | clmmOpenPositionToken22 => clmmPositionSlots 4 8
  | clmmClosePosition =>
    [.nth 0 .nftOwner, .nth 1 .positionNftMint, .nth 2 .positionNftAccount,
     .nth 3 .personalPosition]
  | clmmIncreaseLiquidity | clmmIncreaseLiquidityV2 =>
    [.nth 0 .nftOwner, .nth 1 .nftAccount, .nth 2 .pool, .nth 4 .personalPosition]
  | clmmDecreaseLiquidity | clmmDecreaseLiquidityV2 =>
    [.nth 0 .nftOwner, .nth 1 .nftAccount, .nth 2 .personalPosition, .nth 3 .pool]
  | orcaSwap =>
    [.nth 1 .tokenAuthority, .nth 2 .whirlpool, .nth 3 .tokenOwnerAccountA, .nth 4 .tokenVaultA,
     .nth 5 .tokenOwnerAccountB, .nth 6 .tokenVaultB]
  | orcaIncreaseLiquidity | orcaDecreaseLiquidity => orcaLiquiditySlots
  | orcaInitializePool => orcaPoolSlots 3
  | orcaInitializePoolV2 =>
    orcaPoolSlots 5 ++ [.nth 10 .tokenProgramA, .nth 11 .tokenProgramB]

/-- The event of an instruction of a kind, from what stands behind its tag. -/
def event? (kind : InstructionKind) (body : Bytes) (accounts : Accounts) (m : Metadata) :
    Option Event :=
  (kind.format.read body).map fun (variant, v) =>
    Event.ofValuation m variant (accounts.fill v kind.slots)

/-- The instruction of a program that some data calls. -/
def find? (p : Protocol) (data : Bytes) : Option InstructionKind :=
  all.find? fun kind => kind.protocol = p ∧ data.take 8 = kind.tag.bytes

end InstructionKind

end DexFeed
