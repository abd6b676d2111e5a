import DexFeed.Payload.Launch

/-!
# Log payloads

Programs report what they did in two ways: as a payload in a text log, an eight-byte tag and the
body, or as data of a call to themselves, in which the tag `selfCall` stands in front of the same
payload. `LogKind` lists the 22 payloads that are understood, with the program, the tag and the
format of the body of each. Data of sixteen bytes or more that begin with `selfCall` are only ever
looked up behind it.
-/

namespace DexFeed

/-- The log payloads that are understood. -/
inductive LogKind
  | pumpFunCreate | pumpFunTrade | pumpFunComplete | pumpFunMigrate | pumpSwapBuy | pumpSwapSell
  | pumpSwapCreatePool | pumpSwapDeposit | pumpSwapWithdraw | bonkTrade | bonkPoolCreate
  | cpmmSwap | cpmmLpChange | clmmSwap | clmmPoolCreated | clmmCreatePersonalPosition
  | clmmIncreaseLiquidity | clmmDecreaseLiquidity | orcaTraded | orcaLiquidityIncreased
  | orcaLiquidityDecreased | orcaPoolInitialized
deriving DecidableEq, Repr

namespace LogKind

/-- Every kind of log payload, protocol by protocol. -/
def all : List LogKind :=
  [.pumpFunCreate, .pumpFunTrade, .pumpFunComplete, .pumpFunMigrate, .pumpSwapBuy, .pumpSwapSell,
   .pumpSwapCreatePool, .pumpSwapDeposit, .pumpSwapWithdraw, .bonkTrade, .bonkPoolCreate,
   .cpmmSwap, .cpmmLpChange, .clmmSwap, .clmmPoolCreated, .clmmCreatePersonalPosition,
   .clmmIncreaseLiquidity, .clmmDecreaseLiquidity, .orcaTraded, .orcaLiquidityIncreased,
   .orcaLiquidityDecreased, .orcaPoolInitialized]

/-- The program that understands a kind. -/
def protocol : LogKind → Protocol
  | pumpFunCreate | pumpFunTrade | pumpFunComplete | pumpFunMigrate => .pumpFun
  | pumpSwapBuy | pumpSwapSell | pumpSwapCreatePool | pumpSwapDeposit | pumpSwapWithdraw
  => .pumpSwap
  | bonkTrade | bonkPoolCreate => .bonk
  | cpmmSwap | cpmmLpChange => .raydiumCpmm
  | clmmSwap | clmmPoolCreated | clmmCreatePersonalPosition | clmmIncreaseLiquidity
  | clmmDecreaseLiquidity => .raydiumClmm
  | orcaTraded | orcaLiquidityIncreased | orcaLiquidityDecreased | orcaPoolInitialized
  => .orcaWhirlpool

/-- The tag of a kind; a tag may recur among the programs. -/
def tag : LogKind → Tag
  | pumpFunCreate => ⟨[27, 114, 169, 77, 222, 235, 99, 118], rfl⟩
  | pumpFunTrade => ⟨[189, 219, 127, 211, 78, 230, 97, 238], rfl⟩
  | pumpFunComplete => ⟨[95, 114, 97, 156, 212, 46, 152, 8], rfl⟩
  | pumpFunMigrate => ⟨[189, 233, 93, 185, 92, 148, 234, 148], rfl⟩
  | pumpSwapBuy => ⟨[103, 244, 82, 31, 44, 245, 119, 119], rfl⟩
  | pumpSwapSell => ⟨[62, 47, 55, 10, 165, 3, 220, 42], rfl⟩
  | pumpSwapCreatePool => ⟨[177, 49, 12, 210, 160, 118, 167, 116], rfl⟩
  | pumpSwapDeposit => ⟨[120, 248, 61, 83, 31, 142, 107, 144], rfl⟩
  | pumpSwapWithdraw => ⟨[22, 9, 133, 26, 160, 44, 71, 192], rfl⟩
  | bonkTrade => ⟨[189, 219, 127, 211, 78, 230, 97, 238], rfl⟩
  | bonkPoolCreate => ⟨[151, 215, 226, 9, 118, 161, 115, 174], rfl⟩
  | cpmmSwap => ⟨[64, 198, 205, 232, 38, 8, 113, 226], rfl⟩
  | cpmmLpChange => ⟨[121, 163, 205, 201, 57, 218, 117, 60], rfl⟩
  | clmmSwap => ⟨[64, 198, 205, 232, 38, 8, 113, 226], rfl⟩
  | clmmPoolCreated => ⟨[25, 94, 75, 47, 112, 99, 53, 63], rfl⟩
  | clmmCreatePersonalPosition => ⟨[100, 30, 87, 249, 196, 223, 154, 206], rfl⟩
  | clmmIncreaseLiquidity => ⟨[49, 79, 105, 212, 32, 34, 30, 84], rfl⟩
  | clmmDecreaseLiquidity => ⟨[58, 222, 86, 58, 68, 50, 85, 56], rfl⟩
  | orcaTraded => ⟨[225, 202, 73, 175, 147, 43, 160, 150], rfl⟩
  | orcaLiquidityIncreased => ⟨[30, 7, 144, 181, 102, 254, 155, 161], rfl⟩
  | orcaLiquidityDecreased => ⟨[166, 1, 36, 71, 112, 202, 181, 171], rfl⟩
  | orcaPoolInitialized => ⟨[100, 118, 173, 87, 12, 198, 254, 229], rfl⟩

/-- What a trade in a pump pool names behind its amounts. -/
def pumpSwapTradeAccounts : List Field :=
  [.pool, .user, .userBaseTokenAccount, .userQuoteTokenAccount, .protocolFeeRecipient,
   .protocolFeeRecipientTokenAccount]

/-- The share of a coin's creator, which later versions state behind the creator. -/
def pumpSwapCreatorFee : List Addition :=
  Addition.behind .coinCreator [.coinCreatorFeeBasisPoints, .coinCreatorFee]

/-- A change of liquidity in a pump pool. -/
def pumpSwapLiquidity : List Field :=
  [.timestamp, .lpTokenAmount, .baseAmountLimit, .quoteAmountLimit, .userBaseTokenReserves,
   .userQuoteTokenReserves, .poolBaseTokenReserves, .poolQuoteTokenReserves, .baseAmount,
   .quoteAmount, .lpMintSupply, .pool, .user, .userBaseTokenAccount, .userQuoteTokenAccount,
   .userPoolTokenAccount]

/-- A change of liquidity in a constant product pool, before the byte that tells its direction. -/
def cpmmLiquidity : List Item :=
  Item.row [.pool, .lpAmountBefore, .token0VaultBefore, .token1VaultBefore, .token0Amount,
    .token1Amount, .token0TransferFee, .token1TransferFee]

/-- A change of liquidity in a whirlpool. -/
def orcaLiquidity : List Field :=
  [.whirlpool, .position, .tickLowerIndex, .tickUpperIndex, .liquidity, .tokenAAmount,
   .tokenBAmount, .tokenATransferFee, .tokenBTransferFee]

/-- The body behind the tag of each payload. -/
def format : LogKind → Format
  | pumpFunCreate =>
    Format.row .pumpFunCreate
      [.name, .symbol, .uri, .mint, .bondingCurve, .user, .creator, .timestamp,
       .virtualTokenReserves, .virtualSolReserves, .realTokenReserves, .tokenTotalSupply]
  | pumpFunTrade =>
    [⟨.pumpFunTrade,
      Item.row [.mint, .solAmount, .tokenAmount, .isBuy, .user, .timestamp, .virtualSolReserves,
        .virtualTokenReserves, .realSolReserves, .realTokenReserves, .feeRecipient,
        .feeBasisPoints, .fee, .creator, .creatorFeeBasisPoints, .creatorFee] ++
        [.copied .lastUpdateTimestamp .timestamp rfl],
      Addition.each [.trackVolume, .totalUnclaimedTokens, .totalClaimedTokens, .currentSolVolume,
        .lastUpdateTimestamp]⟩]
  | pumpFunComplete => Format.row .pumpFunComplete [.user, .mint, .bondingCurve, .timestamp]
  | pumpFunMigrate =>
    Format.row .pumpFunMigrate
      [.user, .mint, .mintAmount, .solAmount, .poolMigrationFee, .bondingCurve, .timestamp, .pool]
  | pumpSwapBuy =>
    Format.rowWithTail .pumpSwapBuy
      ([.timestamp, .baseAmountOut, .maxQuoteAmountIn, .userBaseTokenReserves,
        .userQuoteTokenReserves, .poolBaseTokenReserves, .poolQuoteTokenReserves, .quoteAmountIn,
        .lpFeeBasisPoints, .lpFee, .protocolFeeBasisPoints, .protocolFee,
        .quoteAmountInWithLpFee, .userQuoteAmountIn] ++ pumpSwapTradeAccounts)
      pumpSwapCreatorFee
  | pumpSwapSell =>
    Format.rowWithTail .pumpSwapSell
      ([.timestamp, .baseAmountIn, .minQuoteAmountOut, .userBaseTokenReserves,
        .userQuoteTokenReserves, .poolBaseTokenReserves, .poolQuoteTokenReserves, .quoteAmountOut,
        .lpFeeBasisPoints, .lpFee, .protocolFeeBasisPoints, .protocolFee,
        .quoteAmountOutWithoutLpFee, .userQuoteAmountOut] ++ pumpSwapTradeAccounts)
      pumpSwapCreatorFee
  | pumpSwapCreatePool =>
    Format.row .pumpSwapCreatePool
      [.timestamp, .index, .creator, .baseMint, .quoteMint, .baseMintDecimals, .quoteMintDecimals,
       .baseAmountIn, .quoteAmountIn, .poolBaseAmount, .poolQuoteAmount, .minimumLiquidity,
       .initialLiquidity, .lpTokenAmountOut, .poolBump, .pool, .lpMint, .userBaseTokenAccount,
       .userQuoteTokenAccount]
  | pumpSwapDeposit => Format.row .pumpSwapDeposit pumpSwapLiquidity
  | pumpSwapWithdraw => Format.row .pumpSwapWithdraw pumpSwapLiquidity
  | bonkTrade =>
    Format.row .bonkTrade
      [.poolState, .totalBaseSell, .virtualBase, .virtualQuote, .realBaseBefore, .realQuoteBefore,
       .realBaseAfter, .realQuoteAfter, .amountIn, .amountOut, .protocolFee, .platformFee,
       .shareFee, .tradeDirection, .poolStatus]
  | bonkPoolCreate => Launch.format (Item.row [.poolState, .creator, .config])
  | cpmmSwap =>
    Format.row .raydiumCpmmSwap
      [.pool, .inputVaultBefore, .outputVaultBefore, .inputAmount, .outputAmount,
       .inputTransferFee, .outputTransferFee, .baseInput]
  | cpmmLpChange =>
    [⟨.raydiumCpmmDeposit, cpmmLiquidity ++ [.byte 0], []⟩,
     ⟨.raydiumCpmmWithdraw, cpmmLiquidity ++ [.byte 1], []⟩]
  | clmmSwap =>
    Format.row .raydiumClmmSwap
      [.pool, .sender, .tokenAccount0, .tokenAccount1, .amount0, .transferFee0, .amount1,
       .transferFee1, .zeroForOne, .sqrtPriceX64, .liquidity, .tick]
  | clmmPoolCreated =>
    Format.row .raydiumClmmCreatePool
      [.tokenMint0, .tokenMint1, .tickSpacing, .pool, .sqrtPriceX64, .tick, .tokenVault0,
       .tokenVault1]
  | clmmCreatePersonalPosition =>
    Format.row .raydiumClmmOpenPosition
      [.pool, .minter, .nftOwner, .tickLowerIndex, .tickUpperIndex, .liquidity, .depositAmount0,
       .depositAmount1, .depositAmount0TransferFee, .depositAmount1TransferFee]
  | clmmIncreaseLiquidity =>
    Format.row .raydiumClmmIncreaseLiquidity
      [.positionNftMint, .liquidity, .amount0, .amount1, .amount0TransferFee, .amount1TransferFee]
  | clmmDecreaseLiquidity =>
    Format.row .raydiumClmmDecreaseLiquidity
      [.positionNftMint, .liquidity, .decreaseAmount0, .decreaseAmount1, .feeAmount0, .feeAmount1,
       .rewardAmounts, .transferFee0, .transferFee1]
  | orcaTraded =>
    Format.row .orcaSwap
      [.whirlpool, .aToB, .preSqrtPrice, .postSqrtPrice, .inputAmount, .outputAmount,
       .inputTransferFee, .outputTransferFee, .lpFee, .protocolFee]
  | orcaLiquidityIncreased => Format.row .orcaLiquidityIncreased orcaLiquidity
  | orcaLiquidityDecreased => Format.row .orcaLiquidityDecreased orcaLiquidity
  | orcaPoolInitialized =>
    Format.row .orcaPoolInitialized
      [.whirlpool, .whirlpoolsConfig, .tokenMintA, .tokenMintB, .tickSpacing, .tokenProgramA,
       .tokenProgramB, .decimalsA, .decimalsB, .initialSqrtPrice]

/-- The event of a log payload of a kind, from what stands behind its tag. -/
def event? (kind : LogKind) (body : Bytes) (m : Metadata) : Option Event :=
  (kind.format.read body).map fun (variant, v) => Event.ofValuation m variant v

/-- The tag of a call by which a program reports to itself. -/
def selfCall : Tag := ⟨[228, 69, 165, 46, 81, 203, 154, 29], rfl⟩

/-- Whether data are a program's report to itself, with room for a payload's tag. -/
def isSelfCall (data : Bytes) : Bool :=
  decide (16 ≤ data.length) && data.take 8 == selfCall.bytes

/-- How many bytes stand in front of the payload's own tag. -/
def lead (data : Bytes) : Nat :=
  if isSelfCall data then 8 else 0

/-- The payload of a program that some data begin with. -/
def find? (p : Protocol) (data : Bytes) : Option LogKind :=
  all.find? fun kind => kind.protocol = p ∧ (data.drop (lead data)).take 8 = kind.tag.bytes

/-- How many bytes stand in front of the body of data that `find?` knows. -/
def headerSize (data : Bytes) : Nat :=
  lead data + 8

end LogKind

end DexFeed
