import DexFeed.Event.Field
import DexFeed.Program

/-!
# Variants

An event says that one of 32 things happened. Each variant has an ordered list of fields, cut in
two: `settled` fields describe the outcome, which a log states, and `requested` fields are
arguments and accounts that only an instruction states. Account snapshots, block metadata and
errors have no requested fields and never come from an instruction.
-/

namespace DexFeed

/-- What an event says has happened. -/
inductive Variant
  | pumpFunCreate | pumpFunTrade | pumpFunComplete | pumpFunMigrate | pumpSwapBuy | pumpSwapSell
  | pumpSwapCreatePool | pumpSwapDeposit | pumpSwapWithdraw | bonkTrade | bonkPoolCreate
  | bonkMigrateAmm | raydiumCpmmSwap | raydiumCpmmDeposit | raydiumCpmmWithdraw
  | raydiumCpmmInitialize | raydiumClmmSwap | raydiumClmmCreatePool | raydiumClmmOpenPosition
  | raydiumClmmClosePosition | raydiumClmmIncreaseLiquidity | raydiumClmmDecreaseLiquidity
  | orcaSwap | orcaLiquidityIncreased | orcaLiquidityDecreased | orcaPoolInitialized
  | pumpFunBondingCurveAccount | pumpFunGlobalAccount | pumpSwapPoolAccount
  | raydiumCpmmPoolStateAccount | blockMeta | error
deriving DecidableEq, Repr

namespace Variant

/-- Every variant, in the order in which they are published. -/
def all : List Variant :=
  [.pumpFunCreate, .pumpFunTrade, .pumpFunComplete, .pumpFunMigrate, .pumpSwapBuy, .pumpSwapSell,
   .pumpSwapCreatePool, .pumpSwapDeposit, .pumpSwapWithdraw, .bonkTrade, .bonkPoolCreate,
   .bonkMigrateAmm, .raydiumCpmmSwap, .raydiumCpmmDeposit, .raydiumCpmmWithdraw,
   .raydiumCpmmInitialize, .raydiumClmmSwap, .raydiumClmmCreatePool, .raydiumClmmOpenPosition,
   .raydiumClmmClosePosition, .raydiumClmmIncreaseLiquidity, .raydiumClmmDecreaseLiquidity,
   .orcaSwap, .orcaLiquidityIncreased, .orcaLiquidityDecreased, .orcaPoolInitialized,
   .pumpFunBondingCurveAccount, .pumpFunGlobalAccount, .pumpSwapPoolAccount,
   .raydiumCpmmPoolStateAccount, .blockMeta, .error]

/-- The published name of a variant. -/
def name : Variant → String
  | pumpFunCreate => "PumpFunCreate"
  | pumpFunTrade => "PumpFunTrade"
  | pumpFunComplete => "PumpFunComplete"
  | pumpFunMigrate => "PumpFunMigrate"
  | pumpSwapBuy => "PumpSwapBuy"
  | pumpSwapSell => "PumpSwapSell"
  | pumpSwapCreatePool => "PumpSwapCreatePool"
  | pumpSwapDeposit => "PumpSwapDeposit"
  | pumpSwapWithdraw => "PumpSwapWithdraw"
  | bonkTrade => "BonkTrade"
  | bonkPoolCreate => "BonkPoolCreate"
  | bonkMigrateAmm => "BonkMigrateAmm"
  | raydiumCpmmSwap => "RaydiumCpmmSwap"
  | raydiumCpmmDeposit => "RaydiumCpmmDeposit"
  | raydiumCpmmWithdraw => "RaydiumCpmmWithdraw"
  | raydiumCpmmInitialize => "RaydiumCpmmInitialize"
  | raydiumClmmSwap => "RaydiumClmmSwap"
  | raydiumClmmCreatePool => "RaydiumClmmCreatePool"
  | raydiumClmmOpenPosition => "RaydiumClmmOpenPosition"
  | raydiumClmmClosePosition => "RaydiumClmmClosePosition"
  | raydiumClmmIncreaseLiquidity => "RaydiumClmmIncreaseLiquidity"
  | raydiumClmmDecreaseLiquidity => "RaydiumClmmDecreaseLiquidity"
  | orcaSwap => "OrcaSwap"
  | orcaLiquidityIncreased => "OrcaLiquidityIncreased"
  | orcaLiquidityDecreased => "OrcaLiquidityDecreased"
  | orcaPoolInitialized => "OrcaPoolInitialized"
  | pumpFunBondingCurveAccount => "PumpFunBondingCurveAccount"
  | pumpFunGlobalAccount => "PumpFunGlobalAccount"
  | pumpSwapPoolAccount => "PumpSwapPoolAccount"
  | raydiumCpmmPoolStateAccount => "RaydiumCpmmPoolStateAccount"
  | blockMeta => "BlockMeta"
  | error => "Error"

/-- The program whose doings a variant describes; block metadata and errors have none. -/
def protocol? : Variant → Option Protocol
  | pumpFunCreate | pumpFunTrade | pumpFunComplete | pumpFunMigrate
  | pumpFunBondingCurveAccount | pumpFunGlobalAccount => some .pumpFun
  | pumpSwapBuy | pumpSwapSell | pumpSwapCreatePool | pumpSwapDeposit | pumpSwapWithdraw
  | pumpSwapPoolAccount => some .pumpSwap
  | bonkTrade | bonkPoolCreate | bonkMigrateAmm => some .bonk
  | raydiumCpmmSwap | raydiumCpmmDeposit | raydiumCpmmWithdraw | raydiumCpmmInitialize
  | raydiumCpmmPoolStateAccount => some .raydiumCpmm
  | raydiumClmmSwap | raydiumClmmCreatePool | raydiumClmmOpenPosition
  | raydiumClmmClosePosition | raydiumClmmIncreaseLiquidity
  | raydiumClmmDecreaseLiquidity => some .raydiumClmm
  | orcaSwap | orcaLiquidityIncreased | orcaLiquidityDecreased
  | orcaPoolInitialized => some .orcaWhirlpool
  | blockMeta | error => none

/-- The fields that describe an outcome, in published order. -/
def settled : Variant → List Field
  | pumpFunCreate =>
    [.name, .symbol, .uri, .mint, .bondingCurve, .user, .creator, .timestamp,
     .virtualTokenReserves, .virtualSolReserves, .realTokenReserves, .tokenTotalSupply]
  | pumpFunTrade =>
    [.mint, .solAmount, .tokenAmount, .isBuy, .user, .timestamp, .virtualSolReserves,
     .virtualTokenReserves, .realSolReserves, .realTokenReserves, .feeRecipient, .feeBasisPoints,
     .fee, .creator, .creatorFeeBasisPoints, .creatorFee, .trackVolume, .totalUnclaimedTokens,
     .totalClaimedTokens, .currentSolVolume, .lastUpdateTimestamp]
  | pumpFunComplete =>
    [.user, .mint, .bondingCurve, .timestamp]
  | pumpFunMigrate =>
    [.user, .mint, .mintAmount, .solAmount, .poolMigrationFee, .bondingCurve, .timestamp, .pool]
  | pumpSwapBuy =>
    [.timestamp, .baseAmountOut, .maxQuoteAmountIn, .userBaseTokenReserves,
     .userQuoteTokenReserves, .poolBaseTokenReserves, .poolQuoteTokenReserves, .quoteAmountIn,
     .lpFeeBasisPoints, .lpFee, .protocolFeeBasisPoints, .protocolFee, .quoteAmountInWithLpFee,
     .userQuoteAmountIn, .pool, .user, .userBaseTokenAccount, .userQuoteTokenAccount,
     .protocolFeeRecipient, .protocolFeeRecipientTokenAccount, .coinCreator,
     .coinCreatorFeeBasisPoints, .coinCreatorFee]
  | pumpSwapSell =>
    [.timestamp, .baseAmountIn, .minQuoteAmountOut, .userBaseTokenReserves,
     .userQuoteTokenReserves, .poolBaseTokenReserves, .poolQuoteTokenReserves, .quoteAmountOut,
     .lpFeeBasisPoints, .lpFee, .protocolFeeBasisPoints, .protocolFee,
     .quoteAmountOutWithoutLpFee, .userQuoteAmountOut, .pool, .user, .userBaseTokenAccount,
     .userQuoteTokenAccount, .protocolFeeRecipient, .protocolFeeRecipientTokenAccount,
     .coinCreator, .coinCreatorFeeBasisPoints, .coinCreatorFee]
  | pumpSwapCreatePool =>
    [.timestamp, .index, .creator, .baseMint, .quoteMint, .baseMintDecimals, .quoteMintDecimals,
     .baseAmountIn, .quoteAmountIn, .poolBaseAmount, .poolQuoteAmount, .minimumLiquidity,
     .initialLiquidity, .lpTokenAmountOut, .poolBump, .pool, .lpMint, .userBaseTokenAccount,
     .userQuoteTokenAccount]
  | pumpSwapDeposit =>
    [.timestamp, .lpTokenAmount, .baseAmountLimit, .quoteAmountLimit, .userBaseTokenReserves,
     .userQuoteTokenReserves, .poolBaseTokenReserves, .poolQuoteTokenReserves, .baseAmount,
     .quoteAmount, .lpMintSupply, .pool, .user, .userBaseTokenAccount, .userQuoteTokenAccount,
     .userPoolTokenAccount]
  | pumpSwapWithdraw =>
    [.timestamp, .lpTokenAmount, .baseAmountLimit, .quoteAmountLimit, .userBaseTokenReserves,
     .userQuoteTokenReserves, .poolBaseTokenReserves, .poolQuoteTokenReserves, .baseAmount,
     .quoteAmount, .lpMintSupply, .pool, .user, .userBaseTokenAccount, .userQuoteTokenAccount,
     .userPoolTokenAccount]
  | bonkTrade =>
    [.poolState, .totalBaseSell, .virtualBase, .virtualQuote, .realBaseBefore, .realQuoteBefore,
     .realBaseAfter, .realQuoteAfter, .amountIn, .amountOut, .protocolFee, .platformFee,
     .shareFee, .tradeDirection, .poolStatus]
  | bonkPoolCreate =>
    [.poolState, .creator, .config, .decimals, .name, .symbol, .uri, .curveType, .supply,
     .totalBaseSell, .totalQuoteFundRaising, .migrateType, .totalLockedAmount, .cliffPeriod,
     .unlockPeriod]
  | bonkMigrateAmm =>
    [.baseLotSize, .quoteLotSize, .marketVaultSignerNonce, .payer, .baseMint, .quoteMint, .market,
     .ammPool, .ammLpMint, .poolState]
  | raydiumCpmmSwap =>
    [.pool, .inputVaultBefore, .outputVaultBefore, .inputAmount, .outputAmount, .inputTransferFee,
     .outputTransferFee, .baseInput]
  | raydiumCpmmDeposit =>
    [.pool, .lpAmountBefore, .token0VaultBefore, .token1VaultBefore, .token0Amount, .token1Amount,
     .token0TransferFee, .token1TransferFee]
  | raydiumCpmmWithdraw =>
    [.pool, .lpAmountBefore, .token0VaultBefore, .token1VaultBefore, .token0Amount, .token1Amount,
     .token0TransferFee, .token1TransferFee]
  | raydiumCpmmInitialize =>
    [.initAmount0, .initAmount1, .openTime, .creator, .ammConfig, .pool, .token0Mint, .token1Mint,
     .lpMint, .token0Vault, .token1Vault]
  | raydiumClmmSwap =>
    [.pool, .sender, .tokenAccount0, .tokenAccount1, .amount0, .transferFee0, .amount1,
     .transferFee1, .zeroForOne, .sqrtPriceX64, .liquidity, .tick]
  | raydiumClmmCreatePool =>
    [.tokenMint0, .tokenMint1, .tickSpacing, .pool, .sqrtPriceX64, .tick, .tokenVault0,
     .tokenVault1]
  | raydiumClmmOpenPosition =>
    [.pool, .minter, .nftOwner, .tickLowerIndex, .tickUpperIndex, .liquidity, .depositAmount0,
     .depositAmount1, .depositAmount0TransferFee, .depositAmount1TransferFee]
  | raydiumClmmClosePosition =>
    [.nftOwner, .positionNftMint, .positionNftAccount, .personalPosition]
  | raydiumClmmIncreaseLiquidity =>
    [.positionNftMint, .liquidity, .amount0, .amount1, .amount0TransferFee, .amount1TransferFee]
  | raydiumClmmDecreaseLiquidity =>
    [.positionNftMint, .liquidity, .decreaseAmount0, .decreaseAmount1, .feeAmount0, .feeAmount1,
     .rewardAmounts, .transferFee0, .transferFee1]
  | orcaSwap =>
    [.whirlpool, .aToB, .preSqrtPrice, .postSqrtPrice, .inputAmount, .outputAmount,
     .inputTransferFee, .outputTransferFee, .lpFee, .protocolFee]
  | orcaLiquidityIncreased =>
    [.whirlpool, .position, .tickLowerIndex, .tickUpperIndex, .liquidity, .tokenAAmount,
     .tokenBAmount, .tokenATransferFee, .tokenBTransferFee]
  | orcaLiquidityDecreased =>
    [.whirlpool, .position, .tickLowerIndex, .tickUpperIndex, .liquidity, .tokenAAmount,
     .tokenBAmount, .tokenATransferFee, .tokenBTransferFee]
  | orcaPoolInitialized =>
    [.whirlpool, .whirlpoolsConfig, .tokenMintA, .tokenMintB, .tickSpacing, .tokenProgramA,
     .tokenProgramB, .decimalsA, .decimalsB, .initialSqrtPrice]
  | pumpFunBondingCurveAccount =>
    [.pubkey, .virtualTokenReserves, .virtualSolReserves, .realTokenReserves, .realSolReserves,
     .tokenTotalSupply, .complete, .creator]
  | pumpFunGlobalAccount =>
    [.pubkey, .initialized, .authority, .feeRecipient, .initialVirtualTokenReserves,
     .initialVirtualSolReserves, .initialRealTokenReserves, .tokenTotalSupply, .feeBasisPoints]
  | pumpSwapPoolAccount =>
    [.pubkey, .poolBump, .index, .creator, .baseMint, .quoteMint, .lpMint, .poolBaseTokenAccount,
     .poolQuoteTokenAccount, .lpSupply, .coinCreator]
  | raydiumCpmmPoolStateAccount =>
    [.pubkey, .ammConfig, .poolCreator, .token0Vault, .token1Vault, .lpMint, .token0Mint,
     .token1Mint, .token0Program, .token1Program, .observationKey, .authBump, .status,
     .lpMintDecimals, .mint0Decimals, .mint1Decimals, .lpSupply, .protocolFeesToken0,
     .protocolFeesToken1, .fundFeesToken0, .fundFeesToken1, .openTime]
  | blockMeta =>
    [.parentSlot, .blockHash, .executedTransactionCount]
  | error =>
    [.message]

/-- The fields that only an instruction states, in published order. -/
def requested : Variant → List Field
  | pumpFunCreate =>
    [.mintAuthority, .associatedBondingCurve, .global, .metadataAccount]
  | pumpFunTrade =>
    [.amount, .maxSolCost, .minSolOutput, .global, .bondingCurve, .associatedBondingCurve,
     .associatedUser, .creatorVault]
  | pumpFunMigrate =>
    [.global, .withdrawAuthority, .associatedBondingCurve]
  | pumpSwapBuy =>
    [.globalConfig, .baseMint, .quoteMint, .poolBaseTokenAccount, .poolQuoteTokenAccount]
  | pumpSwapSell =>
    [.globalConfig, .baseMint, .quoteMint, .poolBaseTokenAccount, .poolQuoteTokenAccount]
  | pumpSwapCreatePool =>
    [.globalConfig, .poolBaseTokenAccount, .poolQuoteTokenAccount]
  | pumpSwapDeposit =>
    [.globalConfig, .baseMint, .quoteMint, .lpMint, .poolBaseTokenAccount, .poolQuoteTokenAccount]
  | pumpSwapWithdraw =>
    [.globalConfig, .baseMint, .quoteMint, .lpMint, .poolBaseTokenAccount, .poolQuoteTokenAccount]
  | bonkTrade =>
    [.exactIn, .minimumAmountOut, .maximumAmountIn, .shareFeeRate, .payer, .globalConfig,
     .platformConfig, .userBaseToken, .userQuoteToken, .baseVault, .quoteVault, .baseTokenMint,
     .quoteTokenMint]
  | bonkPoolCreate =>
    [.payer, .platformConfig, .baseMint, .quoteMint, .baseVault, .quoteVault]
  | raydiumCpmmSwap =>
    [.minimumAmountOut, .maxAmountIn, .payer, .ammConfig, .inputTokenAccount, .outputTokenAccount,
     .inputVault, .outputVault, .inputTokenMint, .outputTokenMint, .observationState]
  | raydiumCpmmDeposit =>
    [.lpTokenAmount, .token0Limit, .token1Limit, .owner, .ownerLpToken, .token0Vault,
     .token1Vault, .vault0Mint, .vault1Mint, .lpMint]
  | raydiumCpmmWithdraw =>
    [.lpTokenAmount, .token0Limit, .token1Limit, .owner, .ownerLpToken, .token0Vault,
     .token1Vault, .vault0Mint, .vault1Mint, .lpMint]
  | raydiumClmmSwap =>
    [.amount, .otherAmountThreshold, .sqrtPriceLimitX64, .isBaseInput, .ammConfig,
     .inputTokenAccount, .outputTokenAccount, .inputVault, .outputVault]
  | raydiumClmmCreatePool =>
    [.openTime, .creator, .ammConfig]
  | raydiumClmmOpenPosition =>
    [.amount0Max, .amount1Max, .withMetadata, .positionNftMint, .positionNftAccount,
     .personalPosition]
  | raydiumClmmIncreaseLiquidity =>
    [.amount0Max, .amount1Max, .pool, .nftOwner, .nftAccount, .personalPosition]
  | raydiumClmmDecreaseLiquidity =>
    [.amount0Min, .amount1Min, .pool, .nftOwner, .nftAccount, .personalPosition]
  | orcaSwap =>
    [.amount, .otherAmountThreshold, .sqrtPriceLimit, .amountSpecifiedIsInput, .tokenAuthority,
     .tokenOwnerAccountA, .tokenVaultA, .tokenOwnerAccountB, .tokenVaultB]
  | orcaLiquidityIncreased =>
    [.tokenLimitA, .tokenLimitB, .positionAuthority, .positionTokenAccount, .tokenOwnerAccountA,
     .tokenOwnerAccountB, .tokenVaultA, .tokenVaultB]
  | orcaLiquidityDecreased =>
    [.tokenLimitA, .tokenLimitB, .positionAuthority, .positionTokenAccount, .tokenOwnerAccountA,
     .tokenOwnerAccountB, .tokenVaultA, .tokenVaultB]
  | orcaPoolInitialized =>
    [.funder, .tokenVaultA, .tokenVaultB, .feeTier]
  | _ => []

/-- All fields of a variant, in published order. -/
def fields (v : Variant) : List Field :=
  v.settled ++ v.requested

/-- Whether a variant reports the state of something rather than a doing of a program. -/
def isReport : Variant → Bool
  | pumpFunBondingCurveAccount | pumpFunGlobalAccount | pumpSwapPoolAccount
  | raydiumCpmmPoolStateAccount | blockMeta | error => true
  | _ => false

/-- No variant is missing from the list. -/
theorem mem_all (v : Variant) : v ∈ all := by
  cases v <;> decide

/-- No variant has a field twice. -/
theorem fields_nodup (v : Variant) : v.fields.Nodup := by
  cases v <;> decide

end Variant

end DexFeed
