import DexFeed.Event.Variant

/-!
# What a merge combines

For each variant a table lists the fields that two of its events combine, cut in two by the side
that is asked first. The log is asked first for outcomes, the instruction for arguments, accounts
and the limits of pump pool trades. Reports of state never come from an instruction, so their table
is empty.
-/

namespace DexFeed

/-- The fields that two events of a variant combine. -/
structure MergeTable where
  /-- The fields that take the instruction's value only where the log knows none. -/
  logFirst : List Field
  /-- The fields that take the log's value only where the instruction knows none. -/
  instructionFirst : List Field
deriving DecidableEq, Repr

namespace MergeTable

/-- A trade in a pump pool: the fields of both sides of trade and those of one side. -/
def pumpSwapTrade (amounts limits : List Field) : MergeTable where
  logFirst :=
    [.timestamp, .userBaseTokenReserves, .userQuoteTokenReserves, .poolBaseTokenReserves,
     .poolQuoteTokenReserves, .lpFeeBasisPoints, .lpFee, .protocolFeeBasisPoints, .protocolFee,
     .pool, .user, .userBaseTokenAccount, .userQuoteTokenAccount, .protocolFeeRecipient,
     .protocolFeeRecipientTokenAccount, .coinCreator, .coinCreatorFeeBasisPoints,
     .coinCreatorFee] ++ amounts
  instructionFirst :=
    [.globalConfig, .baseMint, .quoteMint, .poolBaseTokenAccount, .poolQuoteTokenAccount] ++ limits

/-- A change of liquidity in a pump pool. -/
def pumpSwapLiquidity : MergeTable where
  logFirst :=
    [.timestamp, .lpTokenAmount, .userBaseTokenReserves, .userQuoteTokenReserves,
     .poolBaseTokenReserves, .poolQuoteTokenReserves, .baseAmount, .quoteAmount, .lpMintSupply,
     .pool, .user, .userBaseTokenAccount, .userQuoteTokenAccount, .userPoolTokenAccount]
  instructionFirst :=
    [.baseAmountLimit, .quoteAmountLimit, .globalConfig, .baseMint, .quoteMint, .lpMint,
     .poolBaseTokenAccount, .poolQuoteTokenAccount]

/-- A change of liquidity in a constant product pool. -/
def cpmmLiquidity : MergeTable where
  logFirst :=
    [.pool, .lpAmountBefore, .token0VaultBefore, .token1VaultBefore, .token0Amount, .token1Amount,
     .token0TransferFee, .token1TransferFee]
  instructionFirst :=
    [.lpTokenAmount, .token0Limit, .token1Limit, .owner, .ownerLpToken, .token0Vault, .token1Vault,
     .vault0Mint, .vault1Mint, .lpMint]

/-- A change of liquidity in a whirlpool. -/
def orcaLiquidity : MergeTable where
  logFirst :=
    [.whirlpool, .position, .tickLowerIndex, .tickUpperIndex, .liquidity, .tokenAAmount,
     .tokenBAmount, .tokenATransferFee, .tokenBTransferFee]
  instructionFirst :=
    [.tokenLimitA, .tokenLimitB, .positionAuthority, .positionTokenAccount, .tokenOwnerAccountA,
     .tokenOwnerAccountB, .tokenVaultA, .tokenVaultB]

end MergeTable

/-- The fields that two events of each variant combine. -/
def Variant.mergeTable : Variant → MergeTable
  | pumpFunCreate => {
      logFirst :=
        [.name, .symbol, .uri, .mint, .bondingCurve, .user, .creator, .timestamp,
         .virtualTokenReserves, .virtualSolReserves, .realTokenReserves, .tokenTotalSupply]
      instructionFirst := [.mintAuthority, .associatedBondingCurve, .global, .metadataAccount] }
  | pumpFunTrade => {
      logFirst :=
        [.mint, .solAmount, .tokenAmount, .isBuy, .user, .timestamp, .virtualSolReserves,
         .virtualTokenReserves, .realSolReserves, .realTokenReserves, .feeRecipient,
         .feeBasisPoints, .fee, .creator, .creatorFeeBasisPoints, .creatorFee, .trackVolume,
         .totalUnclaimedTokens, .totalClaimedTokens, .currentSolVolume, .lastUpdateTimestamp]
      instructionFirst :=
        [.amount, .maxSolCost, .minSolOutput, .global, .bondingCurve, .associatedBondingCurve,
         .associatedUser, .creatorVault] }
  | pumpFunComplete => {
      logFirst := [.user, .mint, .bondingCurve, .timestamp]
      instructionFirst := [] }
  | pumpFunMigrate => {
      logFirst :=
        [.user, .mint, .mintAmount, .solAmount, .poolMigrationFee, .bondingCurve, .timestamp,
         .pool]
      instructionFirst := [.global, .withdrawAuthority, .associatedBondingCurve] }
  | pumpSwapBuy =>
    MergeTable.pumpSwapTrade
      [.baseAmountOut, .quoteAmountIn, .quoteAmountInWithLpFee, .userQuoteAmountIn]
      [.maxQuoteAmountIn]
  | pumpSwapSell =>
    MergeTable.pumpSwapTrade
      [.baseAmountIn, .quoteAmountOut, .quoteAmountOutWithoutLpFee, .userQuoteAmountOut]
      [.minQuoteAmountOut]
  | pumpSwapCreatePool => {
      logFirst :=
        [.timestamp, .index, .creator, .baseMint, .quoteMint, .baseMintDecimals,
         .quoteMintDecimals, .baseAmountIn, .quoteAmountIn, .poolBaseAmount, .poolQuoteAmount,
         .minimumLiquidity, .initialLiquidity, .lpTokenAmountOut, .poolBump, .pool, .lpMint,
         .userBaseTokenAccount, .userQuoteTokenAccount]
      instructionFirst := [.globalConfig, .poolBaseTokenAccount, .poolQuoteTokenAccount] }
  | pumpSwapDeposit | pumpSwapWithdraw => MergeTable.pumpSwapLiquidity
  | bonkTrade => {
      logFirst :=
        [.poolState, .totalBaseSell, .virtualBase, .virtualQuote, .realBaseBefore,
         .realQuoteBefore, .realBaseAfter, .realQuoteAfter, .amountIn, .amountOut, .protocolFee,
         .platformFee, .shareFee, .tradeDirection, .poolStatus]
      instructionFirst :=
        [.exactIn, .minimumAmountOut, .maximumAmountIn, .shareFeeRate, .payer, .globalConfig,
         .platformConfig, .userBaseToken, .userQuoteToken, .baseVault, .quoteVault,
         .baseTokenMint, .quoteTokenMint] }
  | bonkPoolCreate => {
      logFirst :=
        [.poolState, .creator, .config, .decimals, .name, .symbol, .uri, .curveType, .supply,
         .totalBaseSell, .totalQuoteFundRaising, .migrateType, .totalLockedAmount, .cliffPeriod,
         .unlockPeriod]
      instructionFirst :=
        [.payer, .platformConfig, .baseMint, .quoteMint, .baseVault, .quoteVault] }
  | bonkMigrateAmm => {
      logFirst :=
        [.baseLotSize, .quoteLotSize, .marketVaultSignerNonce, .payer, .baseMint, .quoteMint,
         .market, .ammPool, .ammLpMint, .poolState]
      instructionFirst := [] }
  | raydiumCpmmSwap => {
      logFirst :=
        [.pool, .inputVaultBefore, .outputVaultBefore, .inputAmount, .outputAmount,
         .inputTransferFee, .outputTransferFee, .baseInput]
      instructionFirst :=
        [.minimumAmountOut, .maxAmountIn, .payer, .ammConfig, .inputTokenAccount,
         .outputTokenAccount, .inputVault, .outputVault, .inputTokenMint, .outputTokenMint,
         .observationState] }
  | raydiumCpmmDeposit | raydiumCpmmWithdraw => MergeTable.cpmmLiquidity
  | raydiumCpmmInitialize => {
      logFirst :=
        [.initAmount0, .initAmount1, .openTime, .creator, .ammConfig, .pool, .token0Mint,
         .token1Mint, .lpMint, .token0Vault, .token1Vault]
      instructionFirst := [] }
  | raydiumClmmSwap => {
      logFirst :=
        [.pool, .sender, .tokenAccount0, .tokenAccount1, .amount0, .transferFee0, .amount1,
         .transferFee1, .zeroForOne, .sqrtPriceX64, .liquidity, .tick]
      instructionFirst :=
        [.amount, .otherAmountThreshold, .sqrtPriceLimitX64, .isBaseInput, .ammConfig,
         .inputTokenAccount, .outputTokenAccount, .inputVault, .outputVault] }
  | raydiumClmmCreatePool => {
      logFirst :=
        [.tokenMint0, .tokenMint1, .tickSpacing, .pool, .sqrtPriceX64, .tick, .tokenVault0,
         .tokenVault1]
      instructionFirst := [.openTime, .creator, .ammConfig] }
  | raydiumClmmOpenPosition => {
      logFirst :=
        [.pool, .minter, .nftOwner, .tickLowerIndex, .tickUpperIndex, .liquidity, .depositAmount0,
         .depositAmount1, .depositAmount0TransferFee, .depositAmount1TransferFee]
      instructionFirst :=
        [.amount0Max, .amount1Max, .withMetadata, .positionNftMint, .positionNftAccount,
         .personalPosition] }
  | raydiumClmmClosePosition => {
      logFirst := [.nftOwner, .positionNftMint, .positionNftAccount, .personalPosition]
      instructionFirst := [] }
  | raydiumClmmIncreaseLiquidity => {
      logFirst :=
        [.positionNftMint, .liquidity, .amount0, .amount1, .amount0TransferFee,
         .amount1TransferFee]
      instructionFirst :=
        [.amount0Max, .amount1Max, .pool, .nftOwner, .nftAccount, .personalPosition] }
  | raydiumClmmDecreaseLiquidity => {
      logFirst :=
        [.positionNftMint, .liquidity, .decreaseAmount0, .decreaseAmount1, .feeAmount0,
         .feeAmount1, .rewardAmounts, .transferFee0, .transferFee1]
      instructionFirst :=
        [.amount0Min, .amount1Min, .pool, .nftOwner, .nftAccount, .personalPosition] }
  | orcaSwap => {
      logFirst :=
        [.whirlpool, .aToB, .preSqrtPrice, .postSqrtPrice, .inputAmount, .outputAmount,
         .inputTransferFee, .outputTransferFee, .lpFee, .protocolFee]
      instructionFirst :=
        [.amount, .otherAmountThreshold, .sqrtPriceLimit, .amountSpecifiedIsInput,
         .tokenAuthority, .tokenOwnerAccountA, .tokenVaultA, .tokenOwnerAccountB, .tokenVaultB] }
  | orcaLiquidityIncreased | orcaLiquidityDecreased => MergeTable.orcaLiquidity
  | orcaPoolInitialized => {
      logFirst :=
        [.whirlpool, .whirlpoolsConfig, .tokenMintA, .tokenMintB, .tickSpacing, .tokenProgramA,
         .tokenProgramB, .decimalsA, .decimalsB, .initialSqrtPrice]
      instructionFirst := [.funder, .tokenVaultA, .tokenVaultB, .feeTier] }
  | pumpFunBondingCurveAccount | pumpFunGlobalAccount | pumpSwapPoolAccount
  | raydiumCpmmPoolStateAccount | blockMeta | error => { logFirst := [], instructionFirst := [] }

end DexFeed
