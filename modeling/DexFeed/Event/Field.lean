import DexFeed.Wire.Type

/-!
# Fields

Every value that an event may carry has a field, and a field means one thing in all events that
have it: one name and one wire type. Which fields an event has is a matter of its variant. `label`
is the name under which a field is published and `type` its wire type.
-/

namespace DexFeed

/-- The fields of all events. -/
inductive Field
  | name | symbol | uri | mint | bondingCurve | user | creator | timestamp | virtualTokenReserves
  | virtualSolReserves | realTokenReserves | tokenTotalSupply | mintAuthority
  | associatedBondingCurve | global | metadataAccount | solAmount | tokenAmount | isBuy
  | realSolReserves | feeRecipient | feeBasisPoints | fee | creatorFeeBasisPoints | creatorFee
  | trackVolume | totalUnclaimedTokens | totalClaimedTokens | currentSolVolume
  | lastUpdateTimestamp | amount | maxSolCost | minSolOutput | associatedUser | creatorVault
  | mintAmount | poolMigrationFee | pool | withdrawAuthority | baseAmountOut | maxQuoteAmountIn
  | userBaseTokenReserves | userQuoteTokenReserves | poolBaseTokenReserves | poolQuoteTokenReserves
  | quoteAmountIn | lpFeeBasisPoints | lpFee | protocolFeeBasisPoints | protocolFee
  | quoteAmountInWithLpFee | userQuoteAmountIn | userBaseTokenAccount | userQuoteTokenAccount
  | protocolFeeRecipient | protocolFeeRecipientTokenAccount | coinCreator
  | coinCreatorFeeBasisPoints | coinCreatorFee | globalConfig | baseMint | quoteMint
  | poolBaseTokenAccount | poolQuoteTokenAccount | baseAmountIn | minQuoteAmountOut
  | quoteAmountOut | quoteAmountOutWithoutLpFee | userQuoteAmountOut | index | baseMintDecimals
  | quoteMintDecimals | poolBaseAmount | poolQuoteAmount | minimumLiquidity | initialLiquidity
  | lpTokenAmountOut | poolBump | lpMint | lpTokenAmount | baseAmountLimit | quoteAmountLimit
  | baseAmount | quoteAmount | lpMintSupply | userPoolTokenAccount | poolState | totalBaseSell
  | virtualBase | virtualQuote | realBaseBefore | realQuoteBefore | realBaseAfter | realQuoteAfter
  | amountIn | amountOut | platformFee | shareFee | tradeDirection | poolStatus | exactIn
  | minimumAmountOut | maximumAmountIn | shareFeeRate | payer | platformConfig | userBaseToken
  | userQuoteToken | baseVault | quoteVault | baseTokenMint | quoteTokenMint | config | decimals
  | curveType | supply | totalQuoteFundRaising | migrateType | totalLockedAmount | cliffPeriod
  | unlockPeriod | baseLotSize | quoteLotSize | marketVaultSignerNonce | market | ammPool
  | ammLpMint | inputVaultBefore | outputVaultBefore | inputAmount | outputAmount
  | inputTransferFee | outputTransferFee | baseInput | maxAmountIn | ammConfig | inputTokenAccount
  | outputTokenAccount | inputVault | outputVault | inputTokenMint | outputTokenMint
  | observationState | lpAmountBefore | token0VaultBefore | token1VaultBefore | token0Amount
  | token1Amount | token0TransferFee | token1TransferFee | token0Limit | token1Limit | owner
  | ownerLpToken | token0Vault | token1Vault | vault0Mint | vault1Mint | initAmount0 | initAmount1
  | openTime | token0Mint | token1Mint | sender | tokenAccount0 | tokenAccount1 | amount0
  | transferFee0 | amount1 | transferFee1 | zeroForOne | sqrtPriceX64 | liquidity | tick
  | otherAmountThreshold | sqrtPriceLimitX64 | isBaseInput | tokenMint0 | tokenMint1 | tickSpacing
  | tokenVault0 | tokenVault1 | minter | nftOwner | tickLowerIndex | tickUpperIndex
  | depositAmount0 | depositAmount1 | depositAmount0TransferFee | depositAmount1TransferFee
  | amount0Max | amount1Max | withMetadata | positionNftMint | positionNftAccount
  | personalPosition | amount0TransferFee | amount1TransferFee | nftAccount | decreaseAmount0
  | decreaseAmount1 | feeAmount0 | feeAmount1 | rewardAmounts | amount0Min | amount1Min | whirlpool
  | aToB | preSqrtPrice | postSqrtPrice | sqrtPriceLimit | amountSpecifiedIsInput | tokenAuthority
  | tokenOwnerAccountA | tokenVaultA | tokenOwnerAccountB | tokenVaultB | position | tokenAAmount
  | tokenBAmount | tokenATransferFee | tokenBTransferFee | tokenLimitA | tokenLimitB
  | positionAuthority | positionTokenAccount | whirlpoolsConfig | tokenMintA | tokenMintB
  | tokenProgramA | tokenProgramB | decimalsA | decimalsB | initialSqrtPrice | funder | feeTier
  | pubkey | complete | initialized | authority | initialVirtualTokenReserves
  | initialVirtualSolReserves | initialRealTokenReserves | lpSupply | poolCreator | token0Program
  | token1Program | observationKey | authBump | status | lpMintDecimals | mint0Decimals
  | mint1Decimals | protocolFeesToken0 | protocolFeesToken1 | fundFeesToken0 | fundFeesToken1
  | parentSlot | blockHash | executedTransactionCount | message
deriving DecidableEq, Repr

namespace Field

/-- The published name of a field. -/
def label : Field → String
  | name => "name"
  | symbol => "symbol"
  | uri => "uri"
  | mint => "mint"
  | bondingCurve => "bonding_curve"
  | user => "user"
  | creator => "creator"
  | timestamp => "timestamp"
  | virtualTokenReserves => "virtual_token_reserves"
  | virtualSolReserves => "virtual_sol_reserves"
  | realTokenReserves => "real_token_reserves"
  | tokenTotalSupply => "token_total_supply"
  | mintAuthority => "mint_authority"
  | associatedBondingCurve => "associated_bonding_curve"
  | global => "global"
  | metadataAccount => "metadata_account"
  | solAmount => "sol_amount"
  | tokenAmount => "token_amount"
  | isBuy => "is_buy"
  | realSolReserves => "real_sol_reserves"
  | feeRecipient => "fee_recipient"
  | feeBasisPoints => "fee_basis_points"
  | fee => "fee"
  | creatorFeeBasisPoints => "creator_fee_basis_points"
  | creatorFee => "creator_fee"
  | trackVolume => "track_volume"
  | totalUnclaimedTokens => "total_unclaimed_tokens"
  | totalClaimedTokens => "total_claimed_tokens"
  | currentSolVolume => "current_sol_volume"
  | lastUpdateTimestamp => "last_update_timestamp"
  | amount => "amount"
  | maxSolCost => "max_sol_cost"
  | minSolOutput => "min_sol_output"
  | associatedUser => "associated_user"
  | creatorVault => "creator_vault"
  | mintAmount => "mint_amount"
  | poolMigrationFee => "pool_migration_fee"
  | pool => "pool"
  | withdrawAuthority => "withdraw_authority"
  | baseAmountOut => "base_amount_out"
  | maxQuoteAmountIn => "max_quote_amount_in"
  | userBaseTokenReserves => "user_base_token_reserves"
  | userQuoteTokenReserves => "user_quote_token_reserves"
  | poolBaseTokenReserves => "pool_base_token_reserves"
  | poolQuoteTokenReserves => "pool_quote_token_reserves"
  | quoteAmountIn => "quote_amount_in"
  | lpFeeBasisPoints => "lp_fee_basis_points"
  | lpFee => "lp_fee"
  | protocolFeeBasisPoints => "protocol_fee_basis_points"
  | protocolFee => "protocol_fee"
  | quoteAmountInWithLpFee => "quote_amount_in_with_lp_fee"
  | userQuoteAmountIn => "user_quote_amount_in"
  | userBaseTokenAccount => "user_base_token_account"
  | userQuoteTokenAccount => "user_quote_token_account"
  | protocolFeeRecipient => "protocol_fee_recipient"
  | protocolFeeRecipientTokenAccount => "protocol_fee_recipient_token_account"
  | coinCreator => "coin_creator"
  | coinCreatorFeeBasisPoints => "coin_creator_fee_basis_points"
  | coinCreatorFee => "coin_creator_fee"
  | globalConfig => "global_config"
  | baseMint => "base_mint"
  | quoteMint => "quote_mint"
  | poolBaseTokenAccount => "pool_base_token_account"
  | poolQuoteTokenAccount => "pool_quote_token_account"
  | baseAmountIn => "base_amount_in"
  | minQuoteAmountOut => "min_quote_amount_out"
  | quoteAmountOut => "quote_amount_out"
  | quoteAmountOutWithoutLpFee => "quote_amount_out_without_lp_fee"
  | userQuoteAmountOut => "user_quote_amount_out"
  | index => "index"
  | baseMintDecimals => "base_mint_decimals"
  | quoteMintDecimals => "quote_mint_decimals"
  | poolBaseAmount => "pool_base_amount"
  | poolQuoteAmount => "pool_quote_amount"
  | minimumLiquidity => "minimum_liquidity"
  | initialLiquidity => "initial_liquidity"
  | lpTokenAmountOut => "lp_token_amount_out"
  | poolBump => "pool_bump"
  | lpMint => "lp_mint"
  | lpTokenAmount => "lp_token_amount"
  | baseAmountLimit => "base_amount_limit"
  | quoteAmountLimit => "quote_amount_limit"
  | baseAmount => "base_amount"
  | quoteAmount => "quote_amount"
  | lpMintSupply => "lp_mint_supply"
  | userPoolTokenAccount => "user_pool_token_account"
  | poolState => "pool_state"
  | totalBaseSell => "total_base_sell"
  | virtualBase => "virtual_base"
  | virtualQuote => "virtual_quote"
  | realBaseBefore => "real_base_before"
  | realQuoteBefore => "real_quote_before"
  | realBaseAfter => "real_base_after"
  | realQuoteAfter => "real_quote_after"
  | amountIn => "amount_in"
  | amountOut => "amount_out"
  | platformFee => "platform_fee"
  | shareFee => "share_fee"
  | tradeDirection => "trade_direction"
  | poolStatus => "pool_status"
  | exactIn => "exact_in"
  | minimumAmountOut => "minimum_amount_out"
  | maximumAmountIn => "maximum_amount_in"
  | shareFeeRate => "share_fee_rate"
  | payer => "payer"
  | platformConfig => "platform_config"
  | userBaseToken => "user_base_token"
  | userQuoteToken => "user_quote_token"
  | baseVault => "base_vault"
  | quoteVault => "quote_vault"
  | baseTokenMint => "base_token_mint"
  | quoteTokenMint => "quote_token_mint"
  | config => "config"
  | decimals => "decimals"
  | curveType => "curve_type"
  | supply => "supply"
  | totalQuoteFundRaising => "total_quote_fund_raising"
  | migrateType => "migrate_type"
  | totalLockedAmount => "total_locked_amount"
  | cliffPeriod => "cliff_period"
  | unlockPeriod => "unlock_period"
  | baseLotSize => "base_lot_size"
  | quoteLotSize => "quote_lot_size"
  | marketVaultSignerNonce => "market_vault_signer_nonce"
  | market => "market"
  | ammPool => "amm_pool"
  | ammLpMint => "amm_lp_mint"
  | inputVaultBefore => "input_vault_before"
  | outputVaultBefore => "output_vault_before"
  | inputAmount => "input_amount"
  | outputAmount => "output_amount"
  | inputTransferFee => "input_transfer_fee"
  | outputTransferFee => "output_transfer_fee"
  | baseInput => "base_input"
  | maxAmountIn => "max_amount_in"
  | ammConfig => "amm_config"
  | inputTokenAccount => "input_token_account"
  | outputTokenAccount => "output_token_account"
  | inputVault => "input_vault"
  | outputVault => "output_vault"
  | inputTokenMint => "input_token_mint"
  | outputTokenMint => "output_token_mint"
  | observationState => "observation_state"
  | lpAmountBefore => "lp_amount_before"
  | token0VaultBefore => "token_0_vault_before"
  | token1VaultBefore => "token_1_vault_before"
  | token0Amount => "token_0_amount"
  | token1Amount => "token_1_amount"
  | token0TransferFee => "token_0_transfer_fee"
  | token1TransferFee => "token_1_transfer_fee"
  | token0Limit => "token_0_limit"
  | token1Limit => "token_1_limit"
  | owner => "owner"
  | ownerLpToken => "owner_lp_token"
  | token0Vault => "token_0_vault"
  | token1Vault => "token_1_vault"
  | vault0Mint => "vault_0_mint"
  | vault1Mint => "vault_1_mint"
  | initAmount0 => "init_amount_0"
  | initAmount1 => "init_amount_1"
  | openTime => "open_time"
  | token0Mint => "token_0_mint"
  | token1Mint => "token_1_mint"
  | sender => "sender"
  | tokenAccount0 => "token_account_0"
  | tokenAccount1 => "token_account_1"
  | amount0 => "amount_0"
  | transferFee0 => "transfer_fee_0"
  | amount1 => "amount_1"
  | transferFee1 => "transfer_fee_1"
  | zeroForOne => "zero_for_one"
  | sqrtPriceX64 => "sqrt_price_x64"
  | liquidity => "liquidity"
  | tick => "tick"
  | otherAmountThreshold => "other_amount_threshold"
  | sqrtPriceLimitX64 => "sqrt_price_limit_x64"
  | isBaseInput => "is_base_input"
  | tokenMint0 => "token_mint_0"
  | tokenMint1 => "token_mint_1"
  | tickSpacing => "tick_spacing"
  | tokenVault0 => "token_vault_0"
  | tokenVault1 => "token_vault_1"
  | minter => "minter"
  | nftOwner => "nft_owner"
  | tickLowerIndex => "tick_lower_index"
  | tickUpperIndex => "tick_upper_index"
  | depositAmount0 => "deposit_amount_0"
  | depositAmount1 => "deposit_amount_1"
  | depositAmount0TransferFee => "deposit_amount_0_transfer_fee"
  | depositAmount1TransferFee => "deposit_amount_1_transfer_fee"
  | amount0Max => "amount_0_max"
  | amount1Max => "amount_1_max"
  | withMetadata => "with_metadata"
  | positionNftMint => "position_nft_mint"
  | positionNftAccount => "position_nft_account"
  | personalPosition => "personal_position"
  | amount0TransferFee => "amount_0_transfer_fee"
  | amount1TransferFee => "amount_1_transfer_fee"
  | nftAccount => "nft_account"
  | decreaseAmount0 => "decrease_amount_0"
  | decreaseAmount1 => "decrease_amount_1"
  | feeAmount0 => "fee_amount_0"
  | feeAmount1 => "fee_amount_1"
  | rewardAmounts => "reward_amounts"
  | amount0Min => "amount_0_min"
  | amount1Min => "amount_1_min"
  | whirlpool => "whirlpool"
  | aToB => "a_to_b"
  | preSqrtPrice => "pre_sqrt_price"
  | postSqrtPrice => "post_sqrt_price"
  | sqrtPriceLimit => "sqrt_price_limit"
  | amountSpecifiedIsInput => "amount_specified_is_input"
  | tokenAuthority => "token_authority"
  | tokenOwnerAccountA => "token_owner_account_a"
  | tokenVaultA => "token_vault_a"
  | tokenOwnerAccountB => "token_owner_account_b"
  | tokenVaultB => "token_vault_b"
  | position => "position"
  | tokenAAmount => "token_a_amount"
  | tokenBAmount => "token_b_amount"
  | tokenATransferFee => "token_a_transfer_fee"
  | tokenBTransferFee => "token_b_transfer_fee"
  | tokenLimitA => "token_limit_a"
  | tokenLimitB => "token_limit_b"
  | positionAuthority => "position_authority"
  | positionTokenAccount => "position_token_account"
  | whirlpoolsConfig => "whirlpools_config"
  | tokenMintA => "token_mint_a"
  | tokenMintB => "token_mint_b"
  | tokenProgramA => "token_program_a"
  | tokenProgramB => "token_program_b"
  | decimalsA => "decimals_a"
  | decimalsB => "decimals_b"
  | initialSqrtPrice => "initial_sqrt_price"
  | funder => "funder"
  | feeTier => "fee_tier"
  | pubkey => "pubkey"
  | complete => "complete"
  | initialized => "initialized"
  | authority => "authority"
  | initialVirtualTokenReserves => "initial_virtual_token_reserves"
  | initialVirtualSolReserves => "initial_virtual_sol_reserves"
  | initialRealTokenReserves => "initial_real_token_reserves"
  | lpSupply => "lp_supply"
  | poolCreator => "pool_creator"
  | token0Program => "token_0_program"
  | token1Program => "token_1_program"
  | observationKey => "observation_key"
  | authBump => "auth_bump"
  | status => "status"
  | lpMintDecimals => "lp_mint_decimals"
  | mint0Decimals => "mint_0_decimals"
  | mint1Decimals => "mint_1_decimals"
  | protocolFeesToken0 => "protocol_fees_token_0"
  | protocolFeesToken1 => "protocol_fees_token_1"
  | fundFeesToken0 => "fund_fees_token_0"
  | fundFeesToken1 => "fund_fees_token_1"
  | parentSlot => "parent_slot"
  | blockHash => "block_hash"
  | executedTransactionCount => "executed_transaction_count"
  | message => "message"

/-- The wire type of a field's values; most fields are keys. -/
@[reducible] def type : Field → WireType
  | name | symbol | uri | message => .text
  | isBuy | trackVolume | exactIn | baseInput | zeroForOne | isBaseInput | withMetadata | aToB
  | amountSpecifiedIsInput | complete | initialized => .flag
  | baseMintDecimals | quoteMintDecimals | poolBump | poolStatus | decimals | curveType
  | migrateType | marketVaultSignerNonce | decimalsA | decimalsB | authBump | status
  | lpMintDecimals | mint0Decimals | mint1Decimals => .u8
  | index | tickSpacing => .u16
  | tick | tickLowerIndex | tickUpperIndex => .i32
  | timestamp | lastUpdateTimestamp => .i64
  | sqrtPriceX64 | liquidity | sqrtPriceLimitX64 | preSqrtPrice | postSqrtPrice | sqrtPriceLimit
  | initialSqrtPrice => .u128
  | tradeDirection => .side
  | rewardAmounts => .triple
  | virtualTokenReserves | virtualSolReserves | realTokenReserves | tokenTotalSupply | solAmount
  | tokenAmount | realSolReserves | feeBasisPoints | fee | creatorFeeBasisPoints | creatorFee
  | totalUnclaimedTokens | totalClaimedTokens | currentSolVolume | amount | maxSolCost
  | minSolOutput | mintAmount | poolMigrationFee | baseAmountOut | maxQuoteAmountIn
  | userBaseTokenReserves | userQuoteTokenReserves | poolBaseTokenReserves | poolQuoteTokenReserves
  | quoteAmountIn | lpFeeBasisPoints | lpFee | protocolFeeBasisPoints | protocolFee
  | quoteAmountInWithLpFee | userQuoteAmountIn | coinCreatorFeeBasisPoints | coinCreatorFee
  | baseAmountIn | minQuoteAmountOut | quoteAmountOut | quoteAmountOutWithoutLpFee
  | userQuoteAmountOut | poolBaseAmount | poolQuoteAmount | minimumLiquidity | initialLiquidity
  | lpTokenAmountOut | lpTokenAmount | baseAmountLimit | quoteAmountLimit | baseAmount
  | quoteAmount | lpMintSupply | totalBaseSell | virtualBase | virtualQuote | realBaseBefore
  | realQuoteBefore | realBaseAfter | realQuoteAfter | amountIn | amountOut | platformFee
  | shareFee | minimumAmountOut | maximumAmountIn | shareFeeRate | supply | totalQuoteFundRaising
  | totalLockedAmount | cliffPeriod | unlockPeriod | baseLotSize | quoteLotSize | inputVaultBefore
  | outputVaultBefore | inputAmount | outputAmount | inputTransferFee | outputTransferFee
  | maxAmountIn | lpAmountBefore | token0VaultBefore | token1VaultBefore | token0Amount
  | token1Amount | token0TransferFee | token1TransferFee | token0Limit | token1Limit | initAmount0
  | initAmount1 | openTime | amount0 | transferFee0 | amount1 | transferFee1 | otherAmountThreshold
  | depositAmount0 | depositAmount1 | depositAmount0TransferFee | depositAmount1TransferFee
  | amount0Max | amount1Max | amount0TransferFee | amount1TransferFee | decreaseAmount0
  | decreaseAmount1 | feeAmount0 | feeAmount1 | amount0Min | amount1Min | tokenAAmount
  | tokenBAmount | tokenATransferFee | tokenBTransferFee | tokenLimitA | tokenLimitB
  | initialVirtualTokenReserves | initialVirtualSolReserves | initialRealTokenReserves | lpSupply
  | protocolFeesToken0 | protocolFeesToken1 | fundFeesToken0 | fundFeesToken1 | parentSlot
  | executedTransactionCount => .u64
  | _ => .key

end Field

end DexFeed
