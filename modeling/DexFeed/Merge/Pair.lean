import DexFeed.Event.Basic
import DexFeed.Merge.Table

/-!
# Merging two events

An instruction says what was asked for and a log says what came of it. Where both describe the same
doing, `merge` combines them field by field. A field that the log knows keeps the log's value,
unless the field is one that an instruction states better: its arguments and accounts, and the
limits of pump pool trades. Zero means "not known" on either side. The place in the transaction is
always the instruction's. Events of different variants are not combined, and reports of state keep
their fields.
-/

namespace DexFeed

/-- Which side's value a merged field takes when both sides know one. -/
inductive MergeRule
  /-- The log's. -/
  | settled
  /-- The instruction's. -/
  | requested
  /-- The log's, even where the log does not know one. -/
  | kept
deriving DecidableEq, Repr

namespace MergeRule

/-- The value of a merged field. -/
def apply {α : Type} [DecidableEq α] (rule : MergeRule) (zero log ix : α) : α :=
  match rule with
  | settled => if log = zero then ix else log
  | requested => if ix = zero then log else ix
  | kept => log

end MergeRule

/-- How a field of a variant is merged. -/
def Variant.mergeRule (v : Variant) (f : Field) : MergeRule :=
  if f ∈ v.mergeTable.instructionFirst then .requested
  else if f ∈ v.mergeTable.logFirst then .settled
  else .kept

namespace Metadata

/-- The metadata of a merged event. -/
def merge (log ix : Metadata) : Metadata where
  signature := if log.signature = Fixed.zero 64 then ix.signature else log.signature
  slot := if log.slot = 0 then ix.slot else log.slot
  blockTime := log.blockTime.or ix.blockTime
  blockTimeMs := if log.blockTimeMs = 0 then ix.blockTimeMs else log.blockTimeMs
  programId := if log.programId = Key.zero then ix.programId else log.programId
  outerIndex := ix.outerIndex
  innerIndex := ix.innerIndex
  transactionIndex := log.transactionIndex.or ix.transactionIndex
  receivedAt := if log.receivedAt = 0 then ix.receivedAt else log.receivedAt
  handledAt := log.handledAt

end Metadata

namespace Event

/-- The event that a log event and an instruction event give together; the log event where their
variants differ. -/
def merge (log ix : Event) : Event :=
  if log.variant = ix.variant then
    ofValuation (log.metadata.merge ix.metadata) log.variant fun f =>
      (log.variant.mergeRule f).apply f.type.zero (log.get f) (ix.get f)
  else log

end Event

/-- The fields by which a doing is recognised on both sides; none where the two sides share no
identifier or never meet. -/
def Variant.identity? : Variant → Option (List Field)
  | .pumpFunTrade => some [.mint, .isBuy]
  | .pumpFunCreate | .pumpFunComplete | .pumpFunMigrate => some [.mint]
  | .pumpSwapBuy | .pumpSwapSell | .pumpSwapCreatePool | .pumpSwapDeposit | .pumpSwapWithdraw =>
    some [.pool]
  | .bonkTrade => some [.poolState, .tradeDirection]
  | .bonkPoolCreate | .bonkMigrateAmm => some [.poolState]
  | .raydiumCpmmSwap | .raydiumCpmmDeposit | .raydiumCpmmWithdraw | .raydiumCpmmInitialize =>
    some [.pool]
  | .raydiumClmmSwap | .raydiumClmmCreatePool => some [.pool]
  | .raydiumClmmOpenPosition => some [.pool, .nftOwner]
  | .raydiumClmmClosePosition => some [.positionNftMint]
  | .orcaSwap => some [.whirlpool, .aToB]
  | .orcaLiquidityIncreased | .orcaLiquidityDecreased => some [.whirlpool, .position]
  | .orcaPoolInitialized => some [.whirlpool]
  | _ => none

namespace Event

/-- Whether two events describe the same doing: same transaction, same variant, same identity. -/
def pairsWith (a b : Event) : Bool :=
  match a.variant.identity? with
  | some fs =>
    decide (a.variant = b.variant) && decide (a.metadata.signature = b.metadata.signature) &&
      fs.all fun f => decide (a.get f = b.get f)
  | none => false

end Event

end DexFeed
