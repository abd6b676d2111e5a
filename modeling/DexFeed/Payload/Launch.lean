import DexFeed.Payload.Form

/-!
# Launches

A launch of a token on a curve is described in the same way by the instruction that asks for it and
by the log that reports it: the mint's decimals and texts, the type of the curve with the amounts
that this type has, and the vesting terms. Types other than the three known ones are refused.
-/

namespace DexFeed.Launch

/-- The mint of a launch. -/
def mint : List Item :=
  Item.row [.decimals, .name, .symbol, .uri]

/-- The vesting terms of a launch. -/
def vesting : List Item :=
  Item.row [.totalLockedAmount, .cliffPeriod, .unlockPeriod]

/-- The amounts of a constant product curve, type 0. -/
def constantCurve : List Item :=
  .exactly .curveType (0 : UInt8) ::
    Item.row [.supply, .totalBaseSell, .totalQuoteFundRaising, .migrateType]

/-- The amounts of a fixed price curve, type 1, or of a linear one, type 2. -/
def simpleCurve (type : UInt8) : List Item :=
  .exactly .curveType type :: Item.row [.supply, .totalQuoteFundRaising, .migrateType]

/-- The description of a launch behind some other items, one form for each type of curve. -/
def format (before : List Item) : Format :=
  [constantCurve, simpleCurve 1, simpleCurve 2].map fun curve =>
    ⟨.bonkPoolCreate, before ++ mint ++ curve ++ vesting, []⟩

end DexFeed.Launch
