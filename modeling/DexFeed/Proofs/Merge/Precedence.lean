import DexFeed.Proofs.Merge.Fields

/-!
# Which side a merged value comes from

The tables of a merge are written field by field. They follow the cut that the variants make: what
only an instruction states is the instruction's where it states it, and so are the limits of pump
pool trades, which logs repeat; all else is the log's where the log knows it. No field of a doing is
left out of its table, so a merge loses nothing that either side knew.
-/

namespace DexFeed

/-- The limits of pump pool trades, which logs repeat. -/
def Field.isLimit : Field → Bool
  | .maxQuoteAmountIn | .minQuoteAmountOut | .baseAmountLimit | .quoteAmountLimit => true
  | _ => false

/-! ## The tables -/

/-- Neither rule of precedence keeps the value of the log regardless. -/
theorem MergeRule.ite_ne_kept (requested : Prop) [Decidable requested] :
    (if requested then MergeRule.requested else .settled) ≠ .kept := by
  by_cases h : requested
  · rw [if_pos h]
    decide
  · rw [if_neg h]
    decide

namespace Variant

variable {v : Variant} {f : Field}

/-- Every field of a doing is in its table, on the side that the cut of its fields says. -/
theorem mergeRule_of_mem_fields (hv : v.isReport = false) (hf : f ∈ v.fields) :
    v.mergeRule f = if f ∈ v.requested ∨ f.isLimit = true then .requested else .settled := by
  have hall : ∀ f ∈ v.fields, v.mergeRule f =
      if f ∈ v.requested ∨ f.isLimit = true then .requested else .settled := by
    cases v <;> first | contradiction | decide
  exact hall f hf

/-- Every field of a variant that is no report has a rule of precedence. -/
theorem mergeRule_ne_kept (hv : v.isReport = false) (hf : f ∈ v.fields) :
    v.mergeRule f ≠ .kept := by
  rw [mergeRule_of_mem_fields hv hf]
  exact MergeRule.ite_ne_kept _

/-- A report of state is never changed. -/
theorem mergeRule_of_isReport (hv : v.isReport = true) (f : Field) : v.mergeRule f = .kept := by
  cases v <;> first | contradiction | rfl

end Variant

/-! ## One field -/

/-- A merged value beside the two values that it was made of. -/
structure Precedence {α : Type} (requested : Prop) (zero log ix merged : α) : Prop where
  /-- It is the value of one of the sides. -/
  origin : merged = log ∨ merged = ix
  /-- It is known where a side knows one. -/
  known : log ≠ zero ∨ ix ≠ zero → merged ≠ zero
  /-- Where both sides know a requested value, it is the instruction's. -/
  instruction_wins : requested → log ≠ zero → ix ≠ zero → merged = ix
  /-- Where both sides know any other value, it is the log's. -/
  log_wins : ¬requested → log ≠ zero → ix ≠ zero → merged = log

/-- The rule of a requested field prefers the instruction, that of a settled one the log. -/
theorem MergeRule.precedence {α : Type} [DecidableEq α] (requested : Prop) [Decidable requested]
    (zero log ix : α) : Precedence requested zero log ix
      ((if requested then MergeRule.requested else .settled).apply zero log ix) := by
  refine ⟨apply_eq_or _ zero log ix, apply_ne_zero (ite_ne_kept requested), fun h _ hix => ?_,
    fun h hlog _ => ?_⟩
  · rw [if_pos h]
    exact requested_of_ne hix
  · rw [if_neg h]
    exact settled_of_ne hlog

/-! ## Metadata -/

namespace Metadata

/-- An entry that is the log's, or the instruction's where it is unset in the log. -/
def Filled {α : Type} (unset log ix merged : α) : Prop :=
  (log ≠ unset → merged = log) ∧ (log = unset → merged = ix)

/-- How the metadata of a merged event come from those of the two sides. -/
structure Combines (log ix merged : Metadata) : Prop where
  /-- The outer instruction is the instruction's. -/
  outerIndex_eq : merged.outerIndex = ix.outerIndex
  /-- The position among the inner instructions is the instruction's. -/
  innerIndex_eq : merged.innerIndex = ix.innerIndex
  /-- The time of handling is the log's. -/
  handledAt_eq : merged.handledAt = log.handledAt
  /-- The signature is the log's first. -/
  signature_filled : Filled empty.signature log.signature ix.signature merged.signature
  /-- The slot is the log's first. -/
  slot_filled : Filled empty.slot log.slot ix.slot merged.slot
  /-- The block time is the log's first. -/
  blockTime_filled : Filled empty.blockTime log.blockTime ix.blockTime merged.blockTime
  /-- The block time in milliseconds is the log's first. -/
  blockTimeMs_filled : Filled empty.blockTimeMs log.blockTimeMs ix.blockTimeMs merged.blockTimeMs
  /-- The program is the log's first. -/
  programId_filled : Filled empty.programId log.programId ix.programId merged.programId
  /-- The position in the block is the log's first. -/
  transactionIndex_filled : Filled empty.transactionIndex log.transactionIndex
    ix.transactionIndex merged.transactionIndex
  /-- The time of receipt is the log's first. -/
  receivedAt_filled : Filled empty.receivedAt log.receivedAt ix.receivedAt merged.receivedAt

/-- The rule of a settled value fills in what the log leaves unset. -/
theorem filled_apply {α : Type} [DecidableEq α] (unset log ix : α) :
    Filled unset log ix (MergeRule.settled.apply unset log ix) :=
  ⟨fun h => if_neg h, fun h => if_pos h⟩

/-- Merged metadata are the metadata of the log with what is missing filled in. -/
theorem combines_merge (log ix : Metadata) : log.Combines ix (log.merge ix) := by
  rw [merge_eq]
  exact {
    outerIndex_eq := rfl
    innerIndex_eq := rfl
    handledAt_eq := rfl
    signature_filled := filled_apply _ _ _
    slot_filled := filled_apply _ _ _
    blockTime_filled := filled_apply _ _ _
    blockTimeMs_filled := filled_apply _ _ _
    programId_filled := filled_apply _ _ _
    transactionIndex_filled := filled_apply _ _ _
    receivedAt_filled := filled_apply _ _ _ }

end Metadata

/-! ## Events -/

namespace Event

variable {log ix : Event}

/-- A report keeps all its fields. -/
theorem get_merge_of_isReport (hv : log.variant = ix.variant)
    (hreport : log.variant.isReport = true) (f : Field) : (log.merge ix).get f = log.get f := by
  rw [get_merge hv, Variant.mergeRule_of_isReport hreport]
  rfl

/-- Every field of a merged event goes by precedence, limits with the requested fields. -/
theorem precedence_get_merge (hv : log.variant = ix.variant)
    (hreport : log.variant.isReport = false) {f : Field} (hf : f ∈ log.variant.fields) :
    Precedence (f ∈ log.variant.requested ∨ f.isLimit = true) f.type.zero (log.get f) (ix.get f)
      ((log.merge ix).get f) := by
  rw [get_merge hv, Variant.mergeRule_of_mem_fields hreport hf]
  exact MergeRule.precedence _ _ _ _

/-- Where the instruction knows nothing, the log's value stays. -/
theorem get_merge_of_zero_right {f : Field} (h : ix.get f = f.type.zero) :
    (log.merge ix).get f = log.get f := by
  by_cases hv : log.variant = ix.variant
  · rw [get_merge hv, h, MergeRule.apply_zero_right]
  · rw [merge_of_ne hv]

/-- Where the log of a doing knows nothing, the instruction's value is taken over. -/
theorem get_merge_of_zero_left (hv : log.variant = ix.variant)
    (hreport : log.variant.isReport = false) {f : Field} (hf : f ∈ log.variant.fields)
    (h : log.get f = f.type.zero) : (log.merge ix).get f = ix.get f := by
  rw [get_merge hv, h, MergeRule.apply_zero_left (Variant.mergeRule_ne_kept hreport hf)]

/-- Events of different variants do not merge and the log stays as it is. Two events of one variant
give an event of that variant: its place is the instruction's, its time of handling the log's, and
all other metadata are the log's where set there. Where the variant describes a doing, each field
has the value of a side and a known one if either side knows one; two known values make way for the
instruction's in its own fields and the limits of pump pool trades, and for the log's everywhere
else. A report of state keeps the fields of the log. -/
theorem merge_by_precedence (log ix : Event) :
    (log.variant ≠ ix.variant → log.merge ix = log) ∧
    (log.variant = ix.variant →
      (log.merge ix).variant = log.variant ∧
      log.metadata.Combines ix.metadata (log.merge ix).metadata ∧
      (log.variant.isReport = false → ∀ f ∈ log.variant.fields,
        Precedence (f ∈ log.variant.requested ∨ f.isLimit = true) f.type.zero (log.get f)
          (ix.get f) ((log.merge ix).get f)) ∧
      (log.variant.isReport = true → ∀ f, (log.merge ix).get f = log.get f)) := by
  refine ⟨merge_of_ne, fun hv => ⟨variant_merge log ix, ?_, ?_, ?_⟩⟩
  · rw [metadata_merge hv]
    exact Metadata.combines_merge log.metadata ix.metadata
  · intro hreport f hf
    exact precedence_get_merge hv hreport hf
  · intro hreport f
    exact get_merge_of_isReport hv hreport f

/-- A purchase from a pump pool as its log may state it. -/
def loggedPurchase : Event :=
  ofValuation { Metadata.empty with slot := 7, handledAt := 3 } .pumpSwapBuy
    ((Valuation.zero.set .maxQuoteAmountIn (5 : UInt64)).set .quoteAmountIn (4 : UInt64))

/-- The same purchase as its instruction may state it, but for a settled amount that differs. -/
def requestedPurchase : Event :=
  ofValuation { Metadata.empty with slot := 6, outerIndex := 2, receivedAt := 8 } .pumpSwapBuy
    ((Valuation.zero.set .maxQuoteAmountIn (9 : UInt64)).set .quoteAmountIn (1 : UInt64))

/-- The limit is the instruction's and the amount paid the log's. -/
theorem merge_by_precedence_purchase :
    (loggedPurchase.merge requestedPurchase).get .maxQuoteAmountIn = (9 : UInt64) ∧
      (loggedPurchase.merge requestedPurchase).get .quoteAmountIn = (4 : UInt64) ∧
      (loggedPurchase.merge requestedPurchase).metadata.outerIndex = 2 ∧
      (loggedPurchase.merge requestedPurchase).metadata.slot = 7 ∧
      (loggedPurchase.merge requestedPurchase).metadata.receivedAt = 8 := by
  obtain ⟨-, same⟩ := merge_by_precedence loggedPurchase requestedPurchase
  obtain ⟨-, hmetadata, hfields, -⟩ := same rfl
  have hlimit := hfields rfl .maxQuoteAmountIn (by decide)
  have hpaid := hfields rfl .quoteAmountIn (by decide)
  refine ⟨?_, ?_, hmetadata.outerIndex_eq, ?_, ?_⟩
  · exact hlimit.instruction_wins (by decide) (by decide) (by decide)
  · exact hpaid.log_wins (by decide) (by decide) (by decide)
  · exact hmetadata.slot_filled.1 (by decide)
  · exact hmetadata.receivedAt_filled.2 rfl

end Event

end DexFeed
