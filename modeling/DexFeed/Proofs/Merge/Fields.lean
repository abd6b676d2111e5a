import DexFeed.Merge.Pair

/-!
# A merge field by field

A merged event is known by its variant, its metadata and its fields. Each field is the two sides'
values under the rule of the field, and each entry of the metadata that both sides state is merged
as a settled field is. The laws of the rules are therefore laws of events.
-/

namespace DexFeed

namespace MergeRule

variable {α : Type} [DecidableEq α] {rule : MergeRule} {zero log ix : α}

/-! ## One value -/

/-- A settled value that the log states is the log's. -/
theorem settled_of_ne (h : log ≠ zero) : settled.apply zero log ix = log :=
  if_neg h

/-- A requested value that the instruction states is the instruction's. -/
theorem requested_of_ne (h : ix ≠ zero) : requested.apply zero log ix = ix :=
  if_neg h

/-- A merged value is the value of a side. -/
theorem apply_eq_or (rule : MergeRule) (zero log ix : α) :
    rule.apply zero log ix = log ∨ rule.apply zero log ix = ix := by
  cases rule with
  | settled =>
    by_cases h : log = zero
    · exact .inr (if_pos h)
    · exact .inl (if_neg h)
  | requested =>
    by_cases h : ix = zero
    · exact .inl (if_pos h)
    · exact .inr (if_neg h)
  | kept => exact .inl rfl

/-- No rule changes what both sides agree on. -/
@[simp] theorem apply_self (rule : MergeRule) (zero x : α) : rule.apply zero x x = x :=
  (apply_eq_or rule zero x x).elim id id

/-- An instruction that knows nothing changes nothing. -/
theorem apply_zero_right (rule : MergeRule) (zero log : α) : rule.apply zero log zero = log := by
  cases rule with
  | settled =>
    by_cases h : log = zero
    · exact (if_pos h).trans h.symm
    · exact if_neg h
  | requested => exact if_pos rfl
  | kept => rfl

/-- A log that knows nothing takes over what the instruction says, unless the field is kept. -/
theorem apply_zero_left (h : rule ≠ kept) (ix : α) : rule.apply zero zero ix = ix := by
  cases rule with
  | settled => exact if_pos rfl
  | requested =>
    by_cases hix : ix = zero
    · exact (if_pos hix).trans hix.symm
    · exact if_neg hix
  | kept => contradiction

/-- A merge loses no value. -/
theorem apply_ne_zero (h : rule ≠ kept) (hknown : log ≠ zero ∨ ix ≠ zero) :
    rule.apply zero log ix ≠ zero := by
  by_cases hlog : log = zero
  · rw [hlog, apply_zero_left h]
    exact hknown.resolve_left (absurd hlog)
  · by_cases hix : ix = zero
    · rwa [hix, apply_zero_right]
    · rcases apply_eq_or rule zero log ix with heq | heq
      · rwa [heq]
      · rwa [heq]

/-- The first known value, the last known value and the first value do not depend on the order in
which three values are combined. -/
theorem apply_assoc (rule : MergeRule) (zero a b c : α) :
    rule.apply zero (rule.apply zero a b) c = rule.apply zero a (rule.apply zero b c) := by
  cases rule with
  | settled =>
    by_cases ha : a = zero
    · subst ha
      rw [apply_zero_left (by decide), apply_zero_left (by decide)]
    · rw [settled_of_ne ha, settled_of_ne ha, settled_of_ne ha]
  | requested =>
    by_cases hc : c = zero
    · subst hc
      rw [apply_zero_right, apply_zero_right]
    · rw [requested_of_ne hc, requested_of_ne hc, requested_of_ne hc]
  | kept => rfl

/-- A value that may be absent is merged as a settled field is. -/
theorem settled_none (log ix : Option α) : settled.apply none log ix = log.or ix := by
  cases log with
  | none => rfl
  | some x => rfl

end MergeRule

/-! ## Metadata -/

namespace Metadata

/-- All entries but the place and the time of handling are settled. -/
theorem merge_eq (log ix : Metadata) : log.merge ix =
    { signature := MergeRule.settled.apply (Fixed.zero 64) log.signature ix.signature
      slot := MergeRule.settled.apply 0 log.slot ix.slot
      blockTime := MergeRule.settled.apply none log.blockTime ix.blockTime
      blockTimeMs := MergeRule.settled.apply 0 log.blockTimeMs ix.blockTimeMs
      programId := MergeRule.settled.apply Key.zero log.programId ix.programId
      outerIndex := ix.outerIndex
      innerIndex := ix.innerIndex
      transactionIndex := MergeRule.settled.apply none log.transactionIndex ix.transactionIndex
      receivedAt := MergeRule.settled.apply 0 log.receivedAt ix.receivedAt
      handledAt := log.handledAt } := by
  rw [MergeRule.settled_none, MergeRule.settled_none]
  rfl

end Metadata

/-! ## Events -/

namespace Event

variable {log ix : Event}

/-- Events of different variants do not merge. -/
theorem merge_of_ne (h : log.variant ≠ ix.variant) : log.merge ix = log :=
  if_neg h

/-- A merged event has the variant of the log. -/
theorem variant_merge (log ix : Event) : (log.merge ix).variant = log.variant := by
  unfold merge
  split <;> rfl

/-- The metadata of events of one variant are merged. -/
theorem metadata_merge (h : log.variant = ix.variant) :
    (log.merge ix).metadata = log.metadata.merge ix.metadata := by
  rw [merge, if_pos h]
  rfl

/-- Every field of a merged event is merged by its rule, a field that the variant lacks included. -/
theorem get_merge (h : log.variant = ix.variant) (f : Field) :
    (log.merge ix).get f =
      (log.variant.mergeRule f).apply f.type.zero (log.get f) (ix.get f) := by
  rw [merge, if_pos h, get_ofValuation]
  by_cases hf : f ∈ log.variant.fields
  · rw [if_pos hf]
  · have hix : f ∉ ix.variant.fields := h ▸ hf
    rw [if_neg hf, get_of_not_mem hf, get_of_not_mem hix, MergeRule.apply_self]

end Event

end DexFeed
