import DexFeed.Proofs.Merge.Fields

/-!
# Merging again

A merge can be repeated and regrouped. It takes the first known value, the last known value or
always the same side's value, field by field and entry by entry, and each of these operations is
idempotent and associative. So are the merges of the events of one variant, and merging the same
instruction into a log a second time changes nothing.
-/

namespace DexFeed

namespace Metadata

/-- Metadata merged with themselves do not change. -/
theorem merge_self (m : Metadata) : m.merge m = m := by
  rw [merge_eq]
  simp only [MergeRule.apply_self]

/-- Metadata may be merged in either order of brackets. -/
theorem merge_assoc (a b c : Metadata) : (a.merge b).merge c = a.merge (b.merge c) := by
  rw [merge_eq a b, merge_eq b c, merge_eq, merge_eq]
  simp only [MergeRule.apply_assoc]

end Metadata

namespace Event

variable {a b : Event}

/-- An event merged with itself does not change. -/
theorem merge_self (e : Event) : e.merge e = e := by
  refine ext_get ?_ (variant_merge e e) fun f => ?_
  · rw [metadata_merge rfl, Metadata.merge_self]
  · rw [get_merge rfl, MergeRule.apply_self]

/-- Two events of one variant may be merged before a third is merged into them or after. -/
theorem merge_assoc (h : a.variant = b.variant) (c : Event) :
    (a.merge b).merge c = a.merge (b.merge c) := by
  have hleft : (a.merge b).variant = a.variant := variant_merge a b
  have hright : a.variant = (b.merge c).variant := by rw [variant_merge, h]
  by_cases hc : b.variant = c.variant
  · have hac : (a.merge b).variant = c.variant := by rw [hleft, h, hc]
    refine ext_get ?_ ?_ fun f => ?_
    · rw [metadata_merge hac, metadata_merge h, metadata_merge hright, metadata_merge hc,
        Metadata.merge_assoc]
    · rw [variant_merge, variant_merge, variant_merge]
    · have hrule : b.variant.mergeRule f = a.variant.mergeRule f := by rw [h]
      rw [get_merge hac, get_merge h, get_merge hright, get_merge hc, hleft, hrule,
        MergeRule.apply_assoc]
  · -- An event of another variant is merged into neither.
    have hac : (a.merge b).variant ≠ c.variant := by rwa [hleft, h]
    rw [merge_of_ne hac, merge_of_ne hc]

/-- On the events of one variant merging is an idempotent and associative operation, in every field
and in all metadata. Merging the same event a second time therefore changes nothing. -/
theorem merge_idempotent_associative (a b c : Event) :
    a.merge a = a ∧
    (a.variant = b.variant → (a.merge b).merge c = a.merge (b.merge c)) ∧
    (a.merge b).merge b = a.merge b := by
  refine ⟨merge_self a, fun h => merge_assoc h c, ?_⟩
  by_cases h : a.variant = b.variant
  · calc (a.merge b).merge b = a.merge (b.merge b) := merge_assoc h b
      _ = a.merge b := by rw [merge_self]
  · rw [merge_of_ne h, merge_of_ne h]

/-- A migration that states one time, in its log or elsewhere. -/
def migrationAt (time : Int64) (slot : UInt64) : Event :=
  ofValuation { Metadata.empty with slot := slot, outerIndex := time } .pumpFunMigrate
    (Valuation.zero.set .timestamp time)

/-- Of three times the first one known stays and of three places the last one, however the three
events are grouped. -/
theorem merge_idempotent_associative_migration :
    ((migrationAt 0 4).merge (migrationAt 5 0)).merge (migrationAt 6 9) =
        (migrationAt 0 4).merge ((migrationAt 5 0).merge (migrationAt 6 9)) ∧
      (((migrationAt 0 4).merge (migrationAt 5 0)).merge (migrationAt 6 9)).get .timestamp =
        (5 : Int64) ∧
      (((migrationAt 0 4).merge (migrationAt 5 0)).merge (migrationAt 6 9)).metadata.outerIndex =
        6 :=
  ⟨(merge_idempotent_associative (migrationAt 0 4) (migrationAt 5 0) (migrationAt 6 9)).2.1 rfl,
    by decide, by decide⟩

end Event

end DexFeed
