import DexFeed.Proofs.Merge.Doing
import DexFeed.Proofs.Merge.Fields

/-!
# Recognising a merged event

Pairing is sharing a doing, so it is symmetric and transitive, and the events that pair with
themselves are those that describe one. A merge of two events that describe the same doing still
describes it: the sides agree on everything that a doing consists of, and values on which the sides
agree are merged into themselves by every rule. What paired with the log before the merge, and
nothing else, pairs with the merged event.
-/

namespace DexFeed

namespace Variant

/-- All doings but changes of liquidity in a concentrated liquidity pool have an identity. -/
theorem isSome_identity?_iff (v : Variant) : v.identity?.isSome = true ↔
    v.isReport = false ∧ v ≠ .raydiumClmmIncreaseLiquidity ∧
      v ≠ .raydiumClmmDecreaseLiquidity := by
  cases v <;> decide

/-- There are 24 of them. -/
example : (Variant.all.countP fun v => v.identity?.isSome) = 24 := by decide

end Variant

namespace Event

variable {log ix : Event} {d : Doing}

/-- Exactly the variants with an identity report a doing. -/
theorem isSome_doing? (e : Event) : e.doing?.isSome = e.variant.identity?.isSome :=
  Option.isSome_map

/-- The events that pair with themselves are those that describe a doing. -/
theorem pairsWith_self_iff (e : Event) : e.pairsWith e = true ↔ e.doing?.isSome = true := by
  rw [pairsWith_iff, Option.isSome_iff_exists]
  exact exists_congr fun d => and_self_iff

/-- A doing is the variant, the signature and the values of the identifying fields. -/
theorem doing?_eq_some {fields : List Field} (e : Event) (h : e.variant.identity? = some fields) :
    e.doing? = some ⟨e.variant, e.metadata.signature, fields.map fun f => ⟨f, e.get f⟩⟩ := by
  rw [doing?, h, Option.map_some]

/-- Merging two events that describe the same doing gives an event that describes it too. -/
theorem doing?_merge (hlog : log.doing? = some d) (hix : ix.doing? = some d) :
    (log.merge ix).doing? = some d := by
  have hpairs : log.pairsWith ix = true := pairsWith_iff.2 ⟨d, hlog, hix⟩
  have hv : log.variant = ix.variant := variant_eq_of_pairsWith hpairs
  obtain ⟨fields, hfields, -⟩ := Option.map_eq_some_iff.1 hlog
  have hshared : log.doing? = ix.doing? := hlog.trans hix.symm
  rw [doing?_eq_some log hfields, doing?_eq_some ix (hv ▸ hfields), Option.some.injEq,
    Doing.mk.injEq] at hshared
  obtain ⟨-, hsignature, hvalues⟩ := hshared
  have hmerged : (log.merge ix).variant.identity? = some fields := by rwa [variant_merge]
  rw [doing?_eq_some _ hmerged, ← hlog, doing?_eq_some log hfields, Option.some.injEq,
    Doing.mk.injEq]
  refine ⟨variant_merge log ix, ?_, ?_⟩
  · rw [metadata_merge hv, Metadata.merge_eq]
    simp only [← hsignature, MergeRule.apply_self]
  · refine List.map_congr_left fun f hf => ?_
    have hvalue : log.get f = ix.get f := by
      have hentry := List.map_inj_left.1 hvalues f hf
      exact eq_of_heq (Sigma.mk.inj hentry).2
    rw [get_merge hv, ← hvalue, MergeRule.apply_self]

/-- A merged event pairs with exactly the events that its log paired with. -/
theorem pairsWith_merge (h : log.pairsWith ix = true) (e : Event) :
    (log.merge ix).pairsWith e = log.pairsWith e := by
  obtain ⟨d, hlog, hix⟩ := pairsWith_iff.1 h
  rw [pairsWith_of_doing? (doing?_merge hlog hix), pairsWith_of_doing? hlog]

/-- Pairing is symmetric and transitive, and an event pairs with itself unless it reports a state or
changes the liquidity of a concentrated liquidity pool. A merge of two events that pair is paired
with both of them and with exactly the events that the log is paired with. -/
theorem pairsWith_partial_equivalence (a b c : Event) :
    a.pairsWith b = b.pairsWith a ∧
    (a.pairsWith b = true → b.pairsWith c = true → a.pairsWith c = true) ∧
    (a.pairsWith a = true ↔ a.variant.isReport = false ∧
      a.variant ≠ .raydiumClmmIncreaseLiquidity ∧ a.variant ≠ .raydiumClmmDecreaseLiquidity) ∧
    (a.pairsWith b = true →
      (a.merge b).pairsWith a = true ∧ (a.merge b).pairsWith b = true ∧
        (a.merge b).pairsWith c = a.pairsWith c) := by
  refine ⟨pairsWith_comm a b, pairsWith_trans, ?_, fun hab => ?_⟩
  · rw [pairsWith_self_iff, isSome_doing?, Variant.isSome_identity?_iff]
  · have haa : a.pairsWith a = true := pairsWith_trans hab (pairsWith_comm a b ▸ hab)
    refine ⟨?_, ?_, pairsWith_merge hab c⟩
    · rw [pairsWith_merge hab, haa]
    · rw [pairsWith_merge hab, hab]

/-- A trade on a launch curve of an amount of tokens. -/
def tradeOf (isBuy : Bool) (tokenAmount : UInt64) : Event :=
  ofValuation Metadata.empty .pumpFunTrade
    ((Valuation.zero.set .isBuy isBuy).set .tokenAmount tokenAmount)

/-- Purchases of different amounts pair, also once they are merged; a sale pairs with neither. -/
theorem pairsWith_partial_equivalence_purchases :
    (tradeOf true 1).pairsWith (tradeOf true 3) = true ∧
      ((tradeOf true 1).merge (tradeOf true 2)).pairsWith (tradeOf true 2) = true ∧
      ((tradeOf true 1).merge (tradeOf true 2)).pairsWith (tradeOf false 2) = false := by
  obtain ⟨-, trans, -⟩ :=
    pairsWith_partial_equivalence (tradeOf true 1) (tradeOf true 2) (tradeOf true 3)
  obtain ⟨-, -, -, merged⟩ :=
    pairsWith_partial_equivalence (tradeOf true 1) (tradeOf true 2) (tradeOf false 2)
  have hfirst : (tradeOf true 1).pairsWith (tradeOf true 2) = true := by decide
  have hsecond : (tradeOf true 2).pairsWith (tradeOf true 3) = true := by decide
  have hsale : (tradeOf true 1).pairsWith (tradeOf false 2) = false := by decide
  obtain ⟨-, hix, hother⟩ := merged hfirst
  exact ⟨trans hfirst hsecond, hix, hother.trans hsale⟩

end Event

end DexFeed
