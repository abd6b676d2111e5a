import Mathlib.Data.Sigma.Basic
import DexFeed.Merge.Absorb

/-!
# Doings

Two events pair when they describe the same doing. `Event.doing?` gathers what has to agree into
one value: the variant, the transaction and the fields of the variant's identity. Events pair
exactly when both describe a doing and it is the same one, so pairing is symmetric and transitive,
and it fails on events that describe none.
-/

namespace DexFeed

/-- Something that a program did in a transaction, as both sides recognise it. -/
structure Doing where
  /-- What was done. -/
  variant : Variant
  /-- The transaction in which it was done. -/
  signature : Signature
  /-- The values of the variant's identity, field by field. -/
  identity : List (Σ f : Field, f.type.Value)
deriving DecidableEq

namespace Event

/-- The doing that an event describes; none for a variant without identity. -/
def doing? (e : Event) : Option Doing :=
  e.variant.identity?.map fun fields =>
    ⟨e.variant, e.metadata.signature, fields.map fun f => ⟨f, e.get f⟩⟩

/-- Pairing is sharing a doing: every comparison that it makes is a component of `Doing`. -/
theorem pairsWith_iff {a b : Event} :
    a.pairsWith b = true ↔ ∃ d, a.doing? = some d ∧ b.doing? = some d := by
  cases hi : a.variant.identity? with
  | none => simp [pairsWith, doing?, hi]
  | some fields =>
    have hvalues : fields.map (fun f => (⟨f, a.get f⟩ : Σ f : Field, f.type.Value)) =
        fields.map (fun f => ⟨f, b.get f⟩) ↔ ∀ f ∈ fields, a.get f = b.get f := by
      simp [List.map_inj_left]
    simp only [pairsWith, hi, Bool.and_eq_true, decide_eq_true_eq, List.all_eq_true]
    rw [← hvalues]
    constructor
    · rintro ⟨⟨hv, hs⟩, hf⟩
      refine ⟨_, by rw [doing?, hi, Option.map_some], ?_⟩
      rw [doing?, ← hv, hi, Option.map_some, ← hs, ← hf]
    · rintro ⟨d, ha, hb⟩
      rw [doing?, hi, Option.map_some, Option.some.injEq] at ha
      obtain ⟨fields', hi', hd⟩ := Option.map_eq_some_iff.mp hb
      rw [← ha, Doing.mk.injEq] at hd
      obtain ⟨hv, hs, hf⟩ := hd
      rw [hv, hi, Option.some.injEq] at hi'
      exact ⟨⟨hv.symm, hs.symm⟩, by rw [← hf, hi']⟩

/-- With an event that reports a doing exactly the events that report the same doing pair. -/
theorem pairsWith_of_doing? {a b : Event} {d : Doing} (ha : a.doing? = some d) :
    a.pairsWith b = decide (b.doing? = some d) := by
  rw [Bool.eq_iff_iff, pairsWith_iff, decide_eq_true_eq]
  constructor
  · rintro ⟨d', ha', hb⟩
    rw [ha'] at ha
    rw [hb, ha]
  · exact fun hb => ⟨d, ha, hb⟩

/-- Pairing is symmetric. -/
theorem pairsWith_comm (a b : Event) : a.pairsWith b = b.pairsWith a := by
  rw [Bool.eq_iff_iff, pairsWith_iff, pairsWith_iff]
  exact exists_congr fun d => and_comm

/-- Pairing is transitive. -/
theorem pairsWith_trans {a b c : Event} (hab : a.pairsWith b = true) (hbc : b.pairsWith c = true) :
    a.pairsWith c = true := by
  obtain ⟨d, ha, hb⟩ := pairsWith_iff.mp hab
  rw [pairsWith_of_doing? ha]
  rwa [pairsWith_of_doing? hb] at hbc

/-- Events that pair with each other pair with the same events. -/
theorem pairsWith_congr {a b : Event} (hab : a.pairsWith b = true) (c : Event) :
    c.pairsWith a = c.pairsWith b := by
  rw [Bool.eq_iff_iff]
  constructor
  · exact fun h => pairsWith_trans h hab
  · exact fun h => pairsWith_trans h (pairsWith_comm a b ▸ hab)

/-- Only events of one variant pair. -/
theorem variant_eq_of_pairsWith {a b : Event} (hab : a.pairsWith b = true) :
    a.variant = b.variant := by
  obtain ⟨d, ha, hb⟩ := pairsWith_iff.mp hab
  obtain ⟨_, _, hda⟩ := Option.map_eq_some_iff.mp ha
  obtain ⟨_, _, hdb⟩ := Option.map_eq_some_iff.mp hb
  rw [← hda, Doing.mk.injEq] at hdb
  exact hdb.1.symm

end Event

end DexFeed
