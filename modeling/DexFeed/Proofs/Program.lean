import Mathlib.Data.List.Nodup
import DexFeed.Program
import DexFeed.Proofs.Text.Base58

/-!
# Recognising programs

Instructions and account updates name a program by its key, log lines by the text of its id. The ids
are the names of different keys and a key has only one name, so the two ways of recognising a
program agree on every text, and neither knows a second spelling of an id.
-/

namespace DexFeed.Protocol

variable {p : Protocol}

/-- The published id of a program names a key. -/
theorem isSome_ofBase58?_idText (p : Protocol) :
    (Key.ofBase58? (ascii p.idText)).isSome = true := by
  cases p <;> decide +kernel

/-- The id of a protocol's program is written as the protocol's text. -/
theorem toBase58_programId (p : Protocol) : p.programId.toBase58 = ascii p.idText := by
  obtain ⟨k, hk⟩ := Option.isSome_iff_exists.mp p.isSome_ofBase58?_idText
  have hid : p.programId = k := by
    rw [programId, hk, Option.getD_some]
  rw [hid]
  exact (Base58.fixed?_eq_some_iff (ascii p.idText) k).mp hk

/-- No id belongs to two programs. -/
theorem idText_injective : Function.Injective fun p : Protocol => ascii p.idText := by
  have hnodup : (all.map fun p => ascii p.idText).Nodup := by
    decide +kernel
  exact fun p q h => List.inj_on_of_nodup_map hnodup (mem_all p) (mem_all q) h

/-- Two programs never have the same key. -/
theorem programId_injective : Function.Injective programId := by
  intro p q h
  have htext : ascii p.idText = ascii q.idText := by
    rw [← toBase58_programId, h, toBase58_programId]
  exact idText_injective htext

/-- Looking for a program by what is different for each finds the one that has it. -/
theorem find?_all_eq_some_iff {α : Type} [DecidableEq α] {f : Protocol → α}
    (hf : Function.Injective f) (a : α) :
    (all.find? fun p => f p = a) = some p ↔ f p = a := by
  constructor
  · intro h
    have hp := List.find?_some h
    rwa [decide_eq_true_eq] at hp
  · rintro rfl
    cases hfound : all.find? fun q => f q = f p with
    | none =>
      have hmissing := List.find?_eq_none.mp hfound p (mem_all p)
      simp at hmissing
    | some q =>
      have hq := List.find?_some hfound
      rw [decide_eq_true_eq] at hq
      rw [hf hq]

/-- A text is that of a protocol exactly when it is the one the protocol has. -/
theorem ofIdText?_eq_some_iff (text : Bytes) : ofIdText? text = some p ↔ ascii p.idText = text :=
  find?_all_eq_some_iff idText_injective text

/-- A key is that of a protocol exactly when it is the id of its program. -/
theorem ofKey?_eq_some_iff (k : Key) : ofKey? k = some p ↔ p.programId = k :=
  find?_all_eq_some_iff programId_injective k

/-- A text is taken for the id of a program exactly when it is the name of a key that is taken for
the program's key. That is never the case for a text that names no key, and for each program it is
the case for one text only. -/
theorem ofIdText?_eq_bind_ofKey? (text : Bytes) :
    ofIdText? text = (Key.ofBase58? text).bind ofKey? ∧
      (Key.ofBase58? text = none ↔ ∀ k : Key, k.toBase58 ≠ text) ∧
      ∀ p, ofIdText? text = some p ↔ text = ascii p.idText := by
  have hname : ∀ k : Key, Key.ofBase58? text = some k ↔ k.toBase58 = text :=
    fun k => Base58.fixed?_eq_some_iff text k
  refine ⟨?_, ?_, fun p => (ofIdText?_eq_some_iff text).trans eq_comm⟩
  · ext p
    rw [ofIdText?_eq_some_iff, ← toBase58_programId, Option.bind_eq_some_iff]
    constructor
    · intro h
      exact ⟨p.programId, (hname _).mpr h, (ofKey?_eq_some_iff _).mpr rfl⟩
    · rintro ⟨k, hk, hp⟩
      rw [(ofKey?_eq_some_iff k).mp hp]
      exact (hname k).mp hk
  · rw [Option.eq_none_iff_forall_ne_some]
    exact forall_congr' fun k => not_congr (hname k)

end DexFeed.Protocol
