import DexFeed.Event.Record
import DexFeed.Event.Variant

/-!
# Events

An event is a variant, a record of that variant's fields, and metadata that says which transaction
it belongs to, where in the transaction it happened and when it was received and handled. Zero
values stand for what is not known, except for the three entries that may be absent.
-/

namespace DexFeed

/-- Where and when an event was seen. -/
structure Metadata where
  /-- The transaction's signature. -/
  signature : Signature
  /-- The slot of the transaction, account update or block. -/
  slot : UInt64
  /-- The block time in seconds, where known. -/
  blockTime : Option Int64
  /-- The block time in milliseconds, zero where unknown. -/
  blockTimeMs : Int64
  /-- The program that the event belongs to. -/
  programId : Key
  /-- The position of the outer instruction. -/
  outerIndex : Int64
  /-- The position among the inner instructions of that outer instruction, if it was one. -/
  innerIndex : Option Int64
  /-- The position of the transaction in its block, where known. -/
  transactionIndex : Option UInt64
  /-- When the feed received the data, in microseconds. -/
  receivedAt : Int64
  /-- When the event was handed to its consumer, in microseconds. -/
  handledAt : Int64
deriving DecidableEq

/-- Metadata in which nothing is known. -/
def Metadata.empty : Metadata where
  signature := Fixed.zero 64
  slot := 0
  blockTime := none
  blockTimeMs := 0
  programId := Key.zero
  outerIndex := 0
  innerIndex := none
  transactionIndex := none
  receivedAt := 0
  handledAt := 0

/-- One thing that happened. -/
structure Event where
  /-- Where and when it was seen. -/
  metadata : Metadata
  /-- What it says has happened. -/
  variant : Variant
  /-- The values of the variant's fields. -/
  record : Record variant.fields
deriving DecidableEq

namespace Event

/-- The event of a variant with the values that a valuation gives to its fields. -/
def ofValuation (metadata : Metadata) (variant : Variant) (v : Valuation) : Event :=
  ⟨metadata, variant, Record.tabulate v variant.fields⟩

/-- The value of a field, zero if the event's variant does not have it. -/
def get (e : Event) : Valuation :=
  e.record.get

/-- The event as its consumer sees it at a moment. -/
def handled (e : Event) (now : Int64) : Event :=
  { e with metadata := { e.metadata with handledAt := now } }

/-- An event keeps the fields of its variant; the others read as zero. -/
theorem get_ofValuation (m : Metadata) (t : Variant) (v : Valuation) (f : Field) :
    (ofValuation m t v).get f = if f ∈ t.fields then v f else f.type.zero :=
  Record.get_tabulate v t.fields f

/-- An event keeps all of a valuation that fills in fields of its variant only. -/
theorem get_ofValuation_of_zero {t : Variant} {v : Valuation}
    (h : ∀ f, f ∉ t.fields → v f = f.type.zero) (m : Metadata) : (ofValuation m t v).get = v := by
  funext f
  rw [get_ofValuation]
  by_cases hf : f ∈ t.fields
  · rw [if_pos hf]
  · rw [if_neg hf, h f hf]

/-- An event says nothing about a field that its variant does not have. -/
theorem get_of_not_mem {e : Event} {f : Field} (h : f ∉ e.variant.fields) :
    e.get f = f.type.zero :=
  Record.get_of_not_mem h e.record

/-- Events are equal when their metadata, variants and fields are. -/
theorem ext_get {a b : Event} (hm : a.metadata = b.metadata) (hv : a.variant = b.variant)
    (hf : ∀ f, a.get f = b.get f) : a = b := by
  obtain ⟨m, v, r⟩ := a
  obtain ⟨m', v', r'⟩ := b
  simp only at hm hv
  subst hm hv
  have hr : r = r' := Record.ext_get v.fields_nodup hf
  rw [hr]

end Event

end DexFeed
