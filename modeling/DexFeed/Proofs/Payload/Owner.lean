import DexFeed.Payload.Basic
import DexFeed.Proofs.Payload.Reading

/-!
# The program of an event

The forms of a kind of payload give only variants of the program that the kind belongs to, none of
them a report of state, and a payload is only looked up among the kinds of one program. Whatever a
payload of a program gives is therefore an event of that program, at the place that was given.
-/

namespace DexFeed

/-- Every form of an instruction reports a variant of the protocol of the instruction. -/
theorem InstructionKind.protocol?_of_mem_format {kind : InstructionKind} {form : Form}
    (h : form ∈ kind.format) :
    form.variant.protocol? = some kind.protocol ∧ form.variant.isReport = false := by
  have hall : ∀ form ∈ kind.format,
      form.variant.protocol? = some kind.protocol ∧ form.variant.isReport = false := by
    cases kind <;> decide
  exact hall form h

/-- Every form of a log reports a variant of the protocol of the log. -/
theorem LogKind.protocol?_of_mem_format {kind : LogKind} {form : Form} (h : form ∈ kind.format) :
    form.variant.protocol? = some kind.protocol ∧ form.variant.isReport = false := by
  have hall : ∀ form ∈ kind.format,
      form.variant.protocol? = some kind.protocol ∧ form.variant.isReport = false := by
    cases kind <;> decide
  exact hall form h

namespace Payload

variable {p : Protocol} {data : Bytes} {m : Metadata} {e : Event}

/-- The event of an instruction of a program is one of the program's doings. -/
theorem owned_of_instruction? {accounts : Accounts} (h : instruction? p data accounts m = some e) :
    e.variant.protocol? = some p ∧ e.variant.isReport = false ∧ e.metadata = m := by
  obtain ⟨kind, hkind, he⟩ := Option.bind_eq_some_iff.mp h
  obtain ⟨⟨variant, v⟩, hread, rfl⟩ := Option.map_eq_some_iff.mp he
  obtain ⟨form, hform, rfl, -⟩ := Format.mem_of_read hread
  obtain ⟨hprotocol, hreport⟩ := InstructionKind.protocol?_of_mem_format hform
  have hp := List.find?_some hkind
  rw [decide_eq_true_eq] at hp
  exact ⟨hp.1 ▸ hprotocol, hreport, rfl⟩

/-- The event of a log payload of a program is one of the program's doings. -/
theorem owned_of_log? (h : log? p data m = some e) :
    e.variant.protocol? = some p ∧ e.variant.isReport = false ∧ e.metadata = m := by
  obtain ⟨kind, hkind, he⟩ := Option.bind_eq_some_iff.mp h
  obtain ⟨⟨variant, v⟩, hread, rfl⟩ := Option.map_eq_some_iff.mp he
  obtain ⟨form, hform, rfl, -⟩ := Format.mem_of_read hread
  obtain ⟨hprotocol, hreport⟩ := LogKind.protocol?_of_mem_format hform
  have hp := List.find?_some hkind
  rw [decide_eq_true_eq] at hp
  exact ⟨hp.1 ▸ hprotocol, hreport, rfl⟩

end Payload

end DexFeed
