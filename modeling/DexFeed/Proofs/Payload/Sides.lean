import DexFeed.Proofs.Merge.Doing
import DexFeed.Proofs.Merge.Precedence
import DexFeed.Proofs.Payload.Logged
import DexFeed.Proofs.Payload.Owner
import DexFeed.Proofs.Payload.Requested

/-!
# What only one side can know

The formats of logs, the formats of instructions and the tables of a merge describe the same events
three times. Here they are held against each other: a log leaves open what only an instruction
states, and an instruction leaves open what shows in the course of a transaction only. A merge of
the two is therefore a union, in which neither side's own part is touched by the other.
-/

namespace DexFeed

/-- Whether the value of a field shows in the course of a transaction only: times, reserves,
balances before and after, and fees. -/
def Field.isObserved : Field → Bool
  -- times
  | .timestamp | .lastUpdateTimestamp
  -- reserves
  | .virtualTokenReserves | .virtualSolReserves | .realTokenReserves | .realSolReserves
  | .userBaseTokenReserves | .userQuoteTokenReserves | .poolBaseTokenReserves
  | .poolQuoteTokenReserves | .initialVirtualTokenReserves | .initialVirtualSolReserves
  | .initialRealTokenReserves
  -- balances before and after
  | .realBaseBefore | .realQuoteBefore | .realBaseAfter | .realQuoteAfter | .inputVaultBefore
  | .outputVaultBefore | .lpAmountBefore | .token0VaultBefore | .token1VaultBefore
  -- fees, and amounts that fees are part of
  | .fee | .creatorFee | .poolMigrationFee | .lpFee | .protocolFee | .coinCreatorFee
  | .platformFee | .shareFee | .feeAmount0 | .feeAmount1 | .quoteAmountInWithLpFee
  | .quoteAmountOutWithoutLpFee | .protocolFeesToken0 | .protocolFeesToken1 | .fundFeesToken0
  | .fundFeesToken1
  -- rates of fees
  | .feeBasisPoints | .creatorFeeBasisPoints | .lpFeeBasisPoints | .protocolFeeBasisPoints
  | .coinCreatorFeeBasisPoints
  -- fees of transfers
  | .inputTransferFee | .outputTransferFee | .token0TransferFee | .token1TransferFee
  | .transferFee0 | .transferFee1 | .depositAmount0TransferFee | .depositAmount1TransferFee
  | .amount0TransferFee | .amount1TransferFee | .tokenATransferFee | .tokenBTransferFee => true
  | _ => false

/-! ## Logs -/

namespace LogKind

variable {kind : LogKind} {form : Form} {body : Bytes} {m : Metadata} {e : Event} {f : Field}

/-- No log fills in a field that only instructions ask for. -/
theorem not_mem_requested_of_mem_format (h : form ∈ kind.format) :
    ∀ f ∈ form.fills, f ∉ form.variant.requested := by
  have hall : ∀ form ∈ kind.format, ∀ f ∈ form.fills, f ∉ form.variant.requested := by
    cases kind <;> decide
  exact hall form h

/-- A log leaves open what only an instruction states. -/
theorem get_of_mem_requested (h : kind.event? body m = some e) (hf : f ∈ e.variant.requested) :
    e.get f = f.type.zero := by
  obtain ⟨⟨t, v⟩, hread, rfl⟩ := Option.map_eq_some_iff.1 h
  obtain ⟨form, hform, rfl, -, -, -, -, hzero⟩ := (format_follows kind).spells_of_read hread
  have hfills : f ∉ form.fills := fun hmem => not_mem_requested_of_mem_format hform f hmem hf
  rw [Event.get_ofValuation, hzero f hfills, ite_self]

end LogKind

/-! ## Instructions -/

namespace InstructionKind

variable {kind : InstructionKind} {form : Form} {body : Bytes} {accounts : Accounts}
  {m : Metadata} {e : Event} {f : Field}

/-- No instruction fills in a field that is only observed, neither from its arguments nor from its
accounts. -/
theorem isObserved_of_mem_format (h : form ∈ kind.format) :
    ∀ f ∈ form.fills ++ kind.slots.map Slot.field, f.isObserved = false := by
  have hall : ∀ form ∈ kind.format,
      ∀ f ∈ form.fills ++ kind.slots.map Slot.field, f.isObserved = false := by
    cases kind <;> decide
  exact hall form h

/-- An instruction leaves open what shows in the course of a transaction only. -/
theorem get_of_isObserved (h : kind.event? body accounts m = some e) (hf : f.isObserved = true) :
    e.get f = f.type.zero := by
  obtain ⟨⟨t, v⟩, hread, rfl⟩ := Option.map_eq_some_iff.1 h
  obtain ⟨form, hform, rfl, -, -, -, -, hzero⟩ := (format_follows kind).spells_of_read hread
  obtain ⟨hfills, hslots⟩ : f ∉ form.fills ∧ f ∉ kind.slots.map Slot.field := by
    refine not_or.1 fun hmem => ?_
    have hopen := isObserved_of_mem_format hform f (List.mem_append.2 hmem)
    exact Bool.false_ne_true (hopen.symm.trans hf)
  rw [Event.get_ofValuation, Accounts.fill_of_not_mem hslots, hzero f hfills, ite_self]

end InstructionKind

/-! ## Payloads -/

namespace Payload

variable {p q : Protocol} {data data' : Bytes} {accounts : Accounts} {m m' : Metadata}
  {l x : Event} {f : Field}

/-- What instructions ask for is zero in a log event. -/
theorem log?_get_of_mem_requested (h : log? p data m = some l) (hf : f ∈ l.variant.requested) :
    l.get f = f.type.zero := by
  obtain ⟨kind, -, hevent⟩ := Option.bind_eq_some_iff.1 h
  exact LogKind.get_of_mem_requested hevent hf

/-- What is only observed is zero in an instruction event. -/
theorem instruction?_get_of_isObserved (h : instruction? p data accounts m = some x)
    (hf : f.isObserved = true) : x.get f = f.type.zero := by
  obtain ⟨kind, -, hevent⟩ := Option.bind_eq_some_iff.1 h
  exact InstructionKind.get_of_isObserved hevent hf

/-- What only an instruction states comes from the instruction. -/
theorem get_merge_of_mem_requested (hl : log? p data m = some l) (hpairs : l.pairsWith x = true)
    (hf : f ∈ l.variant.requested) : (l.merge x).get f = x.get f := by
  obtain ⟨-, hreport, -⟩ := owned_of_log? hl
  have hmem : f ∈ l.variant.fields := List.mem_append_right _ hf
  exact Event.get_merge_of_zero_left (Event.variant_eq_of_pairsWith hpairs) hreport hmem
    (log?_get_of_mem_requested hl hf)

/-- What shows in the course of a transaction only comes from the log. -/
theorem get_merge_of_isObserved (hx : instruction? q data accounts m = some x)
    (hf : f.isObserved = true) : (l.merge x).get f = l.get f :=
  Event.get_merge_of_zero_right (instruction?_get_of_isObserved hx hf)

/-- A log is zero wherever only instructions state a value, and an instruction is zero in all times,
reserves, balances and fees. Where a log and an instruction pair, their merge has the instruction's
value in the former fields and the log's in the latter, so neither side's own part is lost. -/
theorem merge_keeps_both_sides (p q : Protocol) (data data' : Bytes) (accounts : Accounts)
    (m m' : Metadata) :
    (∀ l, log? p data m = some l → ∀ f ∈ l.variant.requested, l.get f = f.type.zero) ∧
    (∀ x, instruction? q data' accounts m' = some x →
      ∀ f, f.isObserved = true → x.get f = f.type.zero) ∧
    ∀ l x, log? p data m = some l → instruction? q data' accounts m' = some x →
      l.pairsWith x = true →
      (∀ f ∈ l.variant.requested, (l.merge x).get f = x.get f) ∧
        ∀ f, f.isObserved = true → (l.merge x).get f = l.get f := by
  refine ⟨fun l hl f hf => ?_, fun x hx f hf => ?_, fun l x hl hx hpairs => ⟨?_, ?_⟩⟩
  · exact log?_get_of_mem_requested hl hf
  · exact instruction?_get_of_isObserved hx hf
  · intro f hf
    exact get_merge_of_mem_requested hl hpairs hf
  · intro f hf
    exact get_merge_of_isObserved hx hf

/-- The log of a migration that states a fee of five and is zero otherwise. -/
def feeOfMigration : Bytes :=
  LogKind.pumpFunMigrate.tag.bytes ++ List.replicate 80 0 ++ [5, 0, 0, 0, 0, 0, 0, 0] ++
    List.replicate 72 0

/-- What comes of this log. -/
def paidMigration : Event :=
  Event.ofValuation Metadata.empty .pumpFunMigrate
    (Valuation.zero.set .poolMigrationFee (5 : UInt64))

/-- What comes of the instruction for a migration that names its authority only. -/
def authorisedMigration : Event :=
  Event.ofValuation Metadata.empty .pumpFunMigrate
    (Valuation.zero.set .withdrawAuthority (dangling.key 1))

/-- The fee of a migration is the log's and its authority, which no log states, the
instruction's. -/
theorem merge_keeps_both_sides_migration :
    log? .pumpFun feeOfMigration Metadata.empty = some paidMigration ∧
      instruction? .pumpFun InstructionKind.pumpFunMigrate.tag.bytes dangling Metadata.empty =
        some authorisedMigration ∧
      paidMigration.pairsWith authorisedMigration = true ∧
      (paidMigration.merge authorisedMigration).get .poolMigrationFee = (5 : UInt64) ∧
      (paidMigration.merge authorisedMigration).get .withdrawAuthority = dangling.key 1 := by
  have hlog : log? .pumpFun feeOfMigration Metadata.empty = some paidMigration := by
    decide +kernel
  have hinstruction : instruction? .pumpFun InstructionKind.pumpFunMigrate.tag.bytes dangling
      Metadata.empty = some authorisedMigration := by
    decide +kernel
  have hpairs : paidMigration.pairsWith authorisedMigration = true := by decide +kernel
  obtain ⟨-, -, merged⟩ := merge_keeps_both_sides .pumpFun .pumpFun feeOfMigration
    InstructionKind.pumpFunMigrate.tag.bytes dangling Metadata.empty Metadata.empty
  obtain ⟨hrequested, hobserved⟩ :=
    merged paidMigration authorisedMigration hlog hinstruction hpairs
  exact ⟨hlog, hinstruction, hpairs, hobserved .poolMigrationFee rfl,
    hrequested .withdrawAuthority (by decide)⟩

end Payload

end DexFeed
