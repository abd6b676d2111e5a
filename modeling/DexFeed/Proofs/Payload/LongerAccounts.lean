import DexFeed.Proofs.Payload.Requested

/-!
# Longer lists of accounts

An instruction may list fewer accounts than its interface does, and it may refer to keys that the
transaction does not have. Whether it is understood, and what its arguments are, the data alone
decide. An account goes to the field that stands at its own position in the roster, so longer lists
can only fill in accounts that were missing: where both the keys and the references go on as before,
no account that was known is replaced or moved.
-/

namespace DexFeed

/-! ## Lists that go on -/

namespace Accounts

/-- The keys and the references of `b` begin with those of `a`. -/
structure Continues (a b : Accounts) : Prop where
  /-- The keys go on. -/
  keys_prefix : a.keys <+: b.keys
  /-- The references go on. -/
  indices_prefix : a.indices <+: b.indices

/-- What stands at a position of a list stands there, too, in every list that begins with it. -/
theorem getElem?_of_prefix {α : Type} {xs ys : List α} (h : xs <+: ys) {i : Nat} {x : α}
    (hx : xs[i]? = some x) : ys[i]? = some x := by
  obtain ⟨hi, rfl⟩ := List.getElem?_eq_some_iff.1 hx
  exact List.prefix_iff_getElem?.1 h i hi

/-- A position that names a key names the same key when the lists go on. -/
theorem Continues.key_eq_zero_or_eq {a b : Accounts} (h : a.Continues b) (i : Nat) :
    a.key i = Key.zero ∨ a.key i = b.key i := by
  cases hi : a.indices[i]? with
  | none => exact .inl (by simp only [key, hi])
  | some j =>
    have hj : b.indices[i]? = some j := getElem?_of_prefix h.indices_prefix hi
    cases hk : a.keys[j.toNat]? with
    | none => exact .inl (by simp only [key, hi, hk, Option.getD_none])
    | some k =>
      have hl : b.keys[j.toNat]? = some k := getElem?_of_prefix h.keys_prefix hk
      exact .inr (by simp only [key, hi, hj, hk, hl])

end Accounts

/-! ## What the data decide -/

namespace InstructionKind

variable {kind : InstructionKind} {body : Bytes} {v : Valuation}

/-- The values that a body gives stand in the event of every list of accounts, and the accounts
stand at their positions in the roster. -/
theorem get_event? {t : Variant} (h : kind.format.read body = some (t, v)) (accounts : Accounts)
    (m : Metadata) :
    ∃ e, kind.event? body accounts m = some e ∧ e.variant = t ∧ e.metadata = m ∧
      (∀ f, some f ∉ kind.roster → e.get f = v f) ∧
      ∀ (i : Nat) (f : Field), kind.roster[i]? = some (some f) →
        ∃ isKey : f.type = .key, e.get f = isKey ▸ accounts.key i := by
  obtain ⟨form, hform, ht, -, -, -, -, hzero⟩ := (format_follows kind).spells_of_read h
  rw [variant_of_mem_format hform] at ht
  subst ht
  have hget : (Event.ofValuation m kind.variant (accounts.fill v kind.slots)).get =
      accounts.fill v kind.slots := get_ofValuation_fill hform hzero accounts m
  refine ⟨Event.ofValuation m kind.variant (accounts.fill v kind.slots),
    by rw [event?, h, Option.map_some], rfl, rfl, fun f hf => ?_, fun i f hroster => ?_⟩
  · have hslots : f ∉ kind.slots.map Slot.field := fun h => hf (mem_roster_of_mem_slots h)
    rw [hget, Accounts.fill_of_not_mem hslots]
  · obtain ⟨slot, hslot, rfl, rfl⟩ := mem_slots_of_roster hroster
    exact ⟨slot.isKey, by rw [hget, Accounts.fill_of_mem (slots_nodup kind) hslot]⟩

end InstructionKind

namespace Payload

/-- Decoding is monotone in the accounts. Where the keys and the references go on, an instruction is
either understood with neither list or with both. The two events then have the same variant, the
given metadata and the same value in every field that is no account. An account stands in its own
field, at the position of that field in the roster: it is zero as long as the lists do not reach it,
and what it is then it stays. -/
theorem instruction?_continues (p : Protocol) (data : Bytes) (m : Metadata) {a b : Accounts}
    (h : a.Continues b) :
    (instruction? p data a m = none ∧ instruction? p data b m = none) ∨
    ∃ kind e e', InstructionKind.find? p data = some kind ∧
      instruction? p data a m = some e ∧ instruction? p data b m = some e' ∧
      e.variant = e'.variant ∧ e.metadata = m ∧ e'.metadata = m ∧
      (∀ f, some f ∉ kind.roster → e.get f = e'.get f) ∧
      ∀ (i : Nat) (f : Field), kind.roster[i]? = some (some f) → ∃ isKey : f.type = .key,
        e.get f = isKey ▸ a.key i ∧ e'.get f = isKey ▸ b.key i ∧
        (e.get f = isKey ▸ Key.zero ∨ e.get f = e'.get f) := by
  rw [instruction?, instruction?]
  cases hkind : InstructionKind.find? p data with
  | none => exact .inl ⟨rfl, rfl⟩
  | some kind =>
    simp only [Option.bind_eq_bind, Option.bind_some]
    cases hread : kind.format.read (data.drop 8) with
    | none =>
      refine .inl ⟨?_, ?_⟩
      · rw [InstructionKind.event?, hread, Option.map_none]
      · rw [InstructionKind.event?, hread, Option.map_none]
    | some q =>
      obtain ⟨e, he, hvariant, hmeta, hdata, haccounts⟩ := InstructionKind.get_event? hread a m
      obtain ⟨e', he', hvariant', hmeta', hdata', haccounts'⟩ :=
        InstructionKind.get_event? hread b m
      refine .inr ⟨kind, e, e', rfl, he, he', hvariant.trans hvariant'.symm, hmeta, hmeta',
        fun f hf => (hdata f hf).trans (hdata' f hf).symm, fun i f hroster => ?_⟩
      obtain ⟨isKey, hkey⟩ := haccounts i f hroster
      obtain ⟨_, hkey'⟩ := haccounts' i f hroster
      refine ⟨isKey, hkey, hkey', ?_⟩
      rw [hkey, hkey']
      exact (h.key_eq_zero_or_eq i).imp (fun hzero => by rw [hzero]) fun heq => by rw [heq]

/-- The keys and the references of `dangling` and some more, so that its first reference leads
somewhere. -/
def supplied : Accounts where
  keys := dangling.keys ++ List.replicate 7 ⟨List.replicate 32 2, rfl⟩
  indices := dangling.indices ++ [1]

/-- The first account of a migration is filled in when its key is supplied, and the second stays. -/
theorem instruction?_continues_migrate :
    dangling.Continues supplied ∧
    ∃ e e', instruction? .pumpFun InstructionKind.pumpFunMigrate.tag.bytes dangling
        Metadata.empty = some e ∧
      instruction? .pumpFun InstructionKind.pumpFunMigrate.tag.bytes supplied
        Metadata.empty = some e' ∧
      e.get .global = Key.zero ∧ e'.get .global ≠ Key.zero ∧
      e.get .withdrawAuthority ≠ Key.zero ∧
      e.get .withdrawAuthority = e'.get .withdrawAuthority := by
  have hcontinues : dangling.Continues supplied :=
    ⟨List.prefix_append _ _, List.prefix_append _ _⟩
  refine ⟨hcontinues, ?_⟩
  have hfind : InstructionKind.find? .pumpFun InstructionKind.pumpFunMigrate.tag.bytes =
      some .pumpFunMigrate := by
    have htag := InstructionKind.find?_tag .pumpFunMigrate []
    rwa [List.append_nil] at htag
  rcases instruction?_continues .pumpFun InstructionKind.pumpFunMigrate.tag.bytes Metadata.empty
    hcontinues with ⟨hnone, -⟩ | ⟨kind, e, e', hkind, he, he', -, -, -, -, haccounts⟩
  · rw [instruction?, hfind] at hnone
    exact absurd hnone (Option.some_ne_none _)
  · obtain rfl : .pumpFunMigrate = kind := Option.some.inj (hfind.symm.trans hkind)
    obtain ⟨_, hglobal, hglobal', -⟩ := haccounts 0 .global rfl
    obtain ⟨_, hauthority, -, hsame⟩ := haccounts 1 .withdrawAuthority rfl
    have hmissing : dangling.key 0 = Key.zero := by decide
    have hfilled : supplied.key 0 ≠ Key.zero := by decide
    have hknown : dangling.key 1 ≠ Key.zero := by decide
    have hkept : e.get .withdrawAuthority ≠ Key.zero := fun hzero =>
      hknown (hauthority.symm.trans hzero)
    exact ⟨e, e', he, he', hglobal.trans hmissing, fun hzero => hfilled (hglobal'.symm.trans hzero),
      hkept, hsame.resolve_left hkept⟩

end Payload

end DexFeed
