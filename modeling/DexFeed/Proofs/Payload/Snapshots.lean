import DexFeed.Proofs.Payload.Additions
import DexFeed.Proofs.Payload.Tagged

/-!
# Bodies of account snapshots

An account states the published fields of its variant, all of plain types, so a body is understood
exactly when there is room for them. The account's own key comes from beside the data, and a key
that later versions of a program append may be missing.
-/

namespace DexFeed

/-! ## Fields of plain types in a row -/

section Row

variable {fields : List Field} {v w : Valuation} {bs s rest : Bytes}

/-- The spellings of fields of plain types fill just the room that the fields take. -/
theorem Valuation.length_of_spells (plain : ∀ f ∈ fields, f.type.isPlain = true)
    (h : v.Spells (fields.map .field) s) : s.length = Field.span fields := by
  induction fields generalizing s with
  | nil =>
    cases h
    rfl
  | cons f fields ih =>
    obtain ⟨s₁, s₂, rfl, hf, hfields⟩ := h
    rw [List.length_append, WireType.length_of_spells (plain f List.mem_cons_self) hf,
      ih (fun g hg => plain g (List.mem_cons_of_mem f hg)) hfields, Field.span]

/-- Where there is room for fields of plain types they are read. -/
theorem Item.exists_readAll_row (plain : ∀ f ∈ fields, f.type.isPlain = true)
    (h : Field.span fields ≤ bs.length) (v : Valuation) :
    ∃ w, readAll v bs (row fields) = some (w, bs.drop (Field.span fields)) := by
  induction fields generalizing v bs with
  | nil => exact ⟨v, rfl⟩
  | cons f fields ih =>
    rw [Field.span] at h
    obtain ⟨x, hx, -⟩ := WireType.exists_parse (plain f List.mem_cons_self)
      (Nat.le_trans (Nat.le_add_right _ _) h)
    have hroom : Field.span fields ≤ (bs.drop f.type.width).length := by
      rw [List.length_drop]
      omega
    obtain ⟨w, hw⟩ := ih (fun g hg => plain g (List.mem_cons_of_mem f hg)) hroom (v.set f x)
    refine ⟨w, ?_⟩
    rw [Field.span, ← List.drop_drop, ← hw, row, List.map_cons, readAll, Item.read, hx]
    rfl

/-- A row reads its fields in order. -/
theorem Item.reads_row (fields : List Field) :
    (row fields).flatMap reads = fields.map .field := by
  rw [row, List.flatMap_map]
  exact List.flatMap_pure_eq_map _ fields

/-- A row fills in its fields. -/
theorem Item.fills_row (fields : List Field) : (row fields).flatMap fills = fields := by
  rw [row, List.flatMap_map]
  exact List.flatMap_singleton' fields

/-- A row of fields is steady if no field is in it twice. -/
theorem Item.steady_row (nodup : fields.Nodup) : Steady (row fields) := by
  rw [Steady, row, List.pairwise_map]
  refine nodup.imp fun hne g hg hg' => hne ?_
  rw [← List.mem_singleton.1 hg, ← List.mem_singleton.1 hg']

/-- What a row of different fields of plain types reads, with zero in all other fields. -/
theorem Item.spells_of_readAll_row (nodup : fields.Nodup)
    (plain : ∀ f ∈ fields, f.type.isPlain = true)
    (h : readAll Valuation.zero bs (row fields) = some (w, rest)) :
    w.Spells (fields.map .field) (bs.take (Field.span fields)) ∧
      rest = bs.drop (Field.span fields) ∧ Field.span fields ≤ bs.length ∧
      ∀ f ∉ fields, w f = f.type.zero := by
  obtain ⟨⟨s, rfl, hs⟩, -, -, hframe⟩ := spells_of_readAll h (steady_row nodup)
  rw [reads_row] at hs
  rw [fills_row] at hframe
  have hlength : s.length = Field.span fields := Valuation.length_of_spells plain hs
  refine ⟨?_, ?_, ?_, hframe⟩
  · rw [List.take_left' hlength]
    exact hs
  · rw [List.drop_left' hlength]
  · rw [List.length_append, hlength]
    exact Nat.le_add_right _ _

end Row

/-! ## The table of states -/

namespace SnapshotKind

/-- The variant of a state. -/
def variant : SnapshotKind → Variant
  | pumpFunBondingCurve => .pumpFunBondingCurveAccount
  | pumpFunGlobal => .pumpFunGlobalAccount
  | pumpSwapPool => .pumpSwapPoolAccount
  | cpmmPoolState => .raydiumCpmmPoolStateAccount

/-- The fields that later versions append to a state. -/
def appended : SnapshotKind → List Field
  | pumpFunBondingCurve => [.creator]
  | pumpSwapPool => [.coinCreator]
  | pumpFunGlobal | cpmmPoolState => []

/-- The fields that every state states, in published order, which is the order of the body. -/
def stated (kind : SnapshotKind) : List Field :=
  kind.variant.settled.filter fun f => f ≠ .pubkey ∧ f ∉ kind.appended

/-- How long the four states are at least, with their tags. -/
example : all.map (fun kind => 8 + Field.span kind.stated) = [49, 113, 211, 381] := by
  decide

variable {kind : SnapshotKind} {body : Bytes} {account : Key} {m : Metadata}

/-- A record has one form: the stated fields in a row, then the appended ones, each looked for by
itself. -/
theorem format_eq (kind : SnapshotKind) : kind.format =
    Format.rowWithTail kind.variant kind.stated (Addition.each kind.appended) := by
  cases kind <;> rfl

/-- No field is stated twice. -/
theorem stated_nodup (kind : SnapshotKind) : kind.stated.Nodup := by
  cases kind <;> decide

/-- Stated fields have a width that does not depend on the value. -/
theorem isPlain_of_mem_stated : ∀ f ∈ kind.stated, f.type.isPlain = true := by
  cases kind <;> decide

/-- The appended fields of a record may be taken as they fit, one after the other. -/
theorem orderly_appended (kind : SnapshotKind) :
    Addition.Orderly (Addition.each kind.appended) := by
  cases kind <;> decide

/-- No field is both stated and appended. -/
theorem not_mem_stated_of_mem_appended : ∀ f ∈ kind.appended, f ∉ kind.stated := by
  cases kind <;> decide

/-- The address of the account is not among the fields of its record. -/
theorem ne_pubkey_of_mem : ∀ f ∈ kind.stated ++ kind.appended, f ≠ .pubkey := by
  cases kind <;> decide

/-- The address and the fields of the record are fields of the variant. -/
theorem mem_fields_of_mem :
    ∀ f ∈ .pubkey :: (kind.stated ++ kind.appended), f ∈ kind.variant.fields := by
  cases kind <;> decide

/-- One field at most is appended, right behind the stated ones. -/
theorem first_of_mem_appended {f : Field} (h : f ∈ kind.appended) :
    kind.appended[0]? = some f ∧ Field.span (kind.appended.take 1) = f.type.width := by
  have hall : ∀ f ∈ kind.appended,
      kind.appended[0]? = some f ∧ Field.span (kind.appended.take 1) = f.type.width := by
    cases kind <;> decide
  exact hall f h

/-! ## The event of a body -/

/-- What an event says of an account is what a body of a kind states. -/
structure Conveys (kind : SnapshotKind) (body : Bytes) (account : Key) (m : Metadata)
    (e : Event) : Prop where
  /-- The variant is that of the kind. -/
  variant_eq : e.variant = kind.variant
  /-- The metadata are the given ones. -/
  metadata_eq : e.metadata = m
  /-- The key is that of the account. -/
  pubkey_eq : e.get .pubkey = account
  /-- The body begins with a spelling of the stated fields. -/
  spells : e.get.Spells (kind.stated.map .field) (body.take (Field.span kind.stated))
  /-- An appended field is spelled behind them, if it fits there. -/
  spells_appended : ∀ f ∈ kind.appended, Field.span kind.stated + f.type.width ≤ body.length →
    f.type.Spells (e.get f) ((body.drop (Field.span kind.stated)).take f.type.width)
  /-- It stays zero if it does not fit. -/
  zero_of_lt : ∀ f ∈ kind.appended, body.length < Field.span kind.stated + f.type.width →
    e.get f = f.type.zero
  /-- All else is zero. -/
  zero_of_not_mem : ∀ f, f ≠ .pubkey → f ∉ kind.stated → f ∉ kind.appended →
    e.get f = f.type.zero

/-- A record is read field by field, and what is appended cannot fail. -/
theorem read_eq (kind : SnapshotKind) (body : Bytes) : kind.format.read body =
    (Item.readAll Valuation.zero body (Item.row kind.stated)).map fun p =>
      (kind.variant, readTail p.1 p.2 (Addition.each kind.appended)) := by
  rw [format_eq, Format.rowWithTail, Format.read, Form.read]
  cases Item.readAll Valuation.zero body (Item.row kind.stated) <;> rfl

/-- A record that is too short for its stated fields is no event. -/
theorem event?_eq_none (h : body.length < Field.span kind.stated) :
    kind.event? body account m = none := by
  cases hread : Item.readAll Valuation.zero body (Item.row kind.stated) with
  | none => rw [event?, read_eq, hread, Option.map_none, Option.map_none]
  | some p =>
    obtain ⟨-, -, hroom, -⟩ :=
      Item.spells_of_readAll_row (stated_nodup kind) isPlain_of_mem_stated hread
    omega

/-- The key of the account changes nothing that a body states. -/
theorem get_ofValuation_set {f : Field} (h : f ∈ kind.stated ++ kind.appended) (account : Key)
    (m : Metadata) (v : Valuation) :
    (Event.ofValuation m kind.variant (v.set .pubkey account)).get f = v f := by
  rw [Event.get_ofValuation, if_pos (mem_fields_of_mem f (List.mem_cons_of_mem _ h)),
    Valuation.set_of_ne (Ne.symm (ne_pubkey_of_mem f h))]

/-- Where there is room for the stated fields the body is understood, and the event says what stands
in it. -/
theorem exists_event? (h : Field.span kind.stated ≤ body.length) (account : Key) (m : Metadata) :
    ∃ e, kind.event? body account m = some e ∧ kind.Conveys body account m e := by
  obtain ⟨w, hw⟩ := Item.exists_readAll_row isPlain_of_mem_stated h Valuation.zero
  obtain ⟨hspells, -, -, hzero⟩ :=
    Item.spells_of_readAll_row (stated_nodup kind) isPlain_of_mem_stated hw
  let rest := body.drop (Field.span kind.stated)
  let v := readTail w rest (Addition.each kind.appended)
  have hrest : rest.length = body.length - Field.span kind.stated := List.length_drop
  have orderly := orderly_appended kind
  have hfield := Addition.map_field_each kind.appended
  have huntouched : ∀ f, f ∉ kind.appended → v f = w f := fun f hf =>
    readTail_of_not_mem (hfield.symm ▸ hf) w rest
  refine ⟨Event.ofValuation m kind.variant (v.set .pubkey account),
    by rw [event?, read_eq, hw]; rfl, rfl, rfl, ?_, ?_, ?_, ?_, ?_⟩
  · rw [Event.get_ofValuation, if_pos (mem_fields_of_mem _ List.mem_cons_self),
      Valuation.set_self]
  · refine hspells.congr fun f hf => ?_
    obtain ⟨g, hstated, hfg⟩ := List.mem_map.1 hf
    cases hfg
    rw [get_ofValuation_set (List.mem_append_left _ hstated),
      huntouched f fun happended => not_mem_stated_of_mem_appended f happended hstated]
  · intro f hf hfits
    obtain ⟨hindex, hspan⟩ := first_of_mem_appended hf
    rw [get_ofValuation_set (List.mem_append_right _ hf)]
    rw [← hfield] at hindex hspan
    exact readTail_of_fits orderly hindex (by rw [hspan, hrest]; omega) w
  · intro f hf hshort
    obtain ⟨hindex, hspan⟩ := first_of_mem_appended hf
    rw [get_ofValuation_set (List.mem_append_right _ hf)]
    rw [← hfield] at hindex hspan
    exact (readTail_of_not_fits orderly hindex (by rw [hspan, hrest]; omega) w).trans
      (hzero f (not_mem_stated_of_mem_appended f hf))
  · intro f hpubkey hstated happended
    rw [Event.get_ofValuation, Valuation.set_of_ne (Ne.symm hpubkey), huntouched f happended,
      hzero f hstated, ite_self]

end SnapshotKind

namespace Payload

variable {p : Protocol} {data : Bytes} {account : Key} {m : Metadata}

/-- Account data are understood exactly when they are a tag of the program and behind it all that a
state of that kind has to state. -/
theorem isSome_snapshot?_iff : (snapshot? p data account m).isSome ↔
    ∃ kind : SnapshotKind, kind.protocol = p ∧ kind.tag.bytes <+: data ∧
      8 + Field.span kind.stated ≤ data.length := by
  have hlength : ∀ kind : SnapshotKind, kind.tag.bytes <+: data → 8 ≤ data.length :=
    fun kind htag => kind.tag.length_eq ▸ htag.length_le
  cases hkind : SnapshotKind.find? p data with
  | none =>
    refine iff_of_false (by rw [snapshot?, hkind]; exact Bool.false_ne_true) ?_
    rintro ⟨kind, hprotocol, htag, -⟩
    rw [SnapshotKind.find?_eq_some_iff.2 ⟨hprotocol, htag⟩] at hkind
    contradiction
  | some kind =>
    have hfound := SnapshotKind.find?_eq_some_iff.1 hkind
    have hfirst := hlength kind hfound.2
    rw [snapshot?, hkind, Option.bind_eq_bind, Option.bind_some]
    constructor
    · intro h
      refine ⟨kind, hfound.1, hfound.2, Nat.le_of_not_lt fun hshort => ?_⟩
      rw [SnapshotKind.event?_eq_none (by rw [List.length_drop]; omega)] at h
      contradiction
    · rintro ⟨kind', hprotocol, htag, hroom⟩
      rw [SnapshotKind.find?_eq_some_iff.2 ⟨hprotocol, htag⟩, Option.some.injEq] at hkind
      subst hkind
      obtain ⟨e, he, -⟩ := SnapshotKind.exists_event?
        (show Field.span kind'.stated ≤ (data.drop 8).length by rw [List.length_drop]; omega)
        account m
      rw [he]
      rfl

/-- The event of account data says what stands behind their tag. -/
theorem conveys_of_snapshot? {e : Event} (h : snapshot? p data account m = some e) :
    ∃ kind : SnapshotKind, kind.protocol = p ∧ kind.tag.bytes <+: data ∧
      8 + Field.span kind.stated ≤ data.length ∧ kind.Conveys (data.drop 8) account m e := by
  obtain ⟨kind, hprotocol, htag, hroom⟩ :=
    isSome_snapshot?_iff.1 (Option.isSome_iff_exists.2 ⟨e, h⟩)
  refine ⟨kind, hprotocol, htag, hroom, ?_⟩
  obtain ⟨e', he', hconveys⟩ := SnapshotKind.exists_event?
    (show Field.span kind.stated ≤ (data.drop 8).length by rw [List.length_drop]; omega) account m
  rw [snapshot?, SnapshotKind.find?_eq_some_iff.2 ⟨hprotocol, htag⟩, Option.bind_eq_bind,
    Option.bind_some, he', Option.some.injEq] at h
  exact h ▸ hconveys

end Payload

end DexFeed
