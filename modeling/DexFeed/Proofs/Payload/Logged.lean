import DexFeed.Payload.Log
import DexFeed.Proofs.Payload.Launch

/-!
# Bodies of log payloads

A log states the settled fields of a variant in the order in which they are published. What later
versions of a program append may be missing, a launch states the base tokens for sale on a constant
product curve only, and a change of liquidity in a constant product pool ends in a byte for its
direction. This is the whole format: a log payload is understood exactly when its body begins with a
spelling of these parts, and the event holds the values spelled there.
-/

namespace DexFeed

namespace Variant

/-- The settled fields that later versions append to a log. -/
def appended : Variant → List Field
  | pumpFunTrade =>
    [.trackVolume, .totalUnclaimedTokens, .totalClaimedTokens, .currentSolVolume,
     .lastUpdateTimestamp]
  | pumpSwapBuy | pumpSwapSell => [.coinCreator, .coinCreatorFeeBasisPoints, .coinCreatorFee]
  | _ => []

/-- The settled fields that only a log about a constant product curve states. -/
def omitted (t : Variant) (constant : Bool) : List Field :=
  if t = .bonkPoolCreate ∧ constant = false then [.totalBaseSell] else []

/-- The settled fields that every log states. -/
def stated (t : Variant) (constant : Bool) : List Field :=
  t.settled.filter fun f => f ∉ t.appended ∧ f ∉ t.omitted constant

/-- The byte behind the fields that tells the direction of a change of liquidity. -/
def mark : Variant → List Parameter
  | raydiumCpmmDeposit => [.constant 0]
  | raydiumCpmmWithdraw => [.constant 1]
  | _ => []

/-- What stands in a log about the values of a valuation. -/
def logged (t : Variant) (v : Valuation) : List Parameter :=
  (t.stated (Launch.isConstant v)).map .field ++ t.mark

/-- The fields among the parts of a log are the stated ones. -/
theorem field_mem_logged {t : Variant} {v : Valuation} {f : Field} :
    .field f ∈ t.logged v ↔ f ∈ t.stated (Launch.isConstant v) := by
  have hmark : .field f ∉ t.mark := by
    cases t <;> simp [mark]
  simp [logged, hmark]

/-- A stated field is a field of the variant. -/
theorem mem_fields_of_mem_stated {t : Variant} {constant : Bool} {f : Field}
    (h : f ∈ t.stated constant) : f ∈ t.fields :=
  List.mem_append_left _ (List.mem_filter.1 h).1

/-- An appended field is a field of the variant. -/
theorem mem_fields_of_mem_appended {t : Variant} {f : Field} (h : f ∈ t.appended) :
    f ∈ t.fields := by
  have hall : ∀ f ∈ t.appended, f ∈ t.fields := by
    cases t <;> decide
  exact hall f h

end Variant

namespace LogKind

/-- The variants that a kind of log payload reports. -/
def reports : LogKind → List Variant
  | pumpFunCreate => [.pumpFunCreate]
  | pumpFunTrade => [.pumpFunTrade]
  | pumpFunComplete => [.pumpFunComplete]
  | pumpFunMigrate => [.pumpFunMigrate]
  | pumpSwapBuy => [.pumpSwapBuy]
  | pumpSwapSell => [.pumpSwapSell]
  | pumpSwapCreatePool => [.pumpSwapCreatePool]
  | pumpSwapDeposit => [.pumpSwapDeposit]
  | pumpSwapWithdraw => [.pumpSwapWithdraw]
  | bonkTrade => [.bonkTrade]
  | bonkPoolCreate => [.bonkPoolCreate]
  | cpmmSwap => [.raydiumCpmmSwap]
  | cpmmLpChange => [.raydiumCpmmDeposit, .raydiumCpmmWithdraw]
  | clmmSwap => [.raydiumClmmSwap]
  | clmmPoolCreated => [.raydiumClmmCreatePool]
  | clmmCreatePersonalPosition => [.raydiumClmmOpenPosition]
  | clmmIncreaseLiquidity => [.raydiumClmmIncreaseLiquidity]
  | clmmDecreaseLiquidity => [.raydiumClmmDecreaseLiquidity]
  | orcaTraded => [.orcaSwap]
  | orcaLiquidityIncreased => [.orcaLiquidityIncreased]
  | orcaLiquidityDecreased => [.orcaLiquidityDecreased]
  | orcaPoolInitialized => [.orcaPoolInitialized]

/-- Whether a kind can report a variant with the values of a valuation. -/
def Admits (kind : LogKind) (t : Variant) (v : Valuation) : Prop :=
  t ∈ kind.reports ∧ (t = .bonkPoolCreate → Launch.Known v)

/-- The byte strings by which a kind reports a variant with the values of a valuation. -/
def Spells (kind : LogKind) (t : Variant) (v : Valuation) (s : Bytes) : Prop :=
  kind.Admits t v ∧ v.Spells (t.logged v) s

variable {kind : LogKind} {form : Form}

/-! ## The table of formats -/

/-- Every form of a kind is steady. -/
theorem steady_of_mem_format (h : form ∈ kind.format) : form.Steady := by
  have hall : ∀ form ∈ kind.format, form.Steady := by
    cases kind <;> decide
  exact hall form h

/-- What a form may read behind the parts is what later versions append. -/
theorem tail_of_mem_format (h : form ∈ kind.format) : form.tail = form.variant.appended := by
  have hall : ∀ form ∈ kind.format, form.tail = form.variant.appended := by
    cases kind <;> decide
  exact hall form h

/-- A form fills in what it reads and what later versions append. -/
theorem fills_of_mem_format (h : form ∈ kind.format) :
    ∀ f ∈ form.fills, .field f ∈ form.reads ∨ f ∈ form.variant.appended := by
  have hall : ∀ form ∈ kind.format, ∀ f ∈ form.fills,
      .field f ∈ form.reads ∨ f ∈ form.variant.appended := by
    cases kind <;> decide
  exact hall form h

/-- At most one form of a kind reads a body: launches differ in the type of the curve, changes of
liquidity in their last byte. -/
theorem format_exclusive (kind : LogKind) : kind.format.Exclusive := by
  cases kind with
  | bonkPoolCreate => exact Launch.format_exclusive _
  | cpmmLpChange =>
    refine List.Pairwise.cons ?_ (List.pairwise_singleton _ _)
    rintro form hform body
    rw [List.mem_singleton.1 hform]
    exact Form.read_eq_none_or (Item.byte_clash (by decide)) rfl rfl body
  | _ => exact List.pairwise_singleton _ _

/-- Every form but those of a launch asks for no values and reads the parts of its variant. -/
theorem reads_of_mem_format (hkind : kind ≠ .bonkPoolCreate) (h : form ∈ kind.format)
    (constant : Bool) :
    form.variant ∈ kind.reports ∧ form.variant ≠ .bonkPoolCreate ∧ form.demands.isEmpty ∧
      form.reads = (form.variant.stated constant).map .field ++ form.variant.mark := by
  have hall : ∀ constant, ∀ form ∈ kind.format,
      form.variant ∈ kind.reports ∧ form.variant ≠ .bonkPoolCreate ∧ form.demands.isEmpty ∧
        form.reads = (form.variant.stated constant).map .field ++ form.variant.mark := by
    cases kind <;> first | contradiction | decide
  exact hall constant form h

/-- Every variant that a kind reports has a form. -/
theorem exists_form_of_mem_reports {t : Variant} (h : t ∈ kind.reports) :
    ∃ form ∈ kind.format, form.variant = t := by
  have hall : ∀ t ∈ kind.reports, ∃ form ∈ kind.format, form.variant = t := by
    cases kind <;> decide
  exact hall t h

/-- A launch behind the pool, its creator and its configuration states the fields of a pool. -/
theorem stated_bonkPoolCreate (constant : Bool) :
    Variant.stated .bonkPoolCreate constant =
      [.poolState, .creator, .config] ++ Launch.fields constant := by
  cases constant <;> rfl

/-- A kind of log payload is described by the published fields of the variants it reports. -/
theorem format_follows (kind : LogKind) : kind.format.Follows kind.Admits Variant.logged where
  steady _ h := steady_of_mem_format h
  exclusive := format_exclusive kind
  sound form h v hd := by
    by_cases hkind : kind = .bonkPoolCreate
    · subst hkind
      obtain ⟨known, hreads⟩ := Launch.reads_of_demands rfl h hd
      rw [Launch.variant_of_mem_format h, hreads]
      refine ⟨⟨List.mem_singleton_self _, fun _ => known⟩, ?_⟩
      have hmark : Variant.mark .bonkPoolCreate = [] := rfl
      rw [Variant.logged, stated_bonkPoolCreate, List.map_append, hmark, List.append_nil]
      rfl
    · obtain ⟨hreports, hne, -, hreads⟩ := reads_of_mem_format hkind h (Launch.isConstant v)
      exact ⟨⟨hreports, fun e => absurd e hne⟩, hreads⟩
  complete t v h := by
    by_cases hkind : kind = .bonkPoolCreate
    · subst hkind
      have ht : t = .bonkPoolCreate := List.mem_singleton.1 h.1
      have hbefore : (Item.row [.poolState, .creator, .config]).flatMap Item.demands = [] := rfl
      obtain ⟨form, hform, hd⟩ := Launch.exists_form hbefore (h.2 ht)
      exact ⟨form, hform, (Launch.variant_of_mem_format hform).trans ht.symm, hd⟩
    · obtain ⟨form, hform, ht⟩ := exists_form_of_mem_reports h.1
      obtain ⟨-, -, hnone, -⟩ := reads_of_mem_format hkind hform true
      rw [List.isEmpty_iff] at hnone
      refine ⟨form, hform, ht, ?_⟩
      rw [hnone]
      exact List.forall_mem_nil _

/-! ## The event of a body -/

/-- A form of a kind fills in fields of its variant only. -/
theorem mem_stated_or_appended {u : Valuation} (hform : form ∈ kind.format)
    (hreads : form.reads = form.variant.logged u) {f : Field} (hf : f ∈ form.fills) :
    f ∈ form.variant.stated (Launch.isConstant u) ∨ f ∈ form.variant.appended := by
  cases fills_of_mem_format hform f hf with
  | inl hread => exact .inl (Variant.field_mem_logged.1 (hreads ▸ hread))
  | inr htail => exact .inr htail

/-- The event that a form gives has the values that the form gives. -/
theorem get_ofValuation_form {u v : Valuation} (hform : form ∈ kind.format)
    (hreads : form.reads = form.variant.logged u) (hzero : ∀ f ∉ form.fills, v f = f.type.zero)
    (m : Metadata) : (Event.ofValuation m form.variant v).get = v := by
  refine Event.get_ofValuation_of_zero (fun f hf => hzero f fun hfills => ?_) m
  cases mem_stated_or_appended hform hreads hfills with
  | inl h => exact hf (Variant.mem_fields_of_mem_stated h)
  | inr h => exact hf (Variant.mem_fields_of_mem_appended h)

variable {body s : Bytes} {m : Metadata} {e : Event} {t : Variant} {v : Valuation}

/-- A body that is understood begins with a spelling of the event that comes of it. -/
theorem spells_of_event? (h : kind.event? body m = some e) :
    ∃ s, s <+: body ∧ kind.Spells e.variant e.get s := by
  obtain ⟨⟨t, v⟩, hread, rfl⟩ := Option.map_eq_some_iff.1 h
  obtain ⟨form, hform, rfl, hadmits, ⟨s, hs, hspells⟩, hreads, -, hzero⟩ :=
    (format_follows kind).spells_of_read hread
  refine ⟨s, hs, ?_⟩
  show kind.Spells form.variant (Event.ofValuation m form.variant v).get s
  rw [get_ofValuation_form hform hreads hzero]
  exact ⟨hadmits, hspells⟩

/-- A body that begins with a spelling is understood, whatever follows, and so are the optional
fields if they do follow. -/
theorem event?_of_spells (h : kind.Spells t v s) (rest : Bytes) (m : Metadata) :
    ∃ e, kind.event? (s ++ rest) m = some e ∧ e.metadata = m ∧ e.variant = t ∧
      (∀ f ∈ t.stated (Launch.isConstant v), e.get f = v f) ∧
      (∀ f, f ∉ t.stated (Launch.isConstant v) → f ∉ t.appended → e.get f = f.type.zero) ∧
      ∀ s', v.Spells (t.appended.map .field) s' → s' <+: rest →
        ∀ f ∈ t.appended, e.get f = v f := by
  obtain ⟨hadmits, hspells⟩ := h
  obtain ⟨form, hform, rfl, hreads, w, hread, hvalues, -, hzero, htail⟩ :=
    (format_follows kind).read_of_spells hadmits hspells rest
  have hget : (Event.ofValuation m form.variant w).get = w :=
    get_ofValuation_form hform hreads hzero m
  refine ⟨Event.ofValuation m form.variant w, by rw [event?, hread]; rfl, rfl, rfl, ?_, ?_, ?_⟩
  · intro f hf
    rw [hget, hvalues f (Variant.field_mem_logged.2 hf)]
  · intro f hstated happended
    rw [hget]
    exact hzero f fun hfills =>
      (mem_stated_or_appended hform hreads hfills).elim hstated happended
  · rw [tail_of_mem_format hform] at htail
    intro s' hs' hprefix f hf
    rw [hget, htail s' hs' hprefix f hf]

/-- Every value that has a spelling comes back from it. -/
theorem event?_spell (hadmits : kind.Admits t v)
    (hfits : v.Fits (t.logged v ++ t.appended.map .field)) (rest : Bytes) (m : Metadata) :
    kind.event? (v.spell (t.logged v ++ t.appended.map .field) ++ rest) m =
      some (Event.ofValuation m t
        (v.only (t.stated (Launch.isConstant v) ++ t.appended))) := by
  obtain ⟨s, s', hs, hspells, hspells'⟩ := Valuation.spells_append.1 (Valuation.spells_spell hfits)
  obtain ⟨e, he, rfl, rfl, hstated, hzero, happended⟩ :=
    event?_of_spells ⟨hadmits, hspells⟩ (s' ++ rest) m
  rw [hs, List.append_assoc, he]
  refine congrArg some (Event.ext_get rfl rfl fun f => ?_)
  rw [Event.get_ofValuation, Valuation.only]
  by_cases h₁ : f ∈ e.variant.stated (Launch.isConstant v)
  · rw [if_pos (Variant.mem_fields_of_mem_stated h₁), if_pos (List.mem_append_left _ h₁),
      hstated f h₁]
  · by_cases h₂ : f ∈ e.variant.appended
    · rw [if_pos (Variant.mem_fields_of_mem_appended h₂), if_pos (List.mem_append_right _ h₂),
        happended s' hspells' ⟨rest, rfl⟩ f h₂]
    · rw [if_neg (fun h => (List.mem_append.1 h).elim h₁ h₂), ite_self, hzero f h₁ h₂]

/-- A log payload of a kind is understood exactly when its body begins with a spelling of what a
log of the kind states, whatever follows. The event then has the variant and the values spelled, the
given metadata, and zero in every field that is neither stated nor appended by later versions.
Values that are written and read come back, those that may be missing among them. -/
theorem event?_spelled (kind : LogKind) (body : Bytes) (m : Metadata) :
    ((kind.event? body m).isSome ↔ ∃ t v s, kind.Spells t v s ∧ s <+: body) ∧
    (∀ t v s, kind.Spells t v s → s <+: body →
      ∃ e, kind.event? body m = some e ∧ e.metadata = m ∧ e.variant = t ∧
        (∀ f ∈ t.stated (Launch.isConstant v), e.get f = v f) ∧
        ∀ f, f ∉ t.stated (Launch.isConstant v) → f ∉ t.appended → e.get f = f.type.zero) ∧
    ∀ t v, kind.Admits t v → v.Fits (t.logged v ++ t.appended.map .field) →
      kind.event? (v.spell (t.logged v ++ t.appended.map .field) ++ body) m =
        some (Event.ofValuation m t
          (v.only (t.stated (Launch.isConstant v) ++ t.appended))) := by
  have forward : ∀ t v s, kind.Spells t v s → s <+: body →
      ∃ e, kind.event? body m = some e ∧ e.metadata = m ∧ e.variant = t ∧
        (∀ f ∈ t.stated (Launch.isConstant v), e.get f = v f) ∧
        ∀ f, f ∉ t.stated (Launch.isConstant v) → f ∉ t.appended → e.get f = f.type.zero := by
    rintro t v s hs ⟨rest, rfl⟩
    obtain ⟨e, he, hm, ht, hstated, hzero, -⟩ := event?_of_spells hs rest m
    exact ⟨e, he, hm, ht, hstated, hzero⟩
  refine ⟨⟨fun h => ?_, ?_⟩, forward, fun t v hadmits hfits => event?_spell hadmits hfits body m⟩
  · obtain ⟨e, he⟩ := Option.isSome_iff_exists.1 h
    obtain ⟨s, hs, hspells⟩ := spells_of_event? he
    exact ⟨e.variant, e.get, s, hspells, hs⟩
  · rintro ⟨t, v, s, hs, hprefix⟩
    obtain ⟨e, he, -⟩ := forward t v s hs hprefix
    rw [he]
    rfl

/-- A liquidity of seven before the change, and nothing else. -/
def sevenBefore : Valuation :=
  Valuation.zero.set .lpAmountBefore (7 : UInt64)

/-- The byte 1 behind the fields makes a change of liquidity a withdrawal, whatever byte follows. -/
theorem event?_spelled_withdrawal :
    ∃ e, cpmmLpChange.event?
        (sevenBefore.spell (Variant.logged .raydiumCpmmWithdraw sevenBefore) ++ [9])
        Metadata.empty = some e ∧
      e.variant = .raydiumCpmmWithdraw ∧ e.get .lpAmountBefore = (7 : UInt64) := by
  have fits : sevenBefore.Fits (Variant.logged .raydiumCpmmWithdraw sevenBefore) := by
    intro f _
    by_cases hf : Field.lpAmountBefore = f
    · subst hf
      trivial
    · rw [sevenBefore, Valuation.set_of_ne hf]
      exact WireType.fits_zero f.type
  have admits : cpmmLpChange.Admits .raydiumCpmmWithdraw sevenBefore :=
    ⟨by decide, fun h => nomatch h⟩
  obtain ⟨e, he, -, ht, hstated, -⟩ := (event?_spelled cpmmLpChange _ Metadata.empty).2.1
    .raydiumCpmmWithdraw sevenBefore _ ⟨admits, Valuation.spells_spell fits⟩ ⟨[9], rfl⟩
  exact ⟨e, he, ht, hstated .lpAmountBefore (by decide)⟩

end LogKind

end DexFeed
