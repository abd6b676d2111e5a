import DexFeed.Payload.Launch
import DexFeed.Proofs.Payload.Reading

/-!
# What a launch states

The three forms of a launch, one for each type of curve, are put together here: a launch is
described by one list of fields, of which the base tokens for sale belong to the constant product
curve only, and its curve has to be of one of the three known types. A body decides by the type it
states which form reads it.
-/

namespace DexFeed.Launch

/-- The type of the curve. -/
def curve (v : Valuation) : UInt8 :=
  v .curveType

/-- Whether the curve is the constant product curve. -/
def isConstant (v : Valuation) : Bool :=
  curve v == 0

/-- Whether the curve is of a known type. -/
def Known (v : Valuation) : Prop :=
  curve v = 0 ∨ curve v = 1 ∨ curve v = 2

/-- The fields that describe a launch, in the order in which they stand in a body. -/
def fields (constant : Bool) : List Field :=
  [.decimals, .name, .symbol, .uri, .curveType, .supply] ++
    (if constant then [.totalBaseSell] else []) ++
    [.totalQuoteFundRaising, .migrateType, .totalLockedAmount, .cliffPeriod, .unlockPeriod]

variable {before : List Item} {v : Valuation} {form : Form}

/-- The form of a launch on a curve, behind some other items. -/
def formOf (before curve : List Item) : Form :=
  ⟨.bonkPoolCreate, before ++ mint ++ curve ++ vesting, []⟩

/-- A launch has one form for each of the three curves. -/
theorem mem_format : form ∈ format before ↔ form = formOf before constantCurve ∨
    form = formOf before (simpleCurve 1) ∨ form = formOf before (simpleCurve 2) := by
  simp only [format, List.map_cons, List.map_nil, List.mem_cons, List.not_mem_nil, or_false, formOf]

/-- All forms of a launch report the same variant. -/
theorem variant_of_mem_format (h : form ∈ format before) : form.variant = .bonkPoolCreate := by
  rcases mem_format.1 h with rfl | rfl | rfl <;> rfl

/-- What a form of a launch reads behind the other items. -/
theorem reads_formOf (curve : List Item) : (formOf before curve).reads =
    before.flatMap Item.reads ++ (mint ++ curve ++ vesting).flatMap Item.reads := by
  simp only [Form.reads, formOf, List.append_assoc, List.flatMap_append]

/-- A form of a launch demands the type of its curve. -/
theorem demands_formOf (hbefore : before.flatMap Item.demands = []) (curve : List Item) :
    (formOf before curve).demands = curve.flatMap Item.demands := by
  have hmint : mint.flatMap Item.demands = [] := rfl
  have hvesting : vesting.flatMap Item.demands = [] := rfl
  simp only [Form.demands, formOf, List.flatMap_append, hbefore, hmint, hvesting, List.nil_append,
    List.append_nil]

/-- A valuation meets the demands of a constant product curve by its type. -/
theorem has_constantCurve : v.Has (constantCurve.flatMap Item.demands) ↔ curve v = 0 :=
  List.forall_mem_singleton

/-- The form of a curve with one amount demands its type and nothing else. -/
theorem has_simpleCurve (type : UInt8) :
    v.Has ((simpleCurve type).flatMap Item.demands) ↔ curve v = type :=
  List.forall_mem_singleton

/-- The constant product curve is the one of type 0. -/
theorem isConstant_of_curve {type : UInt8} (h : curve v = type) : isConstant v = (type == 0) := by
  rw [isConstant, h]

/-- A form of a launch whose demands are met reads the fields of a launch on a curve of a known
type. -/
theorem reads_of_demands (hbefore : before.flatMap Item.demands = []) (hform : form ∈ format before)
    (hd : v.Has form.demands) :
    Known v ∧ form.reads = before.flatMap Item.reads ++ (fields (isConstant v)).map .field := by
  rcases mem_format.1 hform with rfl | rfl | rfl
  · rw [demands_formOf hbefore, has_constantCurve] at hd
    exact ⟨.inl hd, by rw [reads_formOf, isConstant_of_curve hd]; rfl⟩
  · rw [demands_formOf hbefore, has_simpleCurve] at hd
    exact ⟨.inr (.inl hd), by rw [reads_formOf, isConstant_of_curve hd]; rfl⟩
  · rw [demands_formOf hbefore, has_simpleCurve] at hd
    exact ⟨.inr (.inr hd), by rw [reads_formOf, isConstant_of_curve hd]; rfl⟩

/-- A curve of a known type has a form whose demands are met. -/
theorem exists_form (hbefore : before.flatMap Item.demands = []) (h : Known v) :
    ∃ form ∈ format before, v.Has form.demands := by
  rcases h with h | h | h
  · refine ⟨formOf before constantCurve, mem_format.2 (.inl rfl), ?_⟩
    rw [demands_formOf hbefore]
    exact has_constantCurve.2 h
  · refine ⟨formOf before (simpleCurve 1), mem_format.2 (.inr (.inl rfl)), ?_⟩
    rw [demands_formOf hbefore]
    exact (has_simpleCurve 1).2 h
  · refine ⟨formOf before (simpleCurve 2), mem_format.2 (.inr (.inr rfl)), ?_⟩
    rw [demands_formOf hbefore]
    exact (has_simpleCurve 2).2 h

/-- The type of the curve tells the forms of a launch apart. -/
theorem format_exclusive (before : List Item) : (format before).Exclusive := by
  have apart : ∀ {x y : UInt8} {is js : List Item}, x ≠ y → ∀ body,
      (formOf before (.exactly .curveType x :: is)).read body = none ∨
        (formOf before (.exactly .curveType y :: js)).read body = none := by
    intro x y is js hne body
    have hx : (formOf before (.exactly .curveType x :: is)).items =
        (before ++ mint) ++ .exactly .curveType x :: (is ++ vesting) := by
      simp only [formOf, List.append_assoc, List.cons_append]
    have hy : (formOf before (.exactly .curveType y :: js)).items =
        (before ++ mint) ++ .exactly .curveType y :: (js ++ vesting) := by
      simp only [formOf, List.append_assoc, List.cons_append]
    exact Form.read_eq_none_or (@Item.exactly_clash .curveType x y hne) hx hy body
  refine List.Pairwise.cons ?_ (List.Pairwise.cons ?_ (List.pairwise_singleton _ _))
  · rintro form hform body
    rcases List.mem_cons.1 hform with rfl | hform
    · exact apart (by decide) body
    · rw [List.mem_singleton.1 hform]
      exact apart (by decide) body
  · rintro form hform body
    rw [List.mem_singleton.1 hform]
    exact apart (by decide) body

end DexFeed.Launch
