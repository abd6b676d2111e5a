import DexFeed.Event.Field
import DexFeed.Proofs.Wire.Spelling

/-!
# How far values reach

A reader of values looks at the bytes that it takes and at nothing behind them, so more bytes behind
never change what it has read. The values of most types all take the same number of bytes, and any
bytes of that number are a value: of such a plain type there is a value to read exactly where there
is room for one. `Field.Run` says how many fields of plain types, one after the other, fit into some
room.
-/

namespace DexFeed

/-! ## Readers that look at nothing behind what they take -/

section Reader

variable {α β : Type} {read : Bytes → Option (α × Bytes)} {bs rest : Bytes} {x : α}

/-- What a reader takes off the front of a byte string it takes whatever comes behind. -/
def PrefixStable (read : Bytes → Option (α × Bytes)) : Prop :=
  ∀ bs x rest, read bs = some (x, rest) →
    ∃ s, bs = s ++ rest ∧ ∀ more, read (s ++ more) = some (x, more)

/-- A reader that takes nothing is stable. -/
theorem PrefixStable.pure (x : α) : PrefixStable fun bs => some (x, bs) := by
  intro bs y rest h
  cases h
  exact ⟨[], rfl, fun _ => rfl⟩

/-- A reader that always fails is stable. -/
theorem PrefixStable.fail : PrefixStable fun _ => (none : Option (α × Bytes)) :=
  fun _ _ _ h => nomatch h

/-- Reading something and then something that depends on it. -/
theorem PrefixStable.bind (h : PrefixStable read) {next : α → Bytes → Option (β × Bytes)}
    (hnext : ∀ x, PrefixStable (next x)) :
    PrefixStable fun bs => (read bs).bind fun p => next p.1 p.2 := by
  intro bs y rest hread
  obtain ⟨⟨x, mid⟩, hx, hy⟩ := Option.bind_eq_some_iff.1 hread
  obtain ⟨s, rfl, hs⟩ := h bs x mid hx
  obtain ⟨s', rfl, hs'⟩ := hnext x mid y rest hy
  refine ⟨s ++ s', (List.append_assoc s s' rest).symm, fun more => ?_⟩
  show (read (s ++ s' ++ more)).bind _ = some (y, more)
  rw [List.append_assoc, hs, Option.bind_some]
  exact hs' more

/-- To change the value that was read keeps a reader stable. -/
theorem PrefixStable.map (h : PrefixStable read) (f : α → β) :
    PrefixStable fun bs => (read bs).map fun p => (f p.1, p.2) := by
  intro bs y rest hread
  obtain ⟨⟨x, left⟩, hx, e⟩ := Option.map_eq_some_iff.1 hread
  cases e
  obtain ⟨s, rfl, hs⟩ := h bs x left hx
  refine ⟨s, rfl, fun more => ?_⟩
  show (read (s ++ more)).map _ = some (f x, more)
  rw [hs, Option.map_some]

/-- More bytes behind are left over. -/
theorem PrefixStable.append (h : PrefixStable read) (hread : read bs = some (x, rest))
    (more : Bytes) : read (bs ++ more) = some (x, rest ++ more) := by
  obtain ⟨s, rfl, hs⟩ := h bs x rest hread
  rw [List.append_assoc]
  exact hs (rest ++ more)

/-- A beginning of a byte string can only be read if it holds all that is taken. -/
theorem PrefixStable.eq_none_of_lt (h : PrefixStable read) (hread : read bs = some (x, rest))
    {n : Nat} (hn : n + rest.length < bs.length) : read (bs.take n) = none := by
  cases hshort : read (bs.take n) with
  | none => rfl
  | some p =>
    -- What is left of the beginning would have to be left of the whole as well.
    have hwhole : read bs = some (p.1, p.2 ++ bs.drop n) := by
      have hmore := h.append hshort (bs.drop n)
      rw [List.take_append_drop] at hmore
      exact hmore
    rw [hread, Option.some.injEq, Prod.mk.injEq] at hwhole
    have hlength := congrArg List.length hwhole.2
    rw [List.length_append, List.length_drop] at hlength
    omega

end Reader

/-! ## The room that a value takes -/

namespace WireType

variable {t : WireType} {v : t.Value} {bs s rest : Bytes}

/-- What is read off the front as a value is read off the same whatever comes behind. -/
theorem prefixStable_parse (t : WireType) : PrefixStable t.parse := by
  intro bs x rest h
  obtain ⟨s, hs, rfl⟩ := parse_eq_some_iff.1 h
  exact ⟨s, rfl, fun more => parse_eq_some_iff.2 ⟨s, hs, rfl⟩⟩

/-- The spellings of a plain type have its width. -/
theorem length_of_spells (plain : t.isPlain = true) (h : t.Spells v s) : s.length = t.width := by
  cases t with
  | text | keys | side => contradiction
  | flag =>
    obtain ⟨b, rfl, -⟩ := h
    rfl
  | key =>
    cases h
    exact Fixed.length_eq v
  | triple =>
    cases h
    simp [spell, width]
  | _ =>
    cases h
    exact length_littleEndian _ _

/-- A number of so many bytes is read exactly when as many are there. -/
theorem isSome_parseNat_iff {n : Nat} : (parseNat n bs).isSome ↔ n ≤ bs.length := by
  rw [parseNat, Option.isSome_map, Fixed.take?]
  by_cases h : n ≤ bs.length <;> simp [h]

/-- There is a value to read exactly where there is room for one. -/
theorem isSome_parse_iff (plain : t.isPlain = true) :
    (t.parse bs).isSome ↔ t.width ≤ bs.length := by
  constructor
  · intro h
    obtain ⟨⟨v, rest⟩, hparse⟩ := Option.isSome_iff_exists.1 h
    obtain ⟨s, hs, rfl⟩ := parse_eq_some_iff.1 hparse
    rw [List.length_append, length_of_spells plain hs]
    exact Nat.le_add_right _ _
  · intro h
    cases t with
    | text | keys | side => contradiction
    | key => simp [parse, parseKey, Fixed.take?, show 32 ≤ bs.length from h]
    | triple =>
      have h24 : 24 ≤ bs.length := h
      have h16 : 8 ≤ bs.length - 8 := by omega
      have h8 : 8 ≤ bs.length - (8 + 8) := by omega
      simp [parse, parseNat, Fixed.take?, show 8 ≤ bs.length by omega, h16, h8]
    | _ =>
      simp only [parse, Option.isSome_map]
      exact isSome_parseNat_iff.2 h

/-- A plain value is not read from fewer bytes than its width. -/
theorem parse_eq_none (plain : t.isPlain = true) (h : bs.length < t.width) :
    t.parse bs = none := by
  rw [← Option.not_isSome_iff_eq_none, isSome_parse_iff plain]
  omega

/-- Where there is room for a value the bytes that fill it spell one. -/
theorem exists_parse (plain : t.isPlain = true) (h : t.width ≤ bs.length) :
    ∃ v, t.parse bs = some (v, bs.drop t.width) ∧ t.Spells v (bs.take t.width) := by
  obtain ⟨⟨v, rest⟩, hparse⟩ := Option.isSome_iff_exists.1 ((isSome_parse_iff plain).2 h)
  obtain ⟨s, hs, rfl⟩ := parse_eq_some_iff.1 hparse
  have hlength : s.length = t.width := length_of_spells plain hs
  refine ⟨v, ?_, ?_⟩
  · rw [hparse, ← hlength, List.drop_left]
  · rw [← hlength, List.take_left]
    exact hs

end WireType

/-! ## The room that fields take -/

namespace Field

/-- How many bytes the values of fields take together. -/
def span : List Field → Nat
  | [] => 0
  | f :: fs => f.type.width + span fs

/-- One field more is wider by the width of the field. -/
theorem span_take_succ {fields : List Field} {i : Nat} {f : Field} (h : fields[i]? = some f) :
    span (fields.take (i + 1)) = span (fields.take i) + f.type.width := by
  induction fields generalizing i with
  | nil => contradiction
  | cons g fields ih =>
    cases i with
    | zero =>
      cases h
      exact Nat.add_comm _ _
    | succ i =>
      rw [List.getElem?_cons_succ] at h
      rw [List.take_succ_cons, span, ih h, List.take_succ_cons, span, Nat.add_assoc]

/-- More fields are no narrower. -/
theorem span_take_le (fields : List Field) {i j : Nat} (h : i ≤ j) :
    span (fields.take i) ≤ span (fields.take j) := by
  induction fields generalizing i j with
  | nil => simp only [List.take_nil, Nat.le_refl]
  | cons f fields ih =>
    cases i with
    | zero => exact Nat.zero_le _
    | succ i =>
      obtain ⟨j, rfl⟩ : ∃ n, j = n + 1 := ⟨j - 1, by omega⟩
      rw [List.take_succ_cons, List.take_succ_cons, span, span]
      exact Nat.add_le_add_left (ih (Nat.le_of_succ_le_succ h)) _

/-- The first `k` of some fields are all that fit one after the other, without a gap, into a room of
so many bytes. -/
structure Run (fields : List Field) (room k : Nat) : Prop where
  /-- There are so many fields. -/
  le_length : k ≤ fields.length
  /-- They fit. -/
  fits : span (fields.take k) ≤ room
  /-- No more of them fit. -/
  longest : ∀ j ≤ fields.length, span (fields.take j) ≤ room → j ≤ k

/-- Some number of fields fits and no more. -/
theorem exists_run (fields : List Field) (room : Nat) : ∃ k, Run fields room k := by
  induction fields generalizing room with
  | nil => exact ⟨0, Nat.le_refl _, Nat.zero_le _, fun _ hj _ => hj⟩
  | cons f fields ih =>
    by_cases hroom : f.type.width ≤ room
    · obtain ⟨k, hle, hfits, hlongest⟩ := ih (room - f.type.width)
      refine ⟨k + 1, Nat.succ_le_succ hle, ?_, fun j hj hspan => ?_⟩
      · rw [List.take_succ_cons, span]
        omega
      · cases j with
        | zero => exact Nat.zero_le _
        | succ j =>
          rw [List.take_succ_cons, span] at hspan
          exact Nat.succ_le_succ (hlongest j (Nat.le_of_succ_le_succ hj) (by omega))
    · refine ⟨0, Nat.zero_le _, Nat.zero_le _, fun j hj hspan => ?_⟩
      cases j with
      | zero => exact Nat.le_refl _
      | succ j =>
        rw [List.take_succ_cons, span] at hspan
        omega

/-- A field belongs to the run exactly when it fits behind those in front of it. -/
theorem Run.lt_iff {fields : List Field} {room k i : Nat} (h : Run fields room k)
    (hi : i < fields.length) : i < k ↔ span (fields.take (i + 1)) ≤ room :=
  ⟨fun hik => Nat.le_trans (span_take_le fields hik) h.fits,
    fun hfits => h.longest (i + 1) hi hfits⟩

end Field

end DexFeed
