import DexFeed.Proofs.Payload.Reading
import DexFeed.Proofs.Wire.Extent

/-!
# Additions behind a body

Every addition is looked for by itself, in whatever bytes the one in front of it has left, so a
narrow addition behind a wide one could be filled from bytes that belong to the wide one. The
additions of a format are orderly, which rules this out: none is narrower than one in front of it,
unless that one leads those behind it. What is read is then the longest run of additions that fits,
each from its own place, and the bytes behind the run are ignored.
-/

namespace DexFeed

namespace Addition

/-- Additions of plain types and different fields, of which none is narrower than an addition in
front of it that does not lead it. -/
def Orderly (additions : List Addition) : Prop :=
  (∀ a ∈ additions, a.field.type.isPlain = true) ∧
    (additions.Pairwise fun a b =>
      a.leads = true ∨ a.field.type.width ≤ b.field.type.width) ∧
    (additions.map field).Nodup

instance (additions : List Addition) : Decidable (Orderly additions) :=
  inferInstanceAs (Decidable (_ ∧ _ ∧ _))

/-- Additions that are each looked for by itself have the given fields. -/
theorem map_field_each (fields : List Field) : (each fields).map field = fields := by
  rw [each, List.map_map]
  exact List.map_id _

variable {a : Addition} {additions : List Addition}

/-- The first of orderly additions has a plain type. -/
theorem Orderly.plain (h : Orderly (a :: additions)) : a.field.type.isPlain = true :=
  h.1 a List.mem_cons_self

/-- Behind the first one orderly additions are orderly. -/
theorem Orderly.tail (h : Orderly (a :: additions)) : Orderly additions :=
  ⟨fun b hb => h.1 b (List.mem_cons_of_mem a hb), (List.pairwise_cons.1 h.2.1).2,
    (List.nodup_cons.1 h.2.2).2⟩

/-- The field of the first of orderly additions is not read again. -/
theorem Orderly.not_mem (h : Orderly (a :: additions)) : a.field ∉ additions.map field :=
  (List.nodup_cons.1 h.2.2).1

end Addition

open Addition

variable {a : Addition} {additions : List Addition} {bs : Bytes} {i k : Nat} {f : Field}

/-! ## One addition -/

/-- Additions that are all too wide leave everything as it is. -/
theorem readTail_of_forall_lt
    (h : ∀ a ∈ additions, a.field.type.isPlain = true ∧ bs.length < a.field.type.width)
    (v : Valuation) : readTail v bs additions = v := by
  induction additions with
  | nil => rfl
  | cons a additions ih =>
    obtain ⟨plain, hwide⟩ := h a List.mem_cons_self
    have skipped : a.field.type.parse bs = none := WireType.parse_eq_none plain hwide
    have later : readTail v bs additions = v := ih fun b hb => h b (List.mem_cons_of_mem a hb)
    simp only [readTail, skipped, later, ite_self]

/-- Where the first addition does not fit none is read: those behind it are not looked for, or they
are no narrower. -/
theorem readTail_of_lt (orderly : Orderly (a :: additions))
    (h : bs.length < a.field.type.width) (v : Valuation) :
    readTail v bs (a :: additions) = v := by
  have skipped : a.field.type.parse bs = none := WireType.parse_eq_none orderly.plain h
  by_cases hleads : a.leads = true
  · simp only [readTail, skipped, if_pos hleads]
  · refine readTail_of_forall_lt (fun b hb => ?_) v
    cases List.mem_cons.1 hb with
    | inl hba =>
      subst hba
      exact ⟨orderly.plain, h⟩
    | inr hb =>
      have hwidth : a.field.type.width ≤ b.field.type.width :=
        ((List.pairwise_cons.1 orderly.2.1).1 b hb).resolve_left hleads
      exact ⟨orderly.tail.1 b hb, Nat.lt_of_lt_of_le h hwidth⟩

/-- Where the first addition fits it is read from the front, and the others from behind it. -/
theorem exists_readTail_cons (orderly : Orderly (a :: additions))
    (h : a.field.type.width ≤ bs.length) (v : Valuation) :
    ∃ x, a.field.type.Spells x (bs.take a.field.type.width) ∧
      readTail v bs (a :: additions) =
        readTail (v.set a.field x) (bs.drop a.field.type.width) additions := by
  obtain ⟨x, hparse, hspells⟩ := WireType.exists_parse orderly.plain h
  exact ⟨x, hspells, by rw [readTail, hparse]⟩

/-! ## All additions -/

/-- An addition that fits behind those in front of it is read from its own place. -/
theorem readTail_of_fits (orderly : Orderly additions)
    (hf : (additions.map field)[i]? = some f)
    (h : Field.span ((additions.map field).take (i + 1)) ≤ bs.length) (v : Valuation) :
    f.type.Spells (readTail v bs additions f)
      ((bs.drop (Field.span ((additions.map field).take i))).take f.type.width) := by
  induction additions generalizing v bs i with
  | nil => contradiction
  | cons a additions ih =>
    rw [List.map_cons, List.take_succ_cons, Field.span] at h
    obtain ⟨x, hx, hstep⟩ :=
      exists_readTail_cons orderly (Nat.le_trans (Nat.le_add_right _ _) h) v
    rw [hstep]
    cases i with
    | zero =>
      cases hf
      rw [readTail_of_not_mem orderly.not_mem, Valuation.set_self]
      exact hx
    | succ i =>
      have hroom : Field.span ((additions.map field).take (i + 1)) ≤
          (bs.drop a.field.type.width).length := by
        rw [List.length_drop]
        omega
      rw [List.map_cons, List.take_succ_cons, Field.span, ← List.drop_drop]
      exact ih orderly.tail hf hroom _

/-- An addition that does not fit behind those in front of it is not read. -/
theorem readTail_of_not_fits (orderly : Orderly additions)
    (hf : (additions.map field)[i]? = some f)
    (h : bs.length < Field.span ((additions.map field).take (i + 1))) (v : Valuation) :
    readTail v bs additions f = v f := by
  induction additions generalizing v bs i with
  | nil => contradiction
  | cons a additions ih =>
    rw [List.map_cons, List.take_succ_cons, Field.span] at h
    by_cases hroom : a.field.type.width ≤ bs.length
    · obtain ⟨x, -, hstep⟩ := exists_readTail_cons orderly hroom v
      rw [hstep]
      cases i with
      | zero =>
        rw [List.take_zero, Field.span] at h
        omega
      | succ i =>
        rw [List.map_cons, List.getElem?_cons_succ] at hf
        have hshort : (bs.drop a.field.type.width).length <
            Field.span ((additions.map field).take (i + 1)) := by
          rw [List.length_drop]
          omega
        have hne : a.field ≠ f := by
          rintro rfl
          exact orderly.not_mem (List.mem_of_getElem? hf)
        rw [ih orderly.tail hf hshort, Valuation.set_of_ne hne]
    · rw [readTail_of_lt orderly (Nat.lt_of_not_le hroom)]

/-- An addition that fits is the same whatever bytes follow. -/
theorem readTail_append_of_fits (orderly : Orderly additions)
    (hf : (additions.map field)[i]? = some f)
    (h : Field.span ((additions.map field).take (i + 1)) ≤ bs.length) (more : Bytes)
    (v : Valuation) : readTail v (bs ++ more) additions f = readTail v bs additions f := by
  have hspan : Field.span ((additions.map field).take (i + 1)) =
      Field.span ((additions.map field).take i) + f.type.width := Field.span_take_succ hf
  have hlonger : Field.span ((additions.map field).take (i + 1)) ≤ (bs ++ more).length := by
    rw [List.length_append]
    exact Nat.le_add_right_of_le h
  have hwhole := readTail_of_fits orderly hf hlonger v
  -- The bytes of the addition lie before what follows.
  rw [List.drop_append_of_le_length (by omega),
    List.take_append_of_le_length (by rw [List.length_drop]; omega)] at hwhole
  exact WireType.spells_inj hwhole (readTail_of_fits orderly hf h v)

/-- The bytes behind the run of additions that fits are ignored. -/
theorem readTail_take_run (orderly : Orderly additions)
    (hrun : Field.Run (additions.map field) bs.length k) (v : Valuation) :
    readTail v (bs.take (Field.span ((additions.map field).take k))) additions =
      readTail v bs additions := by
  have hlength : (bs.take (Field.span ((additions.map field).take k))).length =
      Field.span ((additions.map field).take k) := List.length_take_of_le hrun.fits
  funext f
  by_cases hmem : f ∈ additions.map field
  · obtain ⟨i, hf⟩ := List.getElem?_of_mem hmem
    have hi : i < (additions.map field).length := (List.getElem?_eq_some_iff.1 hf).1
    by_cases hik : i < k
    · have hfits : Field.span ((additions.map field).take (i + 1)) ≤
          (bs.take (Field.span ((additions.map field).take k))).length := by
        rw [hlength]
        exact Field.span_take_le _ hik
      have happend := readTail_append_of_fits orderly hf hfits
        (bs.drop (Field.span ((additions.map field).take k))) v
      rw [List.take_append_drop] at happend
      exact happend.symm
    · have hlong : bs.length < Field.span ((additions.map field).take (i + 1)) :=
        Nat.lt_of_not_le fun hle => hik ((hrun.lt_iff hi).2 hle)
      have hshort : (bs.take (Field.span ((additions.map field).take k))).length <
          Field.span ((additions.map field).take (i + 1)) := by
        rw [hlength]
        exact Nat.lt_of_le_of_lt hrun.fits hlong
      rw [readTail_of_not_fits orderly hf hshort, readTail_of_not_fits orderly hf hlong]
  · rw [readTail_of_not_mem hmem, readTail_of_not_mem hmem]

end DexFeed
