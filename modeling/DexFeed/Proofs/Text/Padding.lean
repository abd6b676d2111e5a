import DexFeed.Proofs.Text.Leniency

/-!
# The padding is part of the block

The characters of padding are counted on the whole text, and as many bytes are cut off what the
block reader gives for the text without blanks, line ends and dashes around it. The two counts fit
together as long as the whole text reaches the block reader: padding stands at the end of a text
that passes the checks, so nothing behind it is trimmed, it belongs to what the block reader looks
at, and where it gives a block at all it gives at least the group that the padding fills up.

A text of `2 ^ 31` characters or more has a length that wraps on its way to the block reader. Where
nothing is left of it the block is empty, and reading it overruns if the text ends in padding.
-/

namespace DexFeed.Base64

variable {text block : Bytes}

/-- Trimming makes no text longer. -/
theorem length_trimBlock_le (text : Bytes) : (trimBlock text).length ≤ text.length := by
  obtain ⟨front, back, hsplit, -⟩ := exists_trimBlock text
  have hlength := congrArg List.length hsplit
  rw [List.length_append, List.length_append] at hlength
  omega

/-- The block has at most three bytes for each four characters of the text. -/
theorem length_block_le (hblock : blocks? (measured text) = some block) :
    block.length ≤ 3 * text.length / 4 := by
  have htrim := length_trimBlock_le (measured text)
  have hmeasured : (measured text).length ≤ text.length := List.length_take_le' _ _
  rw [length_groups? hblock]
  omega

/-- Of a text with a length between `2 ^ 31` and `2 ^ 32` nothing reaches the block reader. -/
theorem measured_eq_nil (hlow : 2 ^ 31 ≤ text.length) (hhigh : text.length ≤ 2 ^ 32) :
    measured text = [] := by
  have hnegative : (Int32.ofNat text.length).toNatClampNeg = 0 := by
    rw [Int32.toNatClampNeg, Int32.toInt_ofNat', Int.toNat_eq_zero, Int.bmod, Int32.size]
    split <;> omega
  rw [measured, hnegative, List.take_zero]

namespace Checked

/-- The counted padding ends the text. -/
theorem getLast?_eq (h : Checked text) (hpad : 0 < padCount text) :
    text.getLast? = some padding := by
  obtain ⟨n, hn⟩ := Nat.exists_eq_add_one.mpr hpad
  rw [eq_append_padding h.bare, hn, List.replicate_succ', ← List.append_assoc, List.getLast?_concat]

/-- The counted padding also ends what is left of the whole text when it is trimmed. -/
theorem padCount_le_length_trimBlock (h : Checked text) :
    padCount text ≤ (trimBlock text).length := by
  obtain ⟨front, back, hsplit, hblank, htrailer, -⟩ := exists_trimBlock text
  have hfront : padding ∉ front :=
    padding_not_mem_of_trailers fun c hc => isTrailer_of_isBlank (hblank c hc)
  obtain ⟨inner, hinner, -⟩ :=
    exists_inner hfront htrailer h.bare (hsplit.symm.trans (eq_append_padding h.bare))
  rw [hinner, List.length_append, List.length_replicate]
  exact Nat.le_add_left _ _

/-- Where the whole text reaches the block reader, a text with padding gives a group. -/
theorem block_ne_nil (h : Checked text) (hlength : text.length < 2 ^ 31)
    (hblock : blocks? (measured text) = some block) (hpad : 0 < padCount text) : block ≠ [] := by
  rw [measured_of_lt hlength] at hblock
  have hread : trimBlock text ≠ [] :=
    List.length_pos_iff.mp (Nat.lt_of_lt_of_le hpad h.padCount_le_length_trimBlock)
  have hthree := three_le_length_groups? hread hblock
  exact List.length_pos_iff.mp (Nat.lt_of_lt_of_le (by decide) hthree)

end Checked

/-- A block that is not empty has at least one group. -/
theorem three_le_length_block (hblock : blocks? (measured text) = some block) (hne : block ≠ []) :
    3 ≤ block.length := by
  refine three_le_length_groups? (fun hnil => hne ?_) hblock
  rw [blocks?, hnil, groups?, Option.some.injEq] at hblock
  exact hblock.symm

/-- Where the block reader gives a block for a checked text, the counted padding is no longer than
the block exactly if the text has fewer than `2 ^ 31` characters, has no padding or leaves a block
that is not empty. Then what is left of the block is its length less the padding, at most three
bytes for each four characters of the text, and a block of a text with padding has at least one
group. Otherwise reading overruns. Wherever padding is counted the text ends in it. -/
theorem padCount_le_length_block (h : Checked text)
    (hblock : blocks? (measured text) = some block) :
    (padCount text ≤ block.length ↔ text.length < 2 ^ 31 ∨ padCount text = 0 ∨ block ≠ []) ∧
      (padCount text ≤ block.length → ∃ bs, read text = .bytes bs ∧
        bs.length + padCount text = block.length ∧ bs.length ≤ 3 * text.length / 4) ∧
      (padCount text ≤ block.length → 0 < padCount text → 3 ≤ block.length) ∧
      (block.length < padCount text → read text = .overrun) ∧
      (0 < padCount text → text.getLast? = some padding) := by
  have hread := h.read_eq
  rw [hblock] at hread
  refine ⟨⟨fun hle => ?_, fun hcases => ?_⟩, fun hle => ?_, fun hle hpad => ?_, fun hlt => ?_,
    h.getLast?_eq⟩
  · rcases Nat.eq_zero_or_pos (padCount text) with hzero | hpad
    · exact Or.inr (Or.inl hzero)
    · exact Or.inr (Or.inr (List.length_pos_iff.mp (Nat.lt_of_lt_of_le hpad hle)))
  · have htwo := padCount_le_two text
    rcases Nat.eq_zero_or_pos (padCount text) with hzero | hpad
    · rw [hzero]
      exact Nat.zero_le _
    · have hne : block ≠ [] := by
        -- Only the first case needs the whole text to reach the block reader.
        rcases hcases with hlength | hzero | hne
        · exact h.block_ne_nil hlength hblock hpad
        · exact absurd hzero (Nat.ne_of_gt hpad)
        · exact hne
      have hthree := three_le_length_block hblock hne
      omega
  · refine ⟨block.take (block.length - padCount text), ?_, ?_, ?_⟩
    · rw [hread, Reading.ofBlock_of_le hle]
    · rw [List.length_take]
      omega
    · exact Nat.le_trans (List.length_take_le' _ _) (length_block_le hblock)
  · have hne : block ≠ [] := List.length_pos_iff.mp (Nat.lt_of_lt_of_le hpad hle)
    exact three_le_length_block hblock hne
  · rw [hread, Reading.ofBlock, if_pos hlt]

/-- A text of `2 ^ 31` characters that ends in two characters of padding. -/
def overlong : Bytes :=
  List.replicate (2 ^ 31 - 2) 65 ++ List.replicate 2 padding

/-- Nothing of it reaches the block reader, and the padding outweighs the empty block. -/
theorem padCount_le_length_block_overlong :
    overlong.length = 2 ^ 31 ∧ Checked overlong ∧ blocks? (measured overlong) = some [] ∧
      padCount overlong = 2 ∧ read overlong = .overrun := by
  have hlength : overlong.length = 2 ^ 31 := by
    rw [overlong, List.length_append, List.length_replicate, List.length_replicate]
    omega
  have hbody : padding ∉ List.replicate (2 ^ 31 - 2) (65 : UInt8) :=
    fun hmem => absurd (List.eq_of_mem_replicate hmem) (by decide)
  have hpad : padCount overlong = 2 := padCount_append (Nat.le_refl 2) hbody
  have hfront : overlong.take (overlong.length - 2) = List.replicate (2 ^ 31 - 2) 65 := by
    rw [overlong, List.length_append, List.length_replicate, List.length_replicate,
      Nat.add_sub_cancel]
    exact List.take_left' List.length_replicate
  have h : Checked overlong := by
    refine ⟨?_, ?_⟩
    · rw [hlength]
      omega
    · rw [hpad, hfront]
      exact hbody
  have hblock : blocks? (measured overlong) = some [] := by
    rw [measured_eq_nil hlength.ge (hlength.trans_le (by decide))]
    rfl
  obtain ⟨-, -, -, hoverrun, -⟩ := padCount_le_length_block h hblock
  refine ⟨hlength, h, hblock, hpad, hoverrun ?_⟩
  rw [hpad]
  exact Nat.zero_lt_two

end DexFeed.Base64
