import Mathlib.Data.List.TakeWhile
import DexFeed.Proofs.Text.Base64

/-!
# Which texts are read as base64

Standard base64 is groups of four characters of the alphabet, the last of which may end in padding.
Every such text is read, and so are others: the block reader drops blanks, line ends and dashes that
`read` has counted as characters. The texts that are read are therefore exactly the standard ones
with blanks in front and trailers behind that fill whole groups, and they give what the standard
text inside them gives. Nothing else outside the alphabet is put up with, as long as the text is
short enough for its length to reach the block reader.
-/

namespace DexFeed.Base64

variable {text block front core back : Bytes} {c : UInt8}

/-- Groups of four characters of the alphabet, at most the last two of them padding instead. -/
def IsStandard (text : Bytes) : Prop :=
  text.length % 4 = 0 ∧ ∃ body n, n ≤ 2 ∧ text = body ++ List.replicate n padding ∧
    ∀ c ∈ body, c ∈ alphabet

/-- A standard text with blanks in front and trailers behind that fill whole groups with it. Nothing
trails padding or an empty text. -/
structure Surrounded (front core back : Bytes) : Prop where
  /-- The text inside is standard. -/
  standard : IsStandard core
  /-- What stands in front are blanks. -/
  blank : ∀ c ∈ front, isBlank c = true
  /-- What stands behind are trailers. -/
  trailer : ∀ c ∈ back, isTrailer c = true
  /-- Together they fill whole groups. -/
  whole : (front ++ core ++ back).length % 4 = 0
  /-- Trailers stand behind characters of the alphabet. -/
  bare : back ≠ [] → core ≠ [] ∧ padding ∉ core

/-! ## Groups -/

/-- Exactly the characters that an encoding may have are read inside a block. -/
theorem isSome_paddedSextet?_iff (c : UInt8) : (paddedSextet? c).isSome = true ↔ IsDigit c := by
  rw [paddedSextet?, IsDigit]
  by_cases hc : c = padding
  · simp [hc]
  · rw [if_neg hc, sextet?, ← Option.ne_none_iff_isSome, Ne, List.idxOf?_eq_none_iff]
    simp [hc]

/-- A group is read exactly when its four characters and the groups behind it are. -/
theorem isSome_groups?_cons (c₀ c₁ c₂ c₃ : UInt8) (rest : Bytes) :
    (groups? (c₀ :: c₁ :: c₂ :: c₃ :: rest)).isSome = true ↔
      (∀ c ∈ [c₀, c₁, c₂, c₃], IsDigit c) ∧ (groups? rest).isSome = true := by
  simp only [List.forall_mem_cons, ← isSome_paddedSextet?_iff, groups?]
  cases paddedSextet? c₀ <;> cases paddedSextet? c₁ <;> cases paddedSextet? c₂ <;>
    cases paddedSextet? c₃ <;> cases groups? rest <;> simp

/-- The block reader wants whole groups and no character but digits and padding. -/
theorem isSome_groups?_iff (text : Bytes) :
    (groups? text).isSome = true ↔ text.length % 4 = 0 ∧ ∀ c ∈ text, IsDigit c := by
  induction text using groups?.induct with
  | case1 => simp [groups?]
  | case2 c₀ c₁ c₂ c₃ rest ih =>
    have hlength : (c₀ :: c₁ :: c₂ :: c₃ :: rest).length % 4 = rest.length % 4 := by
      simp only [List.length_cons]
      omega
    have hsplit : c₀ :: c₁ :: c₂ :: c₃ :: rest = [c₀, c₁, c₂, c₃] ++ rest := rfl
    rw [isSome_groups?_cons, ih, hlength, hsplit, List.forall_mem_append]
    exact and_left_comm
  | case3 text hnil hgroup =>
    -- One, two or three characters are no group and no end.
    rcases text with _ | ⟨c₀, _ | ⟨c₁, _ | ⟨c₂, _ | ⟨c₃, rest⟩⟩⟩⟩
    · exact absurd rfl hnil
    · simp [groups?]
    · simp [groups?]
    · simp [groups?]
    · exact absurd rfl (hgroup c₀ c₁ c₂ c₃ rest)

/-- The block reader gives three bytes for each group. -/
theorem length_groups? (h : groups? text = some block) : block.length = text.length / 4 * 3 := by
  induction text using groups?.induct generalizing block with
  | case1 =>
    rw [groups?, Option.some.injEq] at h
    rw [← h]
    rfl
  | case2 a b c d rest ih =>
    simp only [groups?, Option.bind_eq_bind, Option.bind_eq_some_iff, Option.pure_def,
      Option.some.injEq] at h
    obtain ⟨w, -, x, -, y, -, z, -, more, hmore, rfl⟩ := h
    simp only [List.length_cons, ih hmore]
    omega
  | case3 text hnil hgroup =>
    rw [groups?] at h
    · contradiction
    · exact hnil
    · exact hgroup

/-- Where the block reader has anything to read it gives at least one group. -/
theorem three_le_length_groups? (hne : text ≠ []) (h : groups? text = some block) :
    3 ≤ block.length := by
  have hgroups := ((isSome_groups?_iff text).mp (Option.isSome_of_eq_some h)).1
  have hpos := List.length_pos_iff.mpr hne
  rw [length_groups? h]
  omega

/-! ## Padding -/

/-- A text that the checks leave to the block reader. -/
structure Checked (text : Bytes) : Prop where
  /-- It fills whole groups. -/
  whole : text.length % 4 = 0
  /-- In front of the counted padding there is none. -/
  bare : padding ∉ text.take (text.length - padCount text)

/-- At most two characters at the end are counted as padding. -/
theorem padCount_le_two (text : Bytes) : padCount text ≤ 2 := by
  have hcount : padCount text ≤ (text.drop (text.length - 2)).length := List.count_le_length
  rw [List.length_drop] at hcount
  omega

/-- Where the padding was counted and stands nowhere else, it stands at the end. -/
theorem eq_append_padding (h : padding ∉ text.take (text.length - padCount text)) :
    text = text.take (text.length - padCount text) ++ List.replicate (padCount text) padding := by
  have hle : padCount text ≤ (text.drop (text.length - 2)).length := List.count_le_length
  have htail : (text.drop (text.length - padCount text)).length = padCount text := by
    rw [List.length_drop] at hle ⊢
    omega
  have hall : padCount text ≤ (text.drop (text.length - padCount text)).count padding := by
    have hwhole : padCount text ≤ text.count padding :=
      (List.drop_sublist _ _).count_le padding
    have hsplit : text.count padding = (text.take (text.length - padCount text)).count padding +
        (text.drop (text.length - padCount text)).count padding := by
      rw [← List.count_append, List.take_append_drop]
    rw [List.count_eq_zero_of_not_mem h] at hsplit
    omega
  have hcount : (text.drop (text.length - padCount text)).count padding =
      (text.drop (text.length - padCount text)).length :=
    Nat.le_antisymm List.count_le_length (htail.symm ▸ hall)
  have hreplicate : text.drop (text.length - padCount text) =
      List.replicate (padCount text) padding := by
    rw [List.eq_replicate_iff]
    exact ⟨htail, fun c hc => (List.count_eq_length.mp hcount c hc).symm⟩
  rw [← hreplicate, List.take_append_drop]

/-- Of a checked text the counted padding is cut off the block. -/
theorem Checked.read_eq (h : Checked text) :
    read text = .ofBlock (padCount text) (blocks? (measured text)) := by
  have hsplit := eq_append_padding h.bare
  have hwhole := h.whole
  rw [hsplit] at hwhole
  have hread := read_append_padding (padCount_le_two text) h.bare hwhole
  rwa [← hsplit] at hread

/-- A text that is read has passed the checks, and the block reader does not refuse it. -/
theorem checked_of_isSome_decode (h : (decode text).isSome = true) :
    Checked text ∧ (blocks? (measured text)).isSome = true := by
  by_cases hempty : text = []
  · rw [hempty]
    exact ⟨⟨rfl, List.not_mem_nil⟩, rfl⟩
  · rw [decode, read, if_neg hempty] at h
    by_cases hwhole : text.length % 4 ≠ 0
    · rw [if_pos hwhole] at h
      contradiction
    · rw [if_neg hwhole] at h
      by_cases hpad : padding ∈ text.take (text.length - padCount text)
      · simp only [if_pos hpad] at h
        contradiction
      · simp only [if_neg hpad] at h
        refine ⟨⟨not_not.mp hwhole, hpad⟩, ?_⟩
        cases hblock : blocks? (measured text) with
        | none =>
          rw [hblock] at h
          contradiction
        | some block => rfl

/-! ## Trimming -/

/-- While more than three characters remain, a trailer in front is dropped. -/
theorem dropTrailers_cons {rest : Bytes} (hrest : 3 ≤ rest.length) :
    dropTrailers (c :: rest) = if isTrailer c then dropTrailers rest else c :: rest := by
  match rest with
  | _ :: _ :: _ :: _ => rfl

/-- What is dropped are trailers, and whatever was dropped, three characters are left. -/
theorem exists_dropTrailers (text : Bytes) :
    ∃ back, text = back ++ dropTrailers text ∧ (∀ c ∈ back, isTrailer c = true) ∧
      (back ≠ [] → 3 ≤ (dropTrailers text).length) := by
  induction text with
  | nil => exact ⟨[], rfl, by simp, by simp⟩
  | cons c rest ih =>
    by_cases hdrop : 3 ≤ rest.length ∧ isTrailer c = true
    · obtain ⟨back, hback, htrailer, hleft⟩ := ih
      have hrest : dropTrailers (c :: rest) = dropTrailers rest := by
        rw [dropTrailers_cons hdrop.1, if_pos hdrop.2]
      refine ⟨c :: back, ?_, List.forall_mem_cons.mpr ⟨hdrop.2, htrailer⟩, fun _ => ?_⟩
      · rw [hrest, List.cons_append, ← hback]
      · rw [hrest]
        cases back with
        | nil =>
          rw [List.nil_append] at hback
          rw [← hback]
          exact hdrop.1
        | cons b back => exact hleft (List.cons_ne_nil b back)
    · have hkept : dropTrailers (c :: rest) = c :: rest := by
        match rest with
        | [] | [_] | [_, _] => rfl
        | b :: d :: e :: rest =>
          have htrailer : ¬ isTrailer c = true := fun hc => hdrop ⟨by simp, hc⟩
          rw [dropTrailers, if_neg htrailer]
      exact ⟨[], by rw [hkept, List.nil_append], by simp, by simp⟩

/-- Trailers are dropped as far as the first other character if at least three characters stand
behind them. -/
theorem dropTrailers_append (hback : ∀ c ∈ back, isTrailer c = true)
    (hcore : ∀ c ∈ core, isTrailer c = false) (hlength : back ≠ [] → 3 ≤ core.length) :
    dropTrailers (back ++ core) = core := by
  induction back with
  | nil => exact dropTrailers_eq_self hcore
  | cons c back ih =>
    have hthree : 3 ≤ core.length := hlength (List.cons_ne_nil c back)
    have hrest : 3 ≤ (back ++ core).length := by
      rw [List.length_append]
      omega
    rw [List.cons_append, dropTrailers_cons hrest, if_pos (hback c List.mem_cons_self),
      ih (fun d hd => hback d (List.mem_cons_of_mem c hd)) fun _ => hthree]

/-- The text that the block reader looks at stands between what it drops. -/
theorem exists_trimBlock (text : Bytes) :
    ∃ front back, text = front ++ trimBlock text ++ back ∧ (∀ c ∈ front, isBlank c = true) ∧
      (∀ c ∈ back, isTrailer c = true) ∧ (back ≠ [] → 3 ≤ (trimBlock text).length) := by
  obtain ⟨dropped, hsplit, htrailer, hleft⟩ :=
    exists_dropTrailers (text.dropWhile isBlank).reverse
  have hrest : text.dropWhile isBlank = trimBlock text ++ dropped.reverse := by
    rw [trimBlock, ← List.reverse_append, ← hsplit, List.reverse_reverse]
  refine ⟨text.takeWhile isBlank, dropped.reverse, ?_, fun c hc => List.mem_takeWhile_imp hc,
    fun c hc => htrailer c (List.mem_reverse.mp hc), fun hback => ?_⟩
  · rw [List.append_assoc, ← hrest, List.takeWhile_append_dropWhile]
  · rw [trimBlock, List.length_reverse]
    exact hleft fun hnil => hback (by rw [hnil, List.reverse_nil])

/-! ## Standard texts -/

/-- A standard text has only characters that an encoding may have. -/
theorem IsStandard.isDigit (h : IsStandard core) : ∀ c ∈ core, IsDigit c := by
  obtain ⟨-, body, n, -, rfl, hbody⟩ := h
  intro c hc
  exact (List.mem_append.mp hc).imp (hbody c) List.eq_of_mem_replicate

/-- A standard text is one that nothing surrounds. -/
theorem IsStandard.surrounded (h : IsStandard core) : Surrounded [] core [] where
  standard := h
  blank := List.forall_mem_nil _
  trailer := List.forall_mem_nil _
  whole := by
    rw [List.nil_append, List.append_nil]
    exact h.1
  bare := fun hback => absurd rfl hback

/-- A blank may stand behind as well. -/
theorem isTrailer_of_isBlank (hc : isBlank c = true) : isTrailer c = true := by
  rw [isTrailer, hc]
  rfl

/-- Padding is no trailer. -/
theorem padding_not_mem_of_trailers (h : ∀ c ∈ text, isTrailer c = true) : padding ∉ text := by
  intro hmem
  have htrailer := h padding hmem
  contradiction

/-- What is all trailers and has none is empty. -/
theorem eq_nil_of_trailers (h : ∀ c ∈ text, isTrailer c = true)
    (hplain : ∀ c ∈ text, isTrailer c = false) : text = [] := by
  rw [List.eq_nil_iff_forall_not_mem]
  intro c hc
  have htrailer := h c hc
  rw [hplain c hc] at htrailer
  contradiction

namespace Surrounded

/-- Trimming takes exactly the surroundings off. -/
theorem trimBlock_eq (h : Surrounded front core back) :
    trimBlock (front ++ core ++ back) = core := by
  have hdigit := h.standard.isDigit
  have hfront : (front ++ core ++ back).dropWhile isBlank = core ++ back := by
    rw [List.append_assoc, List.dropWhile_append_of_pos h.blank]
    cases core with
    | nil =>
      have hback : back = [] := by
        by_contra hne
        exact (h.bare hne).1 rfl
      rw [hback]
      rfl
    | cons c rest =>
      have hc : isBlank c = false := isBlank_of_isDigit (hdigit c List.mem_cons_self)
      rw [List.cons_append, List.dropWhile_cons_of_neg (by rw [hc]; exact Bool.false_ne_true)]
  have hlength : back.reverse ≠ [] → 3 ≤ core.reverse.length := by
    intro hne
    have hback : back ≠ [] := fun hnil => hne (by rw [hnil, List.reverse_nil])
    have hpos := List.length_pos_iff.mpr (h.bare hback).1
    have hgroups := h.standard.1
    rw [List.length_reverse]
    omega
  rw [trimBlock, hfront, List.reverse_append, dropTrailers_append
    (fun c hc => h.trailer c (List.mem_reverse.mp hc))
    (fun c hc => isTrailer_of_isDigit (hdigit c (List.mem_reverse.mp hc))) hlength,
    List.reverse_reverse]

/-- The padding of the text inside is the padding of the whole text. -/
theorem exists_padding (h : Surrounded front core back) :
    ∃ outer inner n, n ≤ 2 ∧ front ++ core ++ back = outer ++ List.replicate n padding ∧
      padding ∉ outer ∧ core = inner ++ List.replicate n padding ∧ padding ∉ inner := by
  obtain ⟨-, inner, n, hn, hcore, hinner⟩ := h.standard
  have hbare : padding ∉ inner := fun hmem => padding_not_mem_alphabet (hinner _ hmem)
  have hfront : padding ∉ front :=
    padding_not_mem_of_trailers fun c hc => isTrailer_of_isBlank (h.blank c hc)
  by_cases hback : back = []
  · refine ⟨front ++ inner, inner, n, hn, ?_, ?_, hcore, hbare⟩
    · rw [hback, List.append_nil, hcore, List.append_assoc]
    · rw [List.mem_append, not_or]
      exact ⟨hfront, hbare⟩
  · have hnone : padding ∉ core := (h.bare hback).2
    refine ⟨front ++ core ++ back, core, 0, Nat.zero_le 2, ?_, ?_, ?_, hnone⟩
    · rw [List.replicate_zero, List.append_nil]
    · rw [List.mem_append, List.mem_append, not_or, not_or]
      exact ⟨⟨hfront, hnone⟩, padding_not_mem_of_trailers h.trailer⟩
    · rw [List.replicate_zero, List.append_nil]

/-- Only the text inside is read. -/
theorem decode_eq_groups? (h : Surrounded front core back)
    (hlength : (front ++ core ++ back).length < 2 ^ 31) :
    decode (front ++ core ++ back) =
      (groups? core).map fun block => block.take (block.length - padCount core) := by
  obtain ⟨outer, inner, n, hn, houter, hbare, hinner, hnone⟩ := h.exists_padding
  have hpad : padCount core = n := by
    rw [hinner, padCount_append hn hnone]
  have hread := read_append_padding hn hbare (houter ▸ h.whole)
  rw [← houter, measured_of_lt hlength, blocks?, h.trimBlock_eq] at hread
  rw [decode, hread, hpad]
  cases hblock : groups? core with
  | none => rfl
  | some block =>
    have henough : n ≤ block.length := by
      rcases Nat.eq_zero_or_pos n with hzero | hpos
      · rw [hzero]
        exact Nat.zero_le _
      · have hne : core ≠ [] := by
          rw [hinner, ← List.length_pos_iff, List.length_append, List.length_replicate]
          exact Nat.add_pos_right _ hpos
        exact Nat.le_trans hn (Nat.le_of_succ_le (three_le_length_groups? hne hblock))
    rw [Reading.ofBlock_of_le henough]
    rfl

end Surrounded

/-- A standard text is read group by group, and the bytes of its padding are cut off. -/
theorem IsStandard.decode_eq_groups? (h : IsStandard core) (hlength : core.length < 2 ^ 31) :
    decode core = (groups? core).map fun block => block.take (block.length - padCount core) := by
  have hself := h.surrounded.decode_eq_groups?
  rw [List.nil_append, List.append_nil] at hself
  exact hself hlength

/-- Every standard text is accepted. -/
theorem IsStandard.isSome_decode (h : IsStandard core) (hlength : core.length < 2 ^ 31) :
    (decode core).isSome = true := by
  rw [h.decode_eq_groups? hlength, Option.isSome_map, isSome_groups?_iff]
  exact ⟨h.1, h.isDigit⟩

/-- The surroundings have no influence on the bytes. -/
theorem Surrounded.decode_eq (h : Surrounded front core back)
    (hlength : (front ++ core ++ back).length < 2 ^ 31) :
    decode (front ++ core ++ back) = decode core := by
  have hcore : core.length < 2 ^ 31 := by
    rw [List.length_append, List.length_append] at hlength
    omega
  rw [h.decode_eq_groups? hlength, h.standard.decode_eq_groups? hcore]

/-! ## Texts that are read -/

/-- A text that ends in a trailer does not end in padding. -/
theorem eq_zero_of_trailer {body : Bytes} {n : Nat} (hback : back ≠ [])
    (htrailer : ∀ c ∈ back, isTrailer c = true)
    (h : front ++ back = body ++ List.replicate n padding) : n = 0 := by
  cases n with
  | zero => rfl
  | succ n =>
    have hlast := congrArg List.getLast? h
    rw [List.getLast?_append, List.getLast?_eq_some_getLast hback, Option.some_or,
      List.replicate_succ', ← List.append_assoc, List.getLast?_concat, Option.some.injEq] at hlast
    have hmem : padding ∈ back := hlast ▸ List.getLast_mem hback
    exact (padding_not_mem_of_trailers htrailer hmem).elim

/-- Padding at the end of a text is padding at the end of what is read of it. -/
theorem exists_inner {body : Bytes} {n : Nat} (hfront : padding ∉ front)
    (htrailer : ∀ c ∈ back, isTrailer c = true) (hbody : padding ∉ body)
    (h : front ++ core ++ back = body ++ List.replicate n padding) :
    ∃ inner, core = inner ++ List.replicate n padding ∧ padding ∉ inner ∧ (back ≠ [] → n = 0) := by
  by_cases hback : back = []
  · rw [hback, List.append_nil] at h
    rcases List.append_eq_append_iff.mp h with ⟨inner, hinner, hcore⟩ | ⟨rest, hrest, hpads⟩
    · have hnone : padding ∉ inner :=
        fun hmem => hbody (by rw [hinner]; exact List.mem_append_right _ hmem)
      exact ⟨inner, hcore, hnone, fun hne => absurd hback hne⟩
    · -- The padding would begin in front of what is read.
      have hnil : rest = [] := by
        rw [List.eq_nil_iff_forall_not_mem]
        intro c hc
        have hpad : c = padding := by
          have hmem : c ∈ List.replicate n padding := by
            rw [hpads]
            exact List.mem_append_left _ hc
          exact List.eq_of_mem_replicate hmem
        exact hfront (by rw [hrest, ← hpad]; exact List.mem_append_right _ hc)
      rw [hnil, List.nil_append] at hpads
      exact ⟨[], hpads.symm, List.not_mem_nil, fun hne => absurd hback hne⟩
  · have hn : n = 0 := eq_zero_of_trailer hback htrailer h
    rw [hn, List.replicate_zero, List.append_nil] at h
    refine ⟨core, ?_, ?_, fun _ => hn⟩
    · rw [hn, List.replicate_zero, List.append_nil]
    · intro hmem
      rw [← h] at hbody
      exact hbody (List.mem_append_left _ (List.mem_append_right _ hmem))

/-- A text that is read is made of a standard text with blanks in front and trailers behind. -/
theorem exists_surrounded (hlength : text.length < 2 ^ 31) (h : (decode text).isSome = true) :
    ∃ front core back, Surrounded front core back ∧ text = front ++ core ++ back := by
  obtain ⟨hchecked, hblocks⟩ := checked_of_isSome_decode h
  rw [measured_of_lt hlength] at hblocks
  obtain ⟨front, back, hsplit, hblank, htrailer, hleft⟩ := exists_trimBlock text
  obtain ⟨hgroups, hdigit⟩ := (isSome_groups?_iff _).mp hblocks
  have hfront : padding ∉ front :=
    padding_not_mem_of_trailers fun c hc => isTrailer_of_isBlank (hblank c hc)
  obtain ⟨inner, hinner, hnone, hzero⟩ :=
    exists_inner hfront htrailer hchecked.bare
      (hsplit.symm.trans (eq_append_padding hchecked.bare))
  have hstandard : IsStandard (trimBlock text) := by
    refine ⟨hgroups, inner, padCount text, padCount_le_two text, hinner, fun c hc => ?_⟩
    have hmem : c ∈ trimBlock text := by
      rw [hinner]
      exact List.mem_append_left _ hc
    exact (hdigit c hmem).resolve_right fun hpad => hnone (hpad ▸ hc)
  refine ⟨front, trimBlock text, back, ⟨hstandard, hblank, htrailer, ?_, fun hback => ?_⟩, hsplit⟩
  · rw [← hsplit]
    exact hchecked.whole
  · constructor
    · intro hnil
      have hthree := hleft hback
      rw [hnil, List.length_nil] at hthree
      contradiction
    · rw [hinner, hzero hback, List.replicate_zero, List.append_nil]
      exact hnone

/-- A text that is short enough for a 32-bit length is read exactly when it is a standard text with
blanks in front and trailers behind that fill whole groups, and it gives what that text gives. The
standard texts are those of them without blanks, line ends and dashes. -/
theorem decode_eq_some_iff_surrounded (text bs : Bytes) (hlength : text.length < 2 ^ 31) :
    (decode text = some bs ↔ ∃ front core back, Surrounded front core back ∧
      text = front ++ core ++ back ∧ decode core = some bs) ∧
    (IsStandard text ↔ (decode text).isSome = true ∧ ∀ c ∈ text, isTrailer c = false) := by
  refine ⟨⟨fun h => ?_, ?_⟩, fun h => ?_, ?_⟩
  · obtain ⟨front, core, back, hsurrounded, rfl⟩ :=
      exists_surrounded hlength (Option.isSome_of_eq_some h)
    exact ⟨front, core, back, hsurrounded, rfl, (hsurrounded.decode_eq hlength).symm.trans h⟩
  · rintro ⟨front, core, back, hsurrounded, rfl, h⟩
    rw [hsurrounded.decode_eq hlength, h]
  · exact ⟨h.isSome_decode hlength, fun c hc => isTrailer_of_isDigit (h.isDigit c hc)⟩
  · rintro ⟨h, hplain⟩
    obtain ⟨front, core, back, hsurrounded, rfl⟩ := exists_surrounded hlength h
    have hfront : front = [] :=
      eq_nil_of_trailers (fun c hc => isTrailer_of_isBlank (hsurrounded.blank c hc))
        fun c hc => hplain c (List.mem_append_left _ (List.mem_append_left _ hc))
    have hback : back = [] :=
      eq_nil_of_trailers hsurrounded.trailer fun c hc => hplain c (List.mem_append_right _ hc)
    rw [hfront, hback, List.nil_append, List.append_nil]
    exact hsurrounded.standard

/-- Four blanks behind a group are read over, though the text is not standard. -/
theorem decode_blanks_behind :
    decode (ascii "AAAA    ") = some [0, 0, 0] ∧ ¬ IsStandard (ascii "AAAA    ") := by
  have hgroup : IsStandard (ascii "AAAA") :=
    ⟨by decide, ascii "AAAA", 0, by decide, rfl, by decide +kernel⟩
  have hsurrounded : Surrounded [] (ascii "AAAA") (ascii "    ") :=
    ⟨hgroup, List.forall_mem_nil _, by decide +kernel, by decide, fun _ => by decide⟩
  constructor
  · rw [(decode_eq_some_iff_surrounded _ _ (by decide)).1]
    exact ⟨[], ascii "AAAA", ascii "    ", hsurrounded, rfl, by decide⟩
  · intro h
    have hplain :=
      ((decode_eq_some_iff_surrounded _ [0, 0, 0] (by decide)).2.mp h).2 32 (by decide)
    contradiction

end DexFeed.Base64
