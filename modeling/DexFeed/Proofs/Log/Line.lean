import Mathlib.Data.List.TakeWhile
import DexFeed.Log.Attribution

/-!
# Which lines report an invocation

A line is marked exactly when the marker occurs in it, and it reports an invocation exactly when it
is `Program`, one word and an outcome. The word is not looked at: an id and any other word without
a space serve alike. The marker itself consists of words, so an occurrence behind a first space
lies wholly in the rest of the line or begins in front of that space.
-/

namespace DexFeed.LogLine

/-- A word occurs in a line exactly when something stands behind its first occurrence. -/
theorem after?_isSome_iff (word line : Bytes) :
    (after? word line).isSome = true ↔ word <:+: line := by
  induction line with
  | nil =>
    rw [after?]
    split <;> simp_all
  | cons b rest ih =>
    rw [after?, List.infix_cons_iff, ← ih, ← List.isPrefixOf_iff_prefix]
    split <;> simp_all

/-- A line is marked when the marker stands anywhere in it. -/
theorem isMarked_iff (line : Bytes) : isMarked line = true ↔ marker <:+: line :=
  after?_isSome_iff marker line

/-- A word at the front is found there. -/
theorem after?_append (word rest : Bytes) (hw : word ≠ []) :
    after? word (word ++ rest) = some rest := by
  cases word with
  | nil => contradiction
  | cons b word =>
    have hp : (b :: word).isPrefixOf (b :: (word ++ rest)) = true :=
      List.isPrefixOf_iff_prefix.mpr (List.prefix_append (b :: word) rest)
    rw [List.cons_append, after?, if_pos hp, List.length_cons, List.drop_succ_cons,
      List.drop_left]

/-- An occurrence of two words in a line of which the first word has no separator lies behind that
word or ends it. -/
theorem infix_of_infix_append_cons {α : Type} {sep : α} {u v a b : List α} (hu : sep ∉ u)
    (ha : sep ∉ a) (h : u ++ sep :: v <:+: a ++ sep :: b) :
    u ++ sep :: v <:+: b ∨ u <:+ a ∧ v <+: b := by
  obtain ⟨s, t, hst⟩ := h
  have hcut : (s ++ u) ++ sep :: (v ++ t) = a ++ sep :: b := by
    rw [← hst]
    simp
  -- The separator of the infix stands before that of the list, on it or behind it; the first is
  -- impossible, since there is none in front.
  rcases List.append_eq_append_iff.mp hcut with ⟨c, hc, hb⟩ | ⟨c, hc, hb⟩
  · cases c with
    | nil =>
      rw [List.append_nil] at hc
      rw [List.nil_append, List.cons.injEq] at hb
      exact Or.inr ⟨⟨s, hc.symm⟩, ⟨t, hb.2⟩⟩
    | cons x c =>
      rw [List.cons_append, List.cons.injEq] at hb
      exact (ha (by rw [hc, hb.1]; simp)).elim
  · cases c with
    | nil =>
      rw [List.append_nil] at hc
      rw [List.nil_append, List.cons.injEq] at hb
      exact Or.inr ⟨⟨s, hc⟩, ⟨t, hb.2.symm⟩⟩
    | cons x c =>
      rw [List.cons_append, List.cons.injEq] at hb
      obtain ⟨rfl, rfl⟩ := hb
      refine Or.inl ?_
      rcases List.append_eq_append_iff.mp hc with ⟨d, -, hd⟩ | ⟨d, -, hd⟩
      · exact (hu (by rw [hd]; simp)).elim
      · cases d with
        | nil =>
          rw [List.nil_append] at hd
          exact (hu (by rw [← hd]; simp)).elim
        | cons y d =>
          rw [List.cons_append, List.cons.injEq] at hd
          exact ⟨d, t, by rw [hd.2]; simp⟩

/-- An occurrence of the marker behind a word lies in the rest of the line or begins at the end of
that word. -/
theorem infix_marker_cut {word rest : Bytes} (hw : 32 ∉ word)
    (h : marker <:+: word ++ 32 :: rest) :
    marker <:+: rest ∨ ascii "Program" <:+ word ∧ ascii "data: " <+: rest :=
  infix_of_infix_append_cons (u := ascii "Program") (v := ascii "data: ") (by decide) hw h

/-- What begins with `data: ` begins with the letter d. -/
theorem head?_of_data {rest : Bytes} (h : ascii "data: " <+: rest) :
    rest.head? = some 100 := by
  obtain ⟨more, rfl⟩ := h
  rfl

/-! ## Reports -/

/-- What stands behind `Program` and a word where a line reports an invocation. -/
def IsOutcome (outcome : Bytes) : Prop :=
  ascii "invoke " <+: outcome ∨ outcome = ascii "success" ∨ ascii "failed" <+: outcome

instance (outcome : Bytes) : Decidable (IsOutcome outcome) :=
  inferInstanceAs (Decidable (_ ∨ _ ∨ _))

/-- A line that is `Program`, a word and an outcome; the word may be empty. -/
def IsReport (line : Bytes) : Prop :=
  ∃ word outcome, 32 ∉ word ∧ line = ascii "Program " ++ word ++ 32 :: outcome ∧ IsOutcome outcome

/-- What an outcome reports about a word. -/
def outcome? (word outcome : Bytes) : Option Invocation :=
  if ascii "invoke " <+: outcome then some (.enter word (outcome == ascii "invoke [1]"))
  else if outcome = ascii "success" ∨ ascii "failed" <+: outcome then some .leave
  else none

/-- A text is read as an outcome exactly when it is one. -/
theorem outcome?_eq_none_iff (word outcome : Bytes) :
    outcome? word outcome = none ↔ ¬ IsOutcome outcome := by
  unfold outcome? IsOutcome
  split
  · simp_all
  · split <;> simp_all

/-- A word without blanks passes the test that ends a word, byte by byte. -/
theorem ne_space_of_mem {word : Bytes} (hw : 32 ∉ word) :
    ∀ b ∈ word, decide (b ≠ 32) = true := by
  intro b hb
  simpa using fun he : b = 32 => hw (he ▸ hb)

/-- A word ends at the first blank. -/
theorem takeWhile_word {word : Bytes} (hw : 32 ∉ word) (rest : Bytes) :
    (word ++ 32 :: rest).takeWhile (· ≠ 32) = word := by
  rw [List.takeWhile_append_of_pos (ne_space_of_mem hw), List.takeWhile_cons_of_neg (by simp),
    List.append_nil]

/-- Behind a word the first blank stands. -/
theorem dropWhile_word {word : Bytes} (hw : 32 ∉ word) (rest : Bytes) :
    (word ++ 32 :: rest).dropWhile (· ≠ 32) = 32 :: rest := by
  rw [List.dropWhile_append_of_pos (ne_space_of_mem hw), List.dropWhile_cons_of_neg (by simp)]

/-- The word in front of an outcome reaches to the next space. -/
theorem invocation?_words {word : Bytes} (hw : 32 ∉ word) (outcome : Bytes) :
    invocation? (ascii "Program " ++ word ++ 32 :: outcome) = outcome? word outcome := by
  have hp : (ascii "Program ").isPrefixOf (ascii "Program " ++ (word ++ 32 :: outcome)) = true :=
    List.isPrefixOf_iff_prefix.mpr (List.prefix_append _ _)
  rw [List.append_assoc, invocation?, if_pos hp, List.drop_left]
  simp only [takeWhile_word hw, dropWhile_word hw, outcome?, List.isPrefixOf_iff_prefix,
    Bool.or_eq_true, beq_iff_eq]

/-- A report is read from its words and nothing else is. -/
theorem invocation?_eq_some_iff {line : Bytes} {i : Invocation} :
    invocation? line = some i ↔
      ∃ word outcome, 32 ∉ word ∧ line = ascii "Program " ++ word ++ 32 :: outcome ∧
        outcome? word outcome = some i := by
  constructor
  · intro h
    by_cases hp : (ascii "Program ").isPrefixOf line = true
    · obtain ⟨words, rfl⟩ := List.isPrefixOf_iff_prefix.mp hp
      have hcut := List.takeWhile_append_dropWhile (p := (· ≠ (32 : UInt8))) (l := words)
      have hw : 32 ∉ words.takeWhile (· ≠ 32) := by
        intro hm
        simpa using List.mem_takeWhile_imp hm
      cases hd : words.dropWhile (· ≠ 32) with
      | nil =>
        rw [invocation?, if_pos hp, List.drop_left] at h
        simp only [hd] at h
        contradiction
      | cons b outcome =>
        have hb : b = 32 := by
          have hhead := List.head?_dropWhile_not (· ≠ (32 : UInt8)) words
          rw [hd] at hhead
          simpa using hhead
        rw [hd, hb] at hcut
        refine ⟨words.takeWhile (· ≠ 32), outcome, hw, ?_, ?_⟩
        · rw [List.append_assoc, hcut]
        · rw [← invocation?_words hw, List.append_assoc, hcut, h]
    · rw [invocation?, if_neg hp] at h
      contradiction
  · rintro ⟨word, outcome, hw, rfl, h⟩
    rw [invocation?_words hw, h]

/-- A line is read as a report exactly when it is one. -/
theorem invocation?_eq_none_iff (line : Bytes) : invocation? line = none ↔ ¬ IsReport line := by
  rw [← not_iff_not, not_not, ← Ne, Option.ne_none_iff_exists']
  constructor
  · rintro ⟨i, hi⟩
    obtain ⟨word, outcome, hw, hline, ho⟩ := invocation?_eq_some_iff.mp hi
    refine ⟨word, outcome, hw, hline, ?_⟩
    by_contra hn
    rw [(outcome?_eq_none_iff word outcome).mpr hn] at ho
    contradiction
  · rintro ⟨word, outcome, hw, rfl, ho⟩
    rw [invocation?_words hw, ← Option.ne_none_iff_exists', Ne, outcome?_eq_none_iff, not_not]
    exact ho

end DexFeed.LogLine
