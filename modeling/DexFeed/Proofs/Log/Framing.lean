import DexFeed.Proofs.Log.Line
import DexFeed.Proofs.Text.Base64

/-!
# Payloads in lines

A payload is written behind the marker, in base64 and with blanks around it, and anything may stand
in front of the marker that does not contain it. The first letter of the marker occurs in it only
once, so no occurrence of the marker begins in front of the one that was written. The text behind it
has no blanks of its own, and trimming finds it whole.
-/

namespace DexFeed.LogLine

variable {before left right text : Bytes}

/-! ## The first occurrence -/

/-- A word whose first letter occurs in it only once begins in front of an occurrence of that letter
only if it lies there wholly. -/
theorem prefix_of_prefix_append_cons {c : UInt8} {word rest : Bytes} (hc : c ∉ word)
    (h : c :: word <+: before ++ c :: rest) : before = [] ∨ c :: word <+: before := by
  obtain ⟨more, hmore⟩ := h
  rcases List.append_eq_append_iff.mp hmore with ⟨gap, hgap, -⟩ | ⟨beyond, hbeyond, hrest⟩
  · exact Or.inr ⟨gap, hgap.symm⟩
  · cases before with
    | nil => exact Or.inl rfl
    | cons b before =>
      rw [List.cons_append, List.cons.injEq] at hbeyond
      cases beyond with
      | nil =>
        rw [List.append_nil] at hbeyond
        rw [hbeyond.1, hbeyond.2]
        exact Or.inr List.prefix_rfl
      | cons d beyond =>
        rw [List.cons_append, List.cons.injEq] at hrest
        exact (hc (by rw [hbeyond.2, ← hrest.1]; simp)).elim

/-- Where such a word does not occur in front, its first occurrence is the one that was written. -/
theorem after?_append_of_fresh {c : UInt8} {word : Bytes} (hc : c ∉ word)
    (hbefore : ¬ c :: word <:+: before) (rest : Bytes) :
    after? (c :: word) (before ++ (c :: word ++ rest)) = some rest := by
  induction before with
  | nil => exact after?_append (c :: word) rest (List.cons_ne_nil c word)
  | cons b before ih =>
    have hskip : ¬ (c :: word).isPrefixOf (b :: (before ++ (c :: word ++ rest))) = true := by
      rw [List.isPrefixOf_iff_prefix]
      intro h
      have hcut : b :: before = [] ∨ c :: word <+: b :: before :=
        prefix_of_prefix_append_cons hc h
      rcases hcut with hnil | hprefix
      · exact List.cons_ne_nil b before hnil
      · exact hbefore hprefix.isInfix
    rw [List.cons_append, after?, if_neg hskip]
    exact ih fun h => hbefore (h.trans (List.suffix_cons b before).isInfix)

/-- The first marker is found where nothing in front of it is one. -/
theorem after?_marker (hbefore : ¬ marker <:+: before) (rest : Bytes) :
    after? marker (before ++ (marker ++ rest)) = some rest := by
  have hfirst : (80 : UInt8) ∉ ascii "rogram data: " := by decide
  exact after?_append_of_fresh hfirst hbefore rest

/-! ## Blanks around a text -/

/-- Trimming takes away what blanks were put around a text without any. -/
theorem trim_append (hleft : ∀ c ∈ left, isSpace c = true) (hright : ∀ c ∈ right, isSpace c = true)
    (htext : ∀ c ∈ text, isSpace c = false) : trim (left ++ (text ++ right)) = text := by
  have hback : (right.reverse ++ text.reverse).dropWhile isSpace = text.reverse := by
    rw [List.dropWhile_append_of_pos fun c hc => hright c (List.mem_reverse.mp hc),
      List.dropWhile_eq_self_iff.mpr fun hpos =>
        ne_true_of_eq_false (htext _ (List.mem_reverse.mp (List.getElem_mem hpos)))]
  rw [trim, List.dropWhile_append_of_pos hleft]
  cases text with
  | nil =>
    have hnone : right.dropWhile isSpace = [] := List.dropWhile_eq_nil_iff.mpr hright
    rw [List.nil_append, hnone]
    rfl
  | cons c rest =>
    have hc : ¬ isSpace c = true := by
      rw [htext c List.mem_cons_self]
      exact Bool.false_ne_true
    rw [List.cons_append, List.dropWhile_cons_of_neg hc, ← List.cons_append, List.reverse_append,
      hback, List.reverse_reverse]

/-- Whatever stands before the marker and whatever blanks stand around the text, the text is what is
taken. -/
theorem payloadText?_framed (hbefore : ¬ marker <:+: before)
    (hleft : ∀ c ∈ left, isSpace c = true) (hright : ∀ c ∈ right, isSpace c = true)
    (htext : ∀ c ∈ text, isSpace c = false) :
    payloadText? (before ++ (marker ++ (left ++ (text ++ right)))) = some text := by
  rw [payloadText?, after?_marker hbefore, Option.map_some, trim_append hleft hright htext]

/-! ## Payloads -/

/-- No digit of the encoding is a blank. -/
theorem isSpace_of_isDigit {c : UInt8} (hc : Base64.IsDigit c) : isSpace c = false := by
  have ht := Base64.isTrailer_of_isDigit hc
  simp only [Base64.isTrailer, Base64.isBlank, Bool.or_eq_false_iff] at ht
  simp only [isSpace, Bool.or_eq_false_iff]
  exact ⟨⟨⟨ht.1.1.1.1, ht.1.1.1.2⟩, ht.1.1.2⟩, ht.1.2⟩

/-- An encoded payload is found whole behind the marker; an empty one is none. -/
theorem payload?_framed (hbefore : ¬ marker <:+: before) (hleft : ∀ c ∈ left, isSpace c = true)
    (hright : ∀ c ∈ right, isSpace c = true) {payload : Bytes}
    (hlength : (Base64.encode payload).length < 2 ^ 31) :
    payload? (before ++ (marker ++ (left ++ (Base64.encode payload ++ right)))) =
      if payload = [] then none else some payload := by
  have hdigits : ∀ c ∈ Base64.encode payload, isSpace c = false :=
    fun c hc => isSpace_of_isDigit (Base64.isDigit_of_mem_encode hc)
  rw [payload?, payloadText?_framed hbefore hleft hright hdigits]
  simp only [Option.bind_eq_bind, Option.bind_some]
  by_cases hp : payload = []
  · rw [hp]
    rfl
  · rw [if_neg hp, if_neg (Base64.encode_ne_nil hp), Base64.decode_encode hlength]

/-- Blanks, tabs and line ends are trimmed. -/
theorem isSpace_of_mem {c : UInt8} (hc : c ∈ ascii " \t\r\n") : isSpace c = true := by
  have hall : ∀ c ∈ ascii " \t\r\n", isSpace c = true := by decide +kernel
  exact hall c hc

/-- A payload whose encoding is short enough for a 32-bit length is read back from a line in which
it is written in base64 behind the first marker, with any run of spaces, tabs and line ends on
either side of it, unless it is empty. Outside a line every such payload is read back, the empty one
too. -/
theorem payload?_append_encode (hbefore : ¬ marker <:+: before)
    (hleft : ∀ c ∈ left, c ∈ ascii " \t\r\n") (hright : ∀ c ∈ right, c ∈ ascii " \t\r\n")
    {payload : Bytes} (hlength : (Base64.encode payload).length < 2 ^ 31) :
    payload? (before ++ marker ++ left ++ Base64.encode payload ++ right) =
        (if payload = [] then none else some payload) ∧
      Base64.decode (Base64.encode payload) = some payload := by
  refine ⟨?_, Base64.decode_encode hlength⟩
  simp only [List.append_assoc]
  exact payload?_framed hbefore (fun c hc => isSpace_of_mem (hleft c hc))
    (fun c hc => isSpace_of_mem (hright c hc)) hlength

/-- All but the last letter of a marker in front of it does not count. -/
theorem payload?_append_encode_tight :
    ¬ marker <:+: ascii "Program data:" ∧
      payload? (ascii "Program data:" ++ marker ++ ascii " \t" ++ Base64.encode [0, 255, 1, 254] ++
        ascii "\r\n") = some [0, 255, 1, 254] := by
  have hbefore : ¬ marker <:+: ascii "Program data:" := by
    rw [← isMarked_iff]
    decide
  have hlength : (Base64.encode [0, 255, 1, 254]).length < 2 ^ 31 := by
    decide
  refine ⟨hbefore, ?_⟩
  rw [(payload?_append_encode hbefore (by decide +kernel) (by decide +kernel) hlength).1,
    if_neg (List.cons_ne_nil _ _)]

end DexFeed.LogLine
