import DexFeed.Log.Trace
import DexFeed.Proofs.Log.Scan
import DexFeed.Proofs.Log.Framing

/-!
# The lines of a trace

Each line that a trace writes is read back as what it was written for: the first line of an
invocation as its beginning, at top level exactly for depth one, the last as its end, and the line
of a payload as that payload. The ids are base58 texts, which have no space and no colon; without
that an id could make its line carry the marker.
-/

namespace DexFeed

/-- A non-empty text over the base58 alphabet. -/
def Base58.IsText (text : Bytes) : Prop :=
  text ≠ [] ∧ ∀ c ∈ text, c ∈ Base58.alphabet

instance (text : Bytes) : Decidable (Base58.IsText text) :=
  inferInstanceAs (Decidable (_ ∧ _))

namespace Trace

open LogLine

variable {id reason payload : Bytes}

/-- The text of a program id has no blank. -/
theorem space_not_mem_id (hid : Base58.IsText id) : 32 ∉ id :=
  fun h => absurd (hid.2 32 h) (by decide)

/-! ## Reports of invocations -/

/-- An id in front of an outcome never completes the marker, so only the outcome could contain
it. -/
theorem isMarked_report (hid : Base58.IsText id) {outcome : Bytes} (hh : outcome.head? ≠ some 100)
    (ho : ¬ marker <:+: outcome) : isMarked (ascii "Program " ++ id ++ 32 :: outcome) = false := by
  rw [Bool.eq_false_iff, Ne, isMarked_iff]
  intro hline
  have hcut : ascii "Program " ++ id ++ 32 :: outcome =
      ascii "Program" ++ 32 :: (id ++ 32 :: outcome) := by
    rw [List.append_assoc]
    rfl
  rw [hcut] at hline
  rcases infix_marker_cut (by decide) hline with hrest | ⟨-, more, hdata⟩
  · rcases infix_marker_cut (space_not_mem_id hid) hrest with h | ⟨-, h⟩
    · exact ho h
    · exact hh (head?_of_data h)
  · have hword : ascii "data:" ++ 32 :: more = id ++ 32 :: outcome := hdata
    have hid' : ascii "data:" = id := by
      rw [← takeWhile_word (by decide : 32 ∉ ascii "data:") more, hword,
        takeWhile_word (space_not_mem_id hid)]
    exact absurd (hid.2 58 (hid' ▸ by decide)) (by decide)

/-- A written depth has no blank. -/
theorem space_not_mem_depth (depth : Nat) : 32 ∉ ascii (toString depth) := by
  intro h
  obtain ⟨c, hc, h32⟩ := List.mem_map.mp h
  rw [Nat.toString_eq_repr, Nat.toList_repr] at hc
  have hdigit := Nat.isDigit_of_mem_toDigits (by decide) (by decide) hc
  simp only [Char.isDigit, Bool.and_eq_true, decide_eq_true_eq] at hdigit
  have hlow : 48 ≤ c.toNat := hdigit.1
  have hhigh : c.toNat ≤ 57 := hdigit.2
  have hvalue := congrArg UInt8.toNat h32
  rw [UInt8.toNat_ofNat'] at hvalue
  have h32' : (32 : UInt8).toNat = 32 := rfl
  omega

/-- Only the depth one is written as `1`. -/
theorem depth_eq_one_iff (depth : Nat) : ascii (toString depth) = ascii "1" ↔ depth = 1 := by
  constructor
  · intro h
    have hlength := congrArg List.length h
    rw [ascii, List.length_map, Nat.toString_eq_repr, Nat.toList_repr] at hlength
    have hlt : depth < 10 ^ 1 := (Nat.length_toDigits_le_iff (by decide) (by decide)).mp hlength.le
    have hall : ∀ i : Fin 10, ascii (toString i.val) = ascii "1" → i.val = 1 := by
      decide +kernel
    exact hall ⟨depth, hlt⟩ h
  · rintro rfl
    rfl

/-- The parts of a line that enters a call, as a reader of lines takes them apart. -/
theorem enterLine_eq (id : Bytes) (depth : Nat) :
    enterLine id depth = ascii "Program " ++ id ++
      32 :: (ascii "invoke" ++ 32 :: (91 :: (ascii (toString depth) ++ [93]))) := by
  have hopen : ascii " invoke [" = 32 :: (ascii "invoke" ++ [32, 91]) := by decide
  have hclose : ascii "]" = [93] := by decide
  rw [enterLine, hopen, hclose]
  simp

/-- A line that enters a call is not marked: neither the id nor the depth has the blank of a
marker. -/
theorem isMarked_enterLine (hid : Base58.IsText id) (depth : Nat) :
    isMarked (enterLine id depth) = false := by
  rw [enterLine_eq]
  refine isMarked_report hid (fun hh : some 105 = some 100 => absurd hh (by decide)) ?_
  intro h
  rcases infix_marker_cut (by decide) h with hdepth | ⟨hend, -⟩
  · have hspace : 32 ∈ 91 :: (ascii (toString depth) ++ [93]) := hdepth.subset (by decide)
    rw [List.mem_cons, List.mem_append, List.mem_singleton] at hspace
    rcases hspace with h | h | h
    · exact absurd h (by decide)
    · exact space_not_mem_depth depth h
    · exact absurd h (by decide)
  · exact absurd hend (by decide)

/-- A line that enters a call is read as that call, outermost at depth one. -/
theorem invocation?_enterLine (hid : Base58.IsText id) (depth : Nat) :
    invocation? (enterLine id depth) = some (.enter id (decide (depth = 1))) := by
  have hp : ascii "invoke " <+: ascii "invoke" ++ 32 :: (91 :: (ascii (toString depth) ++ [93])) :=
    ⟨91 :: (ascii (toString depth) ++ [93]), rfl⟩
  have hone : ascii "invoke [1]" = ascii "invoke" ++ 32 :: (91 :: (ascii "1" ++ [93])) := by
    decide
  have htop : (ascii "invoke" ++ 32 :: (91 :: (ascii (toString depth) ++ [93])) ==
      ascii "invoke [1]") = decide (depth = 1) := by
    rw [Bool.eq_iff_iff, beq_iff_eq, decide_eq_true_eq, ← depth_eq_one_iff, hone,
      List.append_cancel_left_eq, List.cons.injEq, List.cons.injEq, List.append_cancel_right_eq]
    simp only [true_and]
  rw [enterLine_eq, invocation?_words (space_not_mem_id hid), outcome?, if_pos hp, htop]

/-- The outcome in the last line of an invocation. -/
def ending : Option Bytes → Bytes
  | none => ascii "success"
  | some reason => ascii "failed:" ++ 32 :: reason

/-- The parts of a line that leaves a call. -/
theorem leaveLine_eq (id : Bytes) (failure : Option Bytes) :
    leaveLine id failure = ascii "Program " ++ id ++ 32 :: ending failure := by
  cases failure with
  | none =>
    have hsuccess : ascii " success" = 32 :: ascii "success" := by decide
    rw [leaveLine, hsuccess, ending]
  | some reason =>
    have hfailed : ascii " failed: " = 32 :: (ascii "failed:" ++ [32]) := by decide
    rw [leaveLine, hfailed, ending]
    simp

/-- A line that leaves a call is not marked unless the reason of a failure has the marker. -/
theorem isMarked_leaveLine (hid : Base58.IsText id) {failure : Option Bytes}
    (hf : ∀ reason, failure = some reason → isMarked reason = false) :
    isMarked (leaveLine id failure) = false := by
  rw [leaveLine_eq]
  cases failure with
  | none =>
    refine isMarked_report hid (by decide) ?_
    intro h
    exact absurd (h.subset (by decide : 32 ∈ marker)) (by decide)
  | some reason =>
    refine isMarked_report hid (fun hh : some 102 = some 100 => absurd hh (by decide)) ?_
    intro h
    rcases infix_marker_cut (by decide) h with hreason | ⟨hend, -⟩
    · have hm := hf reason rfl
      rw [Bool.eq_false_iff, Ne, isMarked_iff] at hm
      exact hm hreason
    · exact absurd hend (by decide)

/-- A line that leaves a call is read as the end of a call, failed or not. -/
theorem invocation?_leaveLine (hid : Base58.IsText id) (failure : Option Bytes) :
    invocation? (leaveLine id failure) = some .leave := by
  rw [leaveLine_eq, invocation?_words (space_not_mem_id hid)]
  cases failure with
  | none => rfl
  | some reason =>
    have hf : ascii "failed" <+: ascii "failed:" ++ 32 :: reason := ⟨58 :: 32 :: reason, rfl⟩
    have hi : ¬ ascii "invoke " <+: ascii "failed:" ++ 32 :: reason := by
      rintro ⟨more, h⟩
      have hhead : some (105 : UInt8) = some 102 := congrArg List.head? h
      exact absurd hhead (by decide)
    rw [ending, outcome?, if_neg hi, if_pos (Or.inr hf)]

/-! ## Payloads -/

/-- A data line is marked. -/
theorem isMarked_dataLine (payload : Bytes) : isMarked (dataLine payload) = true := by
  rw [isMarked_iff]
  exact (List.prefix_append _ _).isInfix

/-- The line of a payload carries it. -/
theorem payload?_dataLine (hp : payload ≠ [])
    (hlength : (Base64.encode payload).length < 2 ^ 31) :
    payload? (dataLine payload) = some payload := by
  have hmarker : ¬ marker <:+: [] := by
    rw [← isMarked_iff]
    decide
  have hframed := payload?_framed hmarker (List.forall_mem_nil _) (List.forall_mem_nil _) hlength
  rwa [List.nil_append, List.nil_append, List.append_nil, if_neg hp] at hframed

end Trace

end DexFeed
