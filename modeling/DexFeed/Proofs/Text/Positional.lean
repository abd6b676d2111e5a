import Mathlib.Data.List.TakeWhile
import Mathlib.Data.Nat.Digits.Lemmas
import DexFeed.Text.Base58

/-!
# Numerals in two bases

A digit string with its most significant digit first denotes a number, and so does the string of
that number's digits in another base. `rebase` passes from the one to the other and keeps the
leading zeros, which say nothing about the number. Passing back returns every digit string, so the
strings in two bases correspond one to one. The schoolbook step `mulAdd` computes the digits of a
product and a sum whenever these fit the room that it is given, and then it leaves no carry.
-/

namespace DexFeed.Base58

/-! ## The schoolbook step -/

/-- On the digits of a number the step gives those of the scaled and increased number, and no carry
is left over when these fit the room. -/
theorem mulAdd_digits {base scale : Nat} (hb : 1 < base) (hs : 0 < scale) (room v carry : Nat)
    (hroom : carry + scale * v < base ^ room) :
    mulAdd base scale room (Nat.digits base v) carry =
      (Nat.digits base (carry + scale * v), 0) := by
  induction room generalizing v carry with
  | zero =>
    have hzero : carry + scale * v = 0 := by
      simpa using hroom
    have hcarry : carry = 0 := by omega
    rw [hzero, Nat.digits_zero, mulAdd, hcarry]
  | succ room ih =>
    rcases Nat.eq_zero_or_pos v with rfl | hv
    · rw [Nat.mul_zero, Nat.add_zero] at hroom ⊢
      rw [Nat.digits_zero, mulAdd]
      by_cases hc : carry = 0
      · rw [if_pos hc, hc, Nat.digits_zero]
      · have hnext : carry / base + scale * 0 < base ^ room := by
          rw [Nat.mul_zero, Nat.add_zero, Nat.div_lt_iff_lt_mul (by omega), ← Nat.pow_succ]
          exact hroom
        have hmore := ih 0 (carry / base) hnext
        rw [Nat.digits_zero, Nat.mul_zero, Nat.add_zero] at hmore
        rw [Nat.add_zero, if_neg hc, Nat.digits_def' hb (Nat.pos_of_ne_zero hc), hmore]
    · -- The carry takes with it what the lowest digit of the product leaves over.
      have hsplit : carry + scale * v =
          (carry + scale * (v % base)) + base * (scale * (v / base)) := by
        conv_lhs => rw [← Nat.mod_add_div v base]
        ring
      have hlow : (carry + scale * v) % base = (carry + scale * (v % base)) % base := by
        rw [hsplit, Nat.add_mul_mod_self_left]
      have hhigh : (carry + scale * v) / base =
          (carry + scale * (v % base)) / base + scale * (v / base) := by
        rw [hsplit, Nat.add_mul_div_left _ _ (by omega)]
      have hnext : (carry + scale * (v % base)) / base + scale * (v / base) < base ^ room := by
        rw [← hhigh, Nat.div_lt_iff_lt_mul (by omega), ← Nat.pow_succ]
        exact hroom
      have hpos : 0 < carry + scale * v :=
        Nat.add_pos_right _ (Nat.mul_pos hs hv)
      rw [Nat.digits_def' hb hv, mulAdd, ih _ _ hnext, Nat.digits_def' hb hpos, hlow, hhigh]

/-! ## Digit strings -/

/-- The number that a digit string denotes with its most significant digit first. -/
def numeral (base : Nat) (ds : List Nat) : Nat :=
  Nat.ofDigits base ds.reverse

@[simp] theorem numeral_nil (base : Nat) : numeral base [] = 0 := rfl

/-- A digit more in the last place is the lowest. -/
theorem numeral_append_singleton (base : Nat) (ds : List Nat) (d : Nat) :
    numeral base (ds ++ [d]) = d + base * numeral base ds := by
  rw [numeral, List.reverse_append, List.reverse_singleton, List.singleton_append,
    Nat.ofDigits_cons, numeral]

/-- A number of so many digits is below that power of the base. -/
theorem numeral_lt {base : Nat} (hb : 1 < base) {ds : List Nat} (h : ∀ d ∈ ds, d < base) :
    numeral base ds < base ^ ds.length := by
  rw [← List.length_reverse]
  exact Nat.ofDigits_lt_base_pow_length hb fun d hd => h d (List.mem_reverse.mp hd)

/-- The digit string of the same number in another base, behind the same leading zeros. -/
def rebase (source target : Nat) (ds : List Nat) : List Nat :=
  List.replicate (ds.takeWhile (· == 0)).length 0 ++
    (Nat.digits target (numeral source (ds.dropWhile (· == 0)))).reverse

/-- Leading zeros are told from a rest that does not begin with one. -/
theorem span_zeros (n : Nat) {rest : List Nat} (h : rest.head? ≠ some 0) :
    (List.replicate n 0 ++ rest).takeWhile (· == 0) = List.replicate n 0 ∧
      (List.replicate n 0 ++ rest).dropWhile (· == 0) = rest := by
  have hzeros : ∀ d ∈ List.replicate n 0, (d == 0) = true := by
    intro d hd
    rw [List.eq_of_mem_replicate hd]
    rfl
  rw [List.takeWhile_append_of_pos hzeros, List.dropWhile_append_of_pos hzeros]
  cases rest with
  | nil => exact ⟨List.append_nil _, rfl⟩
  | cons d rest =>
    have hd : d ≠ 0 := by
      simpa using h
    rw [List.takeWhile_cons_of_neg (by simp [hd]), List.dropWhile_cons_of_neg (by simp [hd])]
    exact ⟨List.append_nil _, rfl⟩

/-- The digits of a number begin with none that is zero. -/
theorem head?_reverse_digits (base n : Nat) : (Nat.digits base n).reverse.head? ≠ some 0 := by
  rw [List.head?_reverse]
  intro h
  have hn : n ≠ 0 := by
    rintro rfl
    rw [Nat.digits_zero] at h
    contradiction
  have hlast := Nat.getLast_digit_ne_zero base hn
  rw [Ne, List.getLast_eq_iff_getLast?_eq_some] at hlast
  exact hlast h

/-- Without its leading zeros a list does not begin with zero. -/
theorem head?_dropWhile_zero (ds : List Nat) : (ds.dropWhile (· == 0)).head? ≠ some 0 := by
  intro h
  have hno := List.head?_dropWhile_not (· == 0) ds
  rw [h] at hno
  contradiction

/-- The digits of the number that a string without a leading zero denotes are the string itself. -/
theorem digits_numeral {base : Nat} (hb : 1 < base) {ds : List Nat} (h : ∀ d ∈ ds, d < base)
    (hhead : ds.head? ≠ some 0) : (Nat.digits base (numeral base ds)).reverse = ds := by
  have hlast : ∀ hne : ds.reverse ≠ [], ds.reverse.getLast hne ≠ 0 := by
    intro hne hzero
    rw [← List.getLast?_reverse, List.getLast?_eq_some_getLast hne, hzero] at hhead
    exact hhead rfl
  rw [numeral, Nat.digits_ofDigits base hb _ (fun d hd => h d (List.mem_reverse.mp hd)) hlast,
    List.reverse_reverse]

/-- The digits of a number, highest first, make the number. -/
theorem numeral_reverse_digits (base n : Nat) :
    numeral base (Nat.digits base n).reverse = n := by
  rw [numeral, List.reverse_reverse, Nat.ofDigits_digits]

/-- The digits in the new base are below it. -/
theorem lt_of_mem_rebase {source target : Nat} (ht : 1 < target) {ds : List Nat} {d : Nat}
    (hd : d ∈ rebase source target ds) : d < target := by
  rcases List.mem_append.mp hd with hd | hd
  · rw [List.eq_of_mem_replicate hd]
    omega
  · exact Nat.digits_lt_base ht (List.mem_reverse.mp hd)

/-- Passing to another base and back returns every digit string, leading zeros included. -/
theorem rebase_rebase {source target : Nat} (hs : 1 < source) {ds : List Nat}
    (h : ∀ d ∈ ds, d < source) : rebase target source (rebase source target ds) = ds := by
  have hspan := span_zeros (ds.takeWhile (· == 0)).length
    (head?_reverse_digits target (numeral source (ds.dropWhile (· == 0))))
  have hzeros : List.replicate (ds.takeWhile (· == 0)).length 0 = ds.takeWhile (· == 0) := by
    refine (List.eq_replicate_of_mem fun d hd => ?_).symm
    have htrue := List.mem_takeWhile_imp hd
    exact beq_iff_eq.mp htrue
  have hrest : ∀ d ∈ ds.dropWhile (· == 0), d < source :=
    fun d hd => h d ((List.dropWhile_sublist _).subset hd)
  rw [rebase, rebase, hspan.1, hspan.2, List.length_replicate, numeral_reverse_digits,
    digits_numeral hs hrest (head?_dropWhile_zero ds), hzeros, List.takeWhile_append_dropWhile]

end DexFeed.Base58
