import DexFeed.Proofs.Text.Base58

/-!
# No carry is left over

A step within some room leaves a carry exactly when the number that it computes does not fit: the
carry is that number divided by the power of the base for the room. Both conversions work in rooms
that hold the number of the whole string, and what they have read of it is no longer than the whole.
So no step on the way runs out of room, and decoding never refuses a text for a carry.
-/

namespace DexFeed.Base58

/-- The carry that finds no room is the computed number without the digits that found some. -/
theorem mulAdd_snd {base : Nat} (hb : 1 < base) (scale room : Nat) (ds : List Nat) (carry : Nat)
    (hroom : ds.length ≤ room) :
    (mulAdd base scale room ds carry).2 =
      (carry + scale * Nat.ofDigits base ds) / base ^ room := by
  induction room generalizing ds carry with
  | zero =>
    have hnil : ds = [] := List.length_eq_zero_iff.mp (Nat.le_zero.mp hroom)
    rw [hnil, mulAdd, Nat.ofDigits_nil, Nat.mul_zero, Nat.add_zero, Nat.pow_zero, Nat.div_one]
  | succ room ih =>
    cases ds with
    | nil =>
      rw [mulAdd, Nat.ofDigits_nil, Nat.mul_zero, Nat.add_zero]
      by_cases hzero : carry = 0
      · rw [if_pos hzero, hzero, Nat.zero_div]
      · have hmore := ih [] (carry / base) (Nat.zero_le room)
        rw [Nat.ofDigits_nil, Nat.mul_zero, Nat.add_zero, Nat.div_div_eq_div_mul,
          ← Nat.pow_succ'] at hmore
        rw [if_neg hzero, hmore]
    | cons d ds =>
      -- What the lowest digit leaves over goes on to the next one.
      have hsplit : carry + scale * (d + base * Nat.ofDigits base ds) =
          carry + scale * d + base * (scale * Nat.ofDigits base ds) := by
        ring
      rw [mulAdd, ih ds _ (Nat.le_of_succ_le_succ hroom), Nat.ofDigits_cons, hsplit, Nat.pow_succ',
        ← Nat.div_div_eq_div_mul, Nat.add_mul_div_left _ _ (Nat.zero_lt_of_lt hb)]

variable {room : Nat} {front : Bytes}

/-- The digits of a number find place and a step leaves no carry where what the step computes fits
the room. -/
theorem carry_of_digits {base scale v carry : Nat} (hb : 1 < base) (hs : 0 < scale)
    (hroom : carry + scale * v < base ^ room) :
    (Nat.digits base v).length ≤ room ∧
      (mulAdd base scale room (Nat.digits base v) carry).2 = 0 := by
  have hv : v ≤ scale * v := Nat.le_mul_of_pos_left v hs
  have hlength : (Nat.digits base v).length ≤ room :=
    (Nat.digits_length_le_iff hb v).mpr (by omega)
  refine ⟨hlength, ?_⟩
  rw [mulAdd_snd hb _ _ _ _ hlength, Nat.ofDigits_digits, Nat.div_eq_of_lt hroom]

/-- In a room for one byte more, the digits of some bytes find place and a further byte leaves no
carry. -/
theorem digits_carry {b : UInt8} (hroom : 256 ^ (front ++ [b]).length ≤ 58 ^ room) :
    (digits room front).length ≤ room ∧
      (mulAdd 58 256 room (digits room front) b.toNat).2 = 0 := by
  have hlt := numeral_bytes_lt hroom
  rw [List.map_append, List.map_singleton, numeral_append_singleton] at hlt
  rw [digits_eq (pow_length_le_of_append (by decide) hroom)]
  exact carry_of_digits (by decide) (by decide) hlt

/-- In a room for one character more, the bytes of a text find place and a further character is
taken up without a carry. -/
theorem bytes?_carry {c : UInt8} (htext : ∀ c' ∈ front ++ [c], c' ∈ alphabet)
    (hroom : 58 ^ (front ++ [c]).length ≤ 256 ^ room) :
    ∃ held v, bytes? room front = some held ∧ value? c = some v ∧ held.length ≤ room ∧
      (mulAdd 256 58 room held v).2 = 0 ∧
      bytes? room (front ++ [c]) = some (mulAdd 256 58 room held v).1 := by
  have hlt := numeral_text_lt htext hroom
  rw [List.map_append, List.map_singleton, numeral_append_singleton] at hlt
  have hheld := bytes?_eq (fun c' hc' => htext c' (List.mem_append_left _ hc'))
    (pow_length_le_of_append (by decide) hroom)
  have hv := value?_of_mem (htext c (List.mem_append_right _ (List.mem_singleton_self c)))
  obtain ⟨hlength, hcarry⟩ := carry_of_digits (by decide) (by decide) hlt
  refine ⟨_, _, hheld, hv, hlength, hcarry, ?_⟩
  rw [bytes?_append_singleton, hheld, Option.bind_some, hv, Option.bind_some]
  exact if_pos hcarry

/-- A room that suffices for a string suffices for each of its beginnings. -/
theorem pow_length_le_of_begun {base bound : Nat} (hb : 0 < base) {begun whole : Bytes}
    (h : begun <+: whole) (hbound : base ^ whole.length ≤ bound) : base ^ begun.length ≤ bound := by
  obtain ⟨rest, rfl⟩ := h
  exact pow_length_le_of_append hb hbound

/-- The rooms of both conversions suffice. Whatever has been read of a byte string behind its
leading zeros, its digits find place and the next byte leaves no carry; and whatever has been read
of a text, as long as its characters belong to the alphabet its bytes find place and the next
character is taken up without a carry. -/
theorem carry_eq_zero :
    (∀ (bs front : Bytes) (b : UInt8), front ++ [b] <+: bs.dropWhile (· == 0) →
      let room := digitRoom (bs.dropWhile (· == 0)).length
      (digits room front).length ≤ room ∧
        (mulAdd 58 256 room (digits room front) b.toNat).2 = 0) ∧
    ∀ (text front : Bytes) (c : UInt8), front ++ [c] <+: text.dropWhile (· == zeroDigit) →
      (∀ c' ∈ front ++ [c], c' ∈ alphabet) →
      let room := byteRoom (text.dropWhile (· == zeroDigit)).length
      ∃ held v, bytes? room front = some held ∧ value? c = some v ∧ held.length ≤ room ∧
        (mulAdd 256 58 room held v).2 = 0 ∧
        bytes? room (front ++ [c]) = some (mulAdd 256 58 room held v).1 :=
  ⟨fun _ _ _ hbegun => digits_carry
      (pow_length_le_of_begun (by decide) hbegun (pow_le_digitRoom _)),
    fun _ _ _ hbegun htext => bytes?_carry htext
      (pow_length_le_of_begun (by decide) hbegun (pow_le_byteRoom _))⟩

/-- The greatest two bytes behind a zero, and the greatest digits behind a zero. -/
theorem carry_eq_zero_of_greatest :
    (mulAdd 58 256 (digitRoom 2) (digits (digitRoom 2) [255]) 255).2 = 0 ∧
      ∃ held v, bytes? (byteRoom 2) (ascii "z") = some held ∧ value? 122 = some v ∧
        (mulAdd 256 58 (byteRoom 2) held v).2 = 0 := by
  obtain ⟨hdigits, hbytes⟩ := carry_eq_zero
  have hdigit := hdigits [0, 255, 255] [255] 255 (by decide)
  obtain ⟨held, v, hheld, hv, -, hcarry, -⟩ :=
    hbytes (ascii "1zz") (ascii "z") 122 (by decide +kernel) (by decide +kernel)
  exact ⟨hdigit.2, held, v, hheld, hv, hcarry⟩

end DexFeed.Base58
