import Mathlib.Data.List.GetD
import DexFeed.Key
import DexFeed.Proofs.Text.Positional

/-!
# Base58 names are exact

Base58 writes a byte string as the numeral of the same number in base 58 and keeps its leading
zeros, so encoding and decoding are changes of base on digit strings. The rooms that both
conversions work in come from rational bounds on logarithms; the bounds hold for every length, so
no carry is ever left over. Encoding is therefore a bijection from all byte strings onto all texts
over the alphabet, decoding is its inverse, and a key has exactly one name.
-/

namespace DexFeed.Base58

/-! ## The rooms suffice -/

/-- A comparison of powers at one period extends to all exponents when it holds within a period. -/
theorem pow_le_pow_of_period {a b p q : Nat} (hq : 0 < q) (hperiod : a ^ q ≤ b ^ p)
    (hwithin : ∀ r < q, a ^ r ≤ b ^ (r * p / q + 1)) (n : Nat) : a ^ n ≤ b ^ (n * p / q + 1) := by
  have hdigits : n * p / q = p * (n / q) + n % q * p / q := by
    conv_lhs => rw [← Nat.mod_add_div n q]
    rw [Nat.add_mul, Nat.mul_assoc, Nat.add_mul_div_left _ _ hq, Nat.mul_comm p, Nat.add_comm]
  calc a ^ n = (a ^ q) ^ (n / q) * a ^ (n % q) := by
        rw [← pow_mul, ← pow_add, Nat.div_add_mod]
    _ ≤ (b ^ p) ^ (n / q) * b ^ (n % q * p / q + 1) :=
        Nat.mul_le_mul (Nat.pow_le_pow_left hperiod _) (hwithin _ (Nat.mod_lt n hq))
    _ = b ^ (n * p / q + 1) := by
        rw [← pow_mul, ← pow_add, hdigits, Nat.add_assoc]

/-- The room for digits suffices for any bytes. -/
theorem pow_le_digitRoom (n : Nat) : 256 ^ n ≤ 58 ^ digitRoom n :=
  pow_le_pow_of_period (by decide) (by decide +kernel) (by decide +kernel) n

/-- The room for bytes suffices for any digits. -/
theorem pow_le_byteRoom (n : Nat) : 58 ^ n ≤ 256 ^ byteRoom n :=
  pow_le_pow_of_period (by decide) (by decide +kernel) (by decide +kernel) n

/-! ## Characters -/

/-- The value of a character of the alphabet. -/
def digit (c : UInt8) : Nat :=
  alphabet.idxOf c

variable {c : UInt8} {d : Nat}

/-- There are as many characters as values of a digit. -/
theorem length_alphabet : alphabet.length = 58 := by decide

/-- No character stands for two digits. -/
theorem nodup_alphabet : alphabet.Nodup := by decide

/-- The value of a character is that of a digit. -/
theorem digit_lt (hc : c ∈ alphabet) : digit c < 58 := by
  rw [← length_alphabet]
  exact List.idxOf_lt_length_iff.mpr hc

/-- A digit has the character at its place in the alphabet. -/
theorem character_of_lt (hd : d < 58) : ∃ h : d < alphabet.length, character d = alphabet[d] := by
  have h : d < alphabet.length := length_alphabet.symm ▸ hd
  exact ⟨h, List.getD_eq_getElem _ _ h⟩

/-- The character of a digit is in the alphabet. -/
theorem character_mem (hd : d < 58) : character d ∈ alphabet := by
  obtain ⟨h, heq⟩ := character_of_lt hd
  rw [heq]
  exact List.getElem_mem h

/-- The character of a digit has the value of the digit. -/
theorem digit_character (hd : d < 58) : digit (character d) = d := by
  obtain ⟨h, heq⟩ := character_of_lt hd
  rw [heq, digit, nodup_alphabet.idxOf_getElem]

/-- The value of a character has that character. -/
theorem character_digit (hc : c ∈ alphabet) : character (digit c) = c := by
  obtain ⟨h, heq⟩ := character_of_lt (digit_lt hc)
  rw [heq]
  exact List.getElem_idxOf h

/-- The table has a value for each character of the alphabet. -/
theorem value?_of_mem (hc : c ∈ alphabet) : value? c = some (digit c) := by
  rw [value?, List.idxOf?, List.findIdx?_eq_some_iff_findIdx_eq]
  exact ⟨List.idxOf_lt_length_iff.mpr hc, rfl⟩

/-- The table has no value for other characters. -/
theorem value?_of_not_mem (hc : c ∉ alphabet) : value? c = none :=
  List.idxOf?_eq_none_iff.mpr hc

/-- Only the character of leading zeros has the value zero. -/
theorem eq_zeroDigit_iff (c : UInt8) : (c == zeroDigit) = (digit c == 0) := by
  have hzero : character 0 = zeroDigit := rfl
  rw [Bool.eq_iff_iff, beq_iff_eq, beq_iff_eq]
  constructor
  · rintro rfl
    rw [← hzero, digit_character (by decide)]
  · intro hd
    have hc : c ∈ alphabet := by
      rw [← List.idxOf_lt_length_iff, length_alphabet]
      exact hd.trans_lt (by decide)
    rw [← character_digit hc, hd, hzero]

/-! ## Encoding and decoding as changes of base -/

/-- The digits of a byte string are below 256. -/
theorem toNat_lt_of_mem_map {bs : Bytes} (hd : d ∈ bs.map UInt8.toNat) : d < 256 := by
  obtain ⟨b, -, rfl⟩ := List.mem_map.mp hd
  exact b.toNat_lt

/-- Bytes come back from their values. -/
theorem map_ofNat_map_toNat (bs : Bytes) : (bs.map UInt8.toNat).map UInt8.ofNat = bs := by
  rw [List.map_map]
  exact (List.map_congr_left fun b _ => UInt8.ofNat_toNat).trans (List.map_id bs)

/-- Values below 256 come back from their bytes. -/
theorem map_toNat_map_ofNat {ds : List Nat} (h : ∀ d ∈ ds, d < 256) :
    (ds.map UInt8.ofNat).map UInt8.toNat = ds := by
  rw [List.map_map]
  exact (List.map_congr_left fun d hd => UInt8.toNat_ofNat_of_lt (h d hd)).trans (List.map_id ds)

/-- The digits of a text are below 58. -/
theorem digit_lt_of_mem_map {text : Bytes} (htext : ∀ c ∈ text, c ∈ alphabet)
    (hd : d ∈ text.map digit) : d < 58 := by
  obtain ⟨c, hc, rfl⟩ := List.mem_map.mp hd
  exact digit_lt (htext c hc)

/-- A room for the longest strings of a length holds the number of each byte string. -/
theorem numeral_bytes_lt {room : Nat} {bs : Bytes} (hroom : 256 ^ bs.length ≤ 58 ^ room) :
    numeral 256 (bs.map UInt8.toNat) < 58 ^ room := by
  refine Nat.lt_of_lt_of_le (numeral_lt (by decide) fun d hd => toNat_lt_of_mem_map hd) ?_
  rwa [List.length_map]

/-- A room for the longest texts of a length holds the number of each text. -/
theorem numeral_text_lt {room : Nat} {text : Bytes} (htext : ∀ c ∈ text, c ∈ alphabet)
    (hroom : 58 ^ text.length ≤ 256 ^ room) : numeral 58 (text.map digit) < 256 ^ room := by
  refine Nat.lt_of_lt_of_le (numeral_lt (by decide) fun d hd => digit_lt_of_mem_map htext hd) ?_
  rwa [List.length_map]

/-- What suffices for a whole string suffices for its beginning. -/
theorem pow_length_le_of_append {base bound : Nat} (hb : 0 < base) {front back : Bytes}
    (h : base ^ (front ++ back).length ≤ bound) : base ^ front.length ≤ bound := by
  refine (Nat.pow_le_pow_right hb ?_).trans h
  rw [List.length_append]
  exact Nat.le_add_right _ _

/-- Within enough room the digits are those of the number that the bytes denote. -/
theorem digits_eq {room : Nat} {bs : Bytes} (hroom : 256 ^ bs.length ≤ 58 ^ room) :
    digits room bs = Nat.digits 58 (numeral 256 (bs.map UInt8.toNat)) := by
  induction bs using List.reverseRecOn with
  | nil => rfl
  | append_singleton bs b ih =>
    have hlt := numeral_bytes_lt hroom
    have hshorter : 256 ^ bs.length ≤ 58 ^ room := pow_length_le_of_append (by decide) hroom
    rw [List.map_append, List.map_singleton, numeral_append_singleton] at hlt ⊢
    have hstep : digits room (bs ++ [b]) = (mulAdd 58 256 room (digits room bs) b.toNat).1 := by
      rw [digits, List.foldl_append]
      rfl
    rw [hstep, ih hshorter, mulAdd_digits (by decide) (by decide) _ _ _ hlt]

/-- The bytes of a longer text come from those of the shorter one by one more multiplication. -/
theorem bytes?_append_singleton (room : Nat) (text : Bytes) (c : UInt8) :
    bytes? room (text ++ [c]) =
      (bytes? room text).bind fun bs => (value? c).bind fun v =>
        let next := mulAdd 256 58 room bs v
        if next.2 = 0 then some next.1 else none := by
  rw [bytes?, List.foldlM_append]
  refine Option.bind_congr fun bs _ => ?_
  rw [List.foldlM_cons]
  exact Option.bind_fun_some _

/-- Within enough room the bytes of a text are those of the number that its digits denote. -/
theorem bytes?_eq {room : Nat} {text : Bytes} (htext : ∀ c ∈ text, c ∈ alphabet)
    (hroom : 58 ^ text.length ≤ 256 ^ room) :
    bytes? room text = some (Nat.digits 256 (numeral 58 (text.map digit))) := by
  induction text using List.reverseRecOn with
  | nil => rfl
  | append_singleton text c ih =>
    have hlt := numeral_text_lt htext hroom
    have hshorter : 58 ^ text.length ≤ 256 ^ room := pow_length_le_of_append (by decide) hroom
    rw [List.map_append, List.map_singleton, numeral_append_singleton] at hlt ⊢
    rw [bytes?_append_singleton, ih (fun c' hc' => htext c' (List.mem_append_left _ hc')) hshorter,
      Option.bind_some, value?_of_mem (htext c (by simp)), Option.bind_some]
    simp only [mulAdd_digits (by decide : 1 < 256) (by decide : 0 < 58) _ _ _ hlt, if_true]

/-- A character outside the alphabet is refused wherever it stands. -/
theorem bytes?_eq_none {room : Nat} {text : Bytes} (hc : c ∈ text) (hout : c ∉ alphabet) :
    bytes? room text = none := by
  induction text using List.reverseRecOn with
  | nil => contradiction
  | append_singleton text last ih =>
    rw [bytes?_append_singleton]
    rcases List.mem_append.mp hc with hc | hc
    · rw [ih hc, Option.bind_none]
    · rw [List.mem_singleton] at hc
      rw [← hc, value?_of_not_mem hout]
      exact Option.bind_eq_none_iff.mpr fun _ _ => rfl

/-- Encoding writes a byte string in base 58. -/
theorem encode_eq (bs : Bytes) :
    encode bs = (rebase 256 58 (bs.map UInt8.toNat)).map character := by
  have hzero : (fun b : UInt8 => b == 0) = (fun d : Nat => d == 0) ∘ UInt8.toNat := by
    funext b
    rw [Function.comp_apply, Bool.eq_iff_iff, beq_iff_eq, beq_iff_eq, ← UInt8.toNat_inj]
    rfl
  rw [encode, rebase, List.map_append, List.map_replicate, List.takeWhile_map, List.dropWhile_map,
    ← hzero, List.length_map, digits_eq (pow_le_digitRoom _)]
  rfl

/-- Decoding writes a text over the alphabet in base 256. -/
theorem decode_of_text {text : Bytes} (htext : ∀ c ∈ text, c ∈ alphabet) :
    decode text = some ((rebase 58 256 (text.map digit)).map UInt8.ofNat) := by
  have hzero : (fun c : UInt8 => c == zeroDigit) = (fun d : Nat => d == 0) ∘ digit :=
    funext eq_zeroDigit_iff
  have hrest : ∀ c ∈ text.dropWhile (· == zeroDigit), c ∈ alphabet :=
    fun c hc => htext c ((List.dropWhile_sublist _).subset hc)
  rw [decode, rebase, List.takeWhile_map, List.dropWhile_map, ← hzero, List.length_map,
    bytes?_eq hrest (pow_le_byteRoom _), Option.map_some, List.map_append, List.map_replicate]
  rfl

/-- A text with a character outside of the alphabet is refused. -/
theorem decode_eq_none {text : Bytes} (hc : c ∈ text) (hout : c ∉ alphabet) :
    decode text = none := by
  have hbody : c ∈ text.dropWhile (· == zeroDigit) := by
    have hparts : c ∈ text.takeWhile (· == zeroDigit) ++ text.dropWhile (· == zeroDigit) := by
      rwa [List.takeWhile_append_dropWhile]
    refine (List.mem_append.mp hparts).resolve_left fun hzero => hout ?_
    have hdigit := List.mem_takeWhile_imp hzero
    rw [beq_iff_eq.mp hdigit]
    decide
  rw [decode, bytes?_eq_none hbody hout, Option.map_none]

/-! ## Names are exact -/

/-- An encoding has characters of the alphabet only. -/
theorem mem_alphabet_of_mem_encode {bs : Bytes} (hc : c ∈ encode bs) : c ∈ alphabet := by
  rw [encode_eq] at hc
  obtain ⟨d, hd, rfl⟩ := List.mem_map.mp hc
  exact character_mem (lt_of_mem_rebase (by decide) hd)

/-- Every byte string is read back from its name. -/
theorem decode_encode (bs : Bytes) : decode (encode bs) = some bs := by
  have hdigits : (encode bs).map digit = rebase 256 58 (bs.map UInt8.toNat) := by
    rw [encode_eq, List.map_map]
    refine (List.map_congr_left fun d hd => ?_).trans (List.map_id _)
    exact digit_character (lt_of_mem_rebase (by decide) hd)
  rw [decode_of_text fun c hc => mem_alphabet_of_mem_encode hc, hdigits,
    rebase_rebase (by decide) fun d hd => toNat_lt_of_mem_map hd, map_ofNat_map_toNat]

/-- Every text over the alphabet is the name of what it decodes to. -/
theorem encode_of_decode {text bs : Bytes} (htext : ∀ c ∈ text, c ∈ alphabet)
    (h : decode text = some bs) : encode bs = text := by
  rw [decode_of_text htext, Option.some.injEq] at h
  rw [encode_eq, ← h, map_toNat_map_ofNat fun d hd => lt_of_mem_rebase (by decide) hd,
    rebase_rebase (by decide) fun d hd => digit_lt_of_mem_map htext hd, List.map_map]
  exact (List.map_congr_left fun c hc => character_digit (htext c hc)).trans (List.map_id text)

/-- Exactly the texts over the alphabet are accepted. -/
theorem isSome_decode_iff (text : Bytes) :
    (decode text).isSome = true ↔ ∀ c ∈ text, c ∈ alphabet := by
  constructor
  · intro h c hc
    by_contra hout
    rw [decode_eq_none hc hout] at h
    contradiction
  · intro htext
    rw [decode_of_text htext]
    rfl

/-- A text is decoded to some bytes exactly when it is their encoding. -/
theorem decode_eq_some_iff (text bs : Bytes) : decode text = some bs ↔ encode bs = text := by
  constructor
  · intro h
    exact encode_of_decode ((isSome_decode_iff text).mp (h ▸ rfl)) h
  · rintro rfl
    exact decode_encode bs

/-- A string of fixed width has exactly one name. -/
theorem fixed?_eq_some_iff {n : Nat} (text : Bytes) (x : Fixed n) :
    fixed? n text = some x ↔ encode x.bytes = text := by
  obtain ⟨bytes, hlength⟩ := x
  rw [← decode_eq_some_iff, fixed?]
  cases decode text with
  | none => simp
  | some bs =>
    by_cases hbs : bs.length = n
    · simp [hbs]
    · have hne : bs ≠ bytes := fun he => hbs (he ▸ hlength)
      simp [hbs, hne]

/-- Encoding is a bijection from byte strings onto texts over the alphabet, and decoding is its
inverse and refuses everything else. In particular each key has exactly one name. -/
theorem decode_inverts_encode :
    (∀ bs, decode (encode bs) = some bs ∧ ∀ c ∈ encode bs, c ∈ alphabet) ∧
      (∀ text, (decode text).isSome = true ↔ ∀ c ∈ text, c ∈ alphabet) ∧
      (∀ text bs, decode text = some bs ↔ encode bs = text) ∧
      (∀ k : Key, Key.ofBase58? k.toBase58 = some k) ∧
      ∀ (k : Key) (text : Bytes), Key.ofBase58? text = some k ↔ k.toBase58 = text :=
  ⟨fun bs => ⟨decode_encode bs, fun _ => mem_alphabet_of_mem_encode⟩, isSome_decode_iff,
    decode_eq_some_iff, fun k => (fixed?_eq_some_iff _ k).mpr rfl,
    fun k text => fixed?_eq_some_iff text k⟩

end DexFeed.Base58
