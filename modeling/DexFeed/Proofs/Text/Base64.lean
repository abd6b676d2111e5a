import Mathlib.Algebra.Group.Nat.Defs
import Mathlib.Data.List.GetD
import Mathlib.Data.List.TakeWhile
import DexFeed.Text.Base64

/-!
# Base64 reads back what it wrote

An encoded text consists of characters of the alphabet with at most two characters of padding at
its end, so the checks of `decode` accept it, the block reader trims nothing, and the groups give
the bytes followed by one zero byte for each character of padding. The same characters are no
blanks, which lets an encoded text stand in a line.
-/

namespace DexFeed.Base64

/-- How many characters of padding the encoding of some bytes has. -/
def padLength (bs : Bytes) : Nat :=
  (3 - bs.length % 3) % 3

/-- At most two characters are padding. -/
theorem padLength_le (bs : Bytes) : padLength bs ≤ 2 := by
  unfold padLength
  omega

/-- Whole groups need no padding. -/
theorem padLength_append (a b c : UInt8) (rest : Bytes) :
    padLength (a :: b :: c :: rest) = padLength rest := by
  simp only [padLength, List.length_cons]
  omega

/-! ## Characters -/

/-- There are as many characters as values of six bits. -/
theorem length_alphabet : alphabet.length = 64 := by decide

/-- The character of a value is that of its six low bits. -/
theorem character_eq (v : Nat) : ∃ i : Fin 64, i.val = v % 64 ∧ character v = character i := by
  refine ⟨⟨v % 64, by omega⟩, rfl, ?_⟩
  simp only [character, Nat.mod_mod]

/-- Every value has a character of the alphabet. -/
theorem character_mem (v : Nat) : character v ∈ alphabet := by
  have hv : v % 64 < alphabet.length := by
    rw [length_alphabet]
    omega
  rw [character, List.getD_eq_getElem _ _ hv]
  exact List.getElem_mem hv

/-- The character of a value has its six low bits. -/
theorem sextet?_character (v : Nat) : sextet? (character v) = some (v % 64) := by
  have hall : ∀ i : Fin 64, sextet? (character i) = some i.val := by
    decide +kernel
  obtain ⟨i, hi, hc⟩ := character_eq v
  rw [hc, hall, hi]

/-- Padding stands for no value. -/
theorem padding_not_mem_alphabet : padding ∉ alphabet := by
  decide

/-- Where padding is allowed, characters have their values all the same. -/
theorem paddedSextet?_character (v : Nat) : paddedSextet? (character v) = some (v % 64) := by
  have hne : character v ≠ padding :=
    fun h => padding_not_mem_alphabet (h ▸ character_mem v)
  rw [paddedSextet?, if_neg hne, sextet?_character]

/-- Where padding is allowed, it counts as zero bits. -/
theorem paddedSextet?_padding : paddedSextet? padding = some 0 := rfl

/-- A character that an encoding may have. -/
def IsDigit (c : UInt8) : Prop :=
  c ∈ alphabet ∨ c = padding

/-- Nothing that an encoding may have is trimmed at its end. -/
theorem isTrailer_of_isDigit {c : UInt8} (hc : IsDigit c) : isTrailer c = false := by
  have hall : ∀ c ∈ alphabet, isTrailer c = false := by
    decide +kernel
  rcases hc with hc | rfl
  · exact hall c hc
  · rfl

/-- Nothing that an encoding may have is trimmed in front. -/
theorem isBlank_of_isDigit {c : UInt8} (hc : IsDigit c) : isBlank c = false := by
  have ht := isTrailer_of_isDigit hc
  simp only [isTrailer, Bool.or_eq_false_iff] at ht
  exact ht.1.1.1

/-! ## Encoded texts -/

/-- An encoding is characters of the alphabet and padding. -/
theorem encode_eq_append (bs : Bytes) :
    ∃ body, encode bs = body ++ List.replicate (padLength bs) padding ∧
      ∀ c ∈ body, c ∈ alphabet := by
  induction bs using encode.induct with
  | case1 => exact ⟨[], rfl, by simp⟩
  | case2 a => exact ⟨[_, _], rfl, by simp [character_mem]⟩
  | case3 a b => exact ⟨[_, _, _], rfl, by simp [character_mem]⟩
  | case4 a b c rest ih =>
    obtain ⟨body, he, hbody⟩ := ih
    let v := a.toNat * 65536 + b.toNat * 256 + c.toNat
    refine ⟨[character (v / 262144), character (v / 4096), character (v / 64), character v] ++
      body, ?_, ?_⟩
    · rw [encode, he, padLength_append]
      rfl
    · simpa [character_mem] using hbody

/-- An encoding has characters of the alphabet and padding only. -/
theorem isDigit_of_mem_encode {bs : Bytes} {c : UInt8} (hc : c ∈ encode bs) : IsDigit c := by
  obtain ⟨body, he, hbody⟩ := encode_eq_append bs
  rw [he, List.mem_append] at hc
  exact hc.imp (hbody c) List.eq_of_mem_replicate

/-- Each three bytes, the last ones completed, take four characters. -/
theorem length_encode (bs : Bytes) : (encode bs).length = 4 * ((bs.length + 2) / 3) := by
  induction bs using encode.induct with
  | case1 => rfl
  | case2 a => simp [encode]
  | case3 a b => simp [encode]
  | case4 a b c rest ih =>
    simp only [encode, List.length_cons, ih]
    omega

/-- Only the empty byte string has the empty encoding. -/
theorem encode_ne_nil {bs : Bytes} (hb : bs ≠ []) : encode bs ≠ [] := by
  have hpos := List.length_pos_iff.mpr hb
  rw [← List.length_pos_iff, length_encode]
  omega

/-! ## Groups -/

/-- A group of characters for the four sextets of a number gives the number's three bytes. -/
theorem groups?_cons {v : Nat} {c₀ c₁ c₂ c₃ : UInt8} (hv : v < 16777216)
    (h₀ : paddedSextet? c₀ = some (v / 262144 % 64)) (h₁ : paddedSextet? c₁ = some (v / 4096 % 64))
    (h₂ : paddedSextet? c₂ = some (v / 64 % 64)) (h₃ : paddedSextet? c₃ = some (v % 64))
    (rest : Bytes) :
    groups? (c₀ :: c₁ :: c₂ :: c₃ :: rest) =
      (groups? rest).map ([UInt8.ofNat (v / 65536), UInt8.ofNat (v / 256 % 256),
        UInt8.ofNat (v % 256)] ++ ·) := by
  have hjoin : ((v / 262144 % 64 * 64 + v / 4096 % 64) * 64 + v / 64 % 64) * 64 + v % 64 = v := by
    omega
  rw [groups?, h₀, h₁, h₂, h₃]
  simp only [Option.bind_eq_bind, Option.bind_some, hjoin]
  cases groups? rest <;> rfl

/-- The three bytes of a number that was put together from bytes. -/
theorem bytes_join (a b c : UInt8) :
    [UInt8.ofNat ((a.toNat * 65536 + b.toNat * 256 + c.toNat) / 65536),
      UInt8.ofNat ((a.toNat * 65536 + b.toNat * 256 + c.toNat) / 256 % 256),
      UInt8.ofNat ((a.toNat * 65536 + b.toNat * 256 + c.toNat) % 256)] = [a, b, c] := by
  have ha : a.toNat < 256 := a.toNat_lt
  have hb : b.toNat < 256 := b.toNat_lt
  have hc : c.toNat < 256 := c.toNat_lt
  have h₀ : (a.toNat * 65536 + b.toNat * 256 + c.toNat) / 65536 = a.toNat := by omega
  have h₁ : (a.toNat * 65536 + b.toNat * 256 + c.toNat) / 256 % 256 = b.toNat := by omega
  have h₂ : (a.toNat * 65536 + b.toNat * 256 + c.toNat) % 256 = c.toNat := by omega
  rw [h₀, h₁, h₂, UInt8.ofNat_toNat, UInt8.ofNat_toNat, UInt8.ofNat_toNat]

/-- Three bytes make a value of 24 bits. -/
theorem joined_lt (a b c : UInt8) :
    a.toNat * 65536 + b.toNat * 256 + c.toNat < 16777216 := by
  have ha : a.toNat < 256 := a.toNat_lt
  have hb : b.toNat < 256 := b.toNat_lt
  have hc : c.toNat < 256 := c.toNat_lt
  omega

/-- The groups of an encoding give the bytes and a zero byte for each character of padding. -/
theorem groups?_encode (bs : Bytes) :
    groups? (encode bs) = some (bs ++ List.replicate (padLength bs) 0) := by
  induction bs using encode.induct with
  | case1 => rfl
  | case2 a =>
    have hv := joined_lt a 0 0
    have hb := bytes_join a 0 0
    simp only [UInt8.toNat_zero, Nat.zero_mul, Nat.add_zero] at hv hb
    have h₂ : 0 = a.toNat * 65536 / 64 % 64 := by omega
    have h₃ : 0 = a.toNat * 65536 % 64 := by omega
    rw [encode, groups?_cons hv (paddedSextet?_character _) (paddedSextet?_character _)
      (h₂ ▸ paddedSextet?_padding) (h₃ ▸ paddedSextet?_padding), hb]
    rfl
  | case3 a b =>
    have hv := joined_lt a b 0
    have hb := bytes_join a b 0
    simp only [UInt8.toNat_zero, Nat.add_zero] at hv hb
    have h₃ : 0 = (a.toNat * 65536 + b.toNat * 256) % 64 := by omega
    rw [encode, groups?_cons hv (paddedSextet?_character _) (paddedSextet?_character _)
      (paddedSextet?_character _) (h₃ ▸ paddedSextet?_padding), hb]
    rfl
  | case4 a b c rest ih =>
    rw [encode, groups?_cons (joined_lt a b c) (paddedSextet?_character _)
      (paddedSextet?_character _) (paddedSextet?_character _) (paddedSextet?_character _),
      bytes_join, ih, padLength_append]
    rfl

/-! ## Decoding -/

/-- Padding at the end is counted. -/
theorem padCount_append {body : Bytes} {n : Nat} (hn : n ≤ 2) (hbody : padding ∉ body) :
    padCount (body ++ List.replicate n padding) = n := by
  have hfront : padding ∉ body.drop ((body ++ List.replicate n padding).length - 2) :=
    fun h => hbody (List.mem_of_mem_drop h)
  have hback : (body ++ List.replicate n padding).length - 2 - body.length = 0 := by
    rw [List.length_append, List.length_replicate]
    omega
  rw [padCount, List.drop_append, List.count_append, List.count_eq_zero_of_not_mem hfront, hback,
    List.drop_zero, List.count_replicate_self, Nat.zero_add]

/-- A text that is short enough for a 32-bit length reaches the block reader whole. -/
theorem measured_of_lt {text : Bytes} (h : text.length < 2 ^ 31) : measured text = text := by
  rw [measured, Int32.toNatClampNeg_ofNat_of_lt h, List.take_length]

/-- A block that is not shorter than the padding loses the bytes of the padding. -/
theorem Reading.ofBlock_of_le {pad : Nat} {block : Bytes} (h : pad ≤ block.length) :
    ofBlock pad (some block) = bytes (block.take (block.length - pad)) := by
  rw [ofBlock, if_neg (Nat.not_lt.mpr h)]

/-- The checks of a text whose padding stands at the end leave it to the block reader. -/
theorem read_append_padding {body : Bytes} {n : Nat} (hn : n ≤ 2) (hbody : padding ∉ body)
    (hwhole : (body ++ List.replicate n padding).length % 4 = 0) :
    read (body ++ List.replicate n padding) =
      .ofBlock n (blocks? (measured (body ++ List.replicate n padding))) := by
  have hpad := padCount_append hn hbody
  have hfront : (body ++ List.replicate n padding).take
      ((body ++ List.replicate n padding).length - n) = body := by
    rw [List.length_append, List.length_replicate, Nat.add_sub_cancel, List.take_left]
  by_cases hempty : body ++ List.replicate n padding = []
  · have hn0 : n = 0 := by
      simpa using (List.append_eq_nil_iff.mp hempty).2
    rw [hempty, hn0]
    rfl
  · rw [read, if_neg hempty, if_neg (not_not_intro hwhole)]
    simp only [hpad, hfront]
    rw [if_neg hbody]

/-- Where nothing is a trailer nothing is dropped. -/
theorem dropTrailers_eq_self {text : Bytes} (h : ∀ c ∈ text, isTrailer c = false) :
    dropTrailers text = text := by
  unfold dropTrailers
  split
  · rw [if_neg (by simp [h])]
  · rfl

/-- An encoding is not trimmed. -/
theorem trimBlock_encode (bs : Bytes) : trimBlock (encode bs) = encode bs := by
  have hfront : (encode bs).dropWhile isBlank = encode bs :=
    List.dropWhile_eq_self_iff.mpr fun hpos =>
      ne_true_of_eq_false (isBlank_of_isDigit (isDigit_of_mem_encode (List.getElem_mem hpos)))
  have hback : ∀ c ∈ (encode bs).reverse, isTrailer c = false :=
    fun c hc => isTrailer_of_isDigit (isDigit_of_mem_encode (List.mem_reverse.mp hc))
  rw [trimBlock, hfront, dropTrailers_eq_self hback, List.reverse_reverse]

/-- Every byte string is read back from its encoding, unless that is too long for a 32-bit
length. -/
theorem decode_encode {bs : Bytes} (hlength : (encode bs).length < 2 ^ 31) :
    decode (encode bs) = some bs := by
  obtain ⟨body, he, hbody⟩ := encode_eq_append bs
  have hnone : padding ∉ body := fun h => padding_not_mem_alphabet (hbody _ h)
  have hwhole : (body ++ List.replicate (padLength bs) padding).length % 4 = 0 := by
    rw [← he, length_encode, Nat.mul_mod_right]
  have hread := read_append_padding (padLength_le bs) hnone hwhole
  have henough : padLength bs ≤ (bs ++ List.replicate (padLength bs) (0 : UInt8)).length := by
    rw [List.length_append, List.length_replicate]
    exact Nat.le_add_left _ _
  rw [← he, measured_of_lt hlength, blocks?, trimBlock_encode, groups?_encode,
    Reading.ofBlock_of_le henough] at hread
  rw [decode, hread, Reading.bytes?, List.length_append, List.length_replicate,
    Nat.add_sub_cancel, List.take_left]

end DexFeed.Base64
