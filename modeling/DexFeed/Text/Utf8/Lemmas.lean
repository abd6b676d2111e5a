import DexFeed.Text.Utf8

/-!
# UTF-8 decoding undoes encoding

The decoder accepts exactly the concatenations of shortest character encodings: `decode_encoding`
reads every such concatenation back, and `eq_encoding_of_decode` shows that whatever decodes is one.
The bit patterns of single bytes are settled by going through all of them.
-/

namespace DexFeed.Utf8

/-- A continuation byte holds six bits. -/
theorem continuation_ofNat {x : Nat} (h : x < 64) :
    continuation (UInt8.ofNat (x + 128)) = some x := by
  have all : ∀ y : Fin 64, continuation (UInt8.ofNat (y.val + 128)) = some y.val := by decide
  exact all ⟨x, h⟩

/-- The bits of a continuation byte give the byte back. -/
theorem of_continuation {b : UInt8} {x : Nat} (h : continuation b = some x) :
    x < 64 ∧ b = UInt8.ofNat (x + 128) := by
  have all : ∀ y : Fin 256, ∀ z, continuation (UInt8.ofNat y.val) = some z →
      z < 64 ∧ UInt8.ofNat y.val = UInt8.ofNat (z + 128) := by
    intro y z hz
    have key : ∀ y : Fin 256, (continuation (UInt8.ofNat y.val)).all
        (fun z => decide (z < 64 ∧ UInt8.ofNat y.val = UInt8.ofNat (z + 128))) = true := by
      decide +kernel
    have hy := key y
    rw [hz] at hy
    simpa using hy
  have hb : UInt8.ofNat (⟨b.toNat, b.toNat_lt⟩ : Fin 256).val = b := UInt8.ofNat_toNat
  have := all ⟨b.toNat, b.toNat_lt⟩ x (by rw [hb]; exact h)
  rw [hb] at this
  exact this

/-- The first byte of a two-byte form is told apart and holds five bits. -/
theorem lead_two {x : Nat} (h : x < 32) :
    ¬ UInt8.ofNat (x + 192) < 0x80 ∧ UInt8.ofNat (x + 192) &&& 0xE0 = 0xC0 ∧
      (UInt8.ofNat (x + 192) &&& 0x1F).toNat = x := by
  have all : ∀ y : Fin 32, ¬ UInt8.ofNat (y.val + 192) < 0x80 ∧
      UInt8.ofNat (y.val + 192) &&& 0xE0 = 0xC0 ∧
      (UInt8.ofNat (y.val + 192) &&& 0x1F).toNat = y.val := by decide
  exact all ⟨x, h⟩

/-- The first byte of a three-byte form is told apart and holds four bits. -/
theorem lead_three {x : Nat} (h : x < 16) :
    ¬ UInt8.ofNat (x + 224) < 0x80 ∧ ¬ UInt8.ofNat (x + 224) &&& 0xE0 = 0xC0 ∧
      UInt8.ofNat (x + 224) &&& 0xF0 = 0xE0 ∧ (UInt8.ofNat (x + 224) &&& 0x0F).toNat = x := by
  have all : ∀ y : Fin 16, ¬ UInt8.ofNat (y.val + 224) < 0x80 ∧
      ¬ UInt8.ofNat (y.val + 224) &&& 0xE0 = 0xC0 ∧
      UInt8.ofNat (y.val + 224) &&& 0xF0 = 0xE0 ∧
      (UInt8.ofNat (y.val + 224) &&& 0x0F).toNat = y.val := by decide
  exact all ⟨x, h⟩

/-- The first byte of a four-byte form is told apart and holds three bits. -/
theorem lead_four {x : Nat} (h : x < 8) :
    ¬ UInt8.ofNat (x + 240) < 0x80 ∧ ¬ UInt8.ofNat (x + 240) &&& 0xE0 = 0xC0 ∧
      ¬ UInt8.ofNat (x + 240) &&& 0xF0 = 0xE0 ∧ UInt8.ofNat (x + 240) &&& 0xF8 = 0xF0 ∧
      (UInt8.ofNat (x + 240) &&& 0x07).toNat = x := by
  have all : ∀ y : Fin 8, ¬ UInt8.ofNat (y.val + 240) < 0x80 ∧
      ¬ UInt8.ofNat (y.val + 240) &&& 0xE0 = 0xC0 ∧
      ¬ UInt8.ofNat (y.val + 240) &&& 0xF0 = 0xE0 ∧
      UInt8.ofNat (y.val + 240) &&& 0xF8 = 0xF0 ∧
      (UInt8.ofNat (y.val + 240) &&& 0x07).toNat = y.val := by decide
  exact all ⟨x, h⟩

/-- The scalar value of a character gives the character back. -/
theorem scalar_toNat {least : Nat} {c : Char} (h : least ≤ c.toNat) :
    scalar least c.toNat = some c := by
  have valid : c.toNat.isValidChar := c.valid
  unfold scalar
  rw [if_pos h, dif_pos valid]
  rfl

/-- A character found by its scalar value has it, and its form is the shortest. -/
theorem of_scalar {least v : Nat} {c : Char} (h : scalar least v = some c) :
    least ≤ v ∧ c.toNat = v := by
  unfold scalar at h
  by_cases hl : least ≤ v
  · rw [if_pos hl] at h
    by_cases hv : v.isValidChar
    · rw [dif_pos hv] at h
      cases h
      exact ⟨hl, rfl⟩
    · rw [dif_neg hv] at h
      contradiction
  · rw [if_neg hl] at h
    contradiction

/-- A byte below 128 is the character of the same number. -/
theorem ofUInt8_toNat (a : UInt8) : (Char.ofUInt8 a).toNat = a.toNat := rfl

/-- The encoding of a character of two bytes. -/
theorem utf8EncodeChar_two {c : Char} (h : 0x80 ≤ c.toNat) (h' : c.toNat < 0x800) :
    String.utf8EncodeChar c =
      [UInt8.ofNat (c.toNat / 64 + 192), UInt8.ofNat (c.toNat % 64 + 128)] := by
  have hv : c.val.toNat = c.toNat := rfl
  have e : c.toNat / 64 % 32 = c.toNat / 64 := Nat.mod_eq_of_lt (by omega)
  simp only [String.utf8EncodeChar, hv]
  rw [if_neg (by omega), if_pos (by omega), e]

/-- The encoding of a character of three bytes. -/
theorem utf8EncodeChar_three {c : Char} (h : 0x800 ≤ c.toNat) (h' : c.toNat < 0x10000) :
    String.utf8EncodeChar c =
      [UInt8.ofNat (c.toNat / 4096 + 224), UInt8.ofNat (c.toNat / 64 % 64 + 128),
        UInt8.ofNat (c.toNat % 64 + 128)] := by
  have hv : c.val.toNat = c.toNat := rfl
  have e : c.toNat / 4096 % 16 = c.toNat / 4096 := Nat.mod_eq_of_lt (by omega)
  simp only [String.utf8EncodeChar, hv]
  rw [if_neg (by omega), if_neg (by omega), if_pos (by omega), e]

/-- Every scalar value lies below the end of the code space. -/
theorem toNat_lt (c : Char) : c.toNat < 0x110000 := by
  have valid : c.toNat.isValidChar := c.valid
  rcases valid with h | ⟨_, h⟩ <;> omega

/-- The encoding of a character of four bytes. -/
theorem utf8EncodeChar_four {c : Char} (h : 0x10000 ≤ c.toNat) :
    String.utf8EncodeChar c =
      [UInt8.ofNat (c.toNat / 262144 + 240), UInt8.ofNat (c.toNat / 4096 % 64 + 128),
        UInt8.ofNat (c.toNat / 64 % 64 + 128), UInt8.ofNat (c.toNat % 64 + 128)] := by
  have hv : c.val.toNat = c.toNat := rfl
  have top := toNat_lt c
  have e : c.toNat / 262144 % 8 = c.toNat / 262144 := Nat.mod_eq_of_lt (by omega)
  simp only [String.utf8EncodeChar, hv]
  rw [if_neg (by omega), if_neg (by omega), if_neg (by omega), e]

/-- The encoding of a character of one byte. -/
theorem utf8EncodeChar_one {c : Char} (h : c.toNat < 0x80) :
    String.utf8EncodeChar c = [UInt8.ofNat c.toNat] := by
  have hv : c.val.toNat = c.toNat := rfl
  simp only [String.utf8EncodeChar, hv]
  rw [if_pos (by omega)]

/-- How a byte string that is not empty decodes. -/
theorem decode_cons (a : UInt8) (rest : Bytes) :
    decode (a :: rest) =
      if a < 0x80 then (decode rest).map (Char.ofUInt8 a :: ·)
      else if a &&& 0xE0 = 0xC0 then
        match rest with
        | b :: rest => (ofTwo a b).bind fun c => (decode rest).bind fun cs => some (c :: cs)
        | _ => none
      else if a &&& 0xF0 = 0xE0 then
        match rest with
        | b :: c :: rest =>
          (ofThree a b c).bind fun c => (decode rest).bind fun cs => some (c :: cs)
        | _ => none
      else if a &&& 0xF8 = 0xF0 then
        match rest with
        | b :: c :: d :: rest =>
          (ofFour a b c d).bind fun c => (decode rest).bind fun cs => some (c :: cs)
        | _ => none
      else none := by
  conv => lhs; unfold decode
  rfl

/-- Decoding takes the encoding of a character off the front. -/
theorem decode_utf8EncodeChar (c : Char) (rest : Bytes) :
    decode (String.utf8EncodeChar c ++ rest) = (decode rest).map (c :: ·) := by
  have top := toNat_lt c
  by_cases h1 : c.toNat < 0x80
  · have number : (UInt8.ofNat c.toNat).toNat = c.toNat := by
      rw [UInt8.toNat_ofNat']
      exact Nat.mod_eq_of_lt (by omega)
    have small : UInt8.ofNat c.toNat < 0x80 := by
      rw [UInt8.lt_iff_toNat_lt, number]
      exact h1
    have back : Char.ofUInt8 (UInt8.ofNat c.toNat) = c := by
      apply Char.ext
      apply UInt32.toNat_inj.1
      show (Char.ofUInt8 (UInt8.ofNat c.toNat)).toNat = c.toNat
      rw [ofUInt8_toNat, number]
    rw [utf8EncodeChar_one h1, List.singleton_append, decode_cons, if_pos small, back]
  · by_cases h2 : c.toNat < 0x800
    · obtain ⟨a1, a2, a3⟩ := lead_two (x := c.toNat / 64) (by omega)
      have sum : c.toNat / 64 * 64 + c.toNat % 64 = c.toNat := by omega
      have two : ofTwo (UInt8.ofNat (c.toNat / 64 + 192)) (UInt8.ofNat (c.toNat % 64 + 128)) =
          some c := by
        simp only [ofTwo, continuation_ofNat (Nat.mod_lt _ (by decide)), a3, sum,
          Option.bind_eq_bind, Option.bind_some]
        exact scalar_toNat (by omega)
      rw [utf8EncodeChar_two (by omega) h2]
      simp only [List.cons_append, List.nil_append]
      rw [decode_cons, if_neg a1, if_pos a2]
      simp only [two]
      cases decode rest <;> rfl
    · by_cases h3 : c.toNat < 0x10000
      · obtain ⟨a1, a2, a3, a4⟩ := lead_three (x := c.toNat / 4096) (by omega)
        have sum : (c.toNat / 4096 * 64 + c.toNat / 64 % 64) * 64 + c.toNat % 64 = c.toNat := by
          omega
        have three : ofThree (UInt8.ofNat (c.toNat / 4096 + 224))
            (UInt8.ofNat (c.toNat / 64 % 64 + 128)) (UInt8.ofNat (c.toNat % 64 + 128)) =
            some c := by
          simp only [ofThree, continuation_ofNat (Nat.mod_lt _ (by decide)), a4, sum,
            Option.bind_eq_bind, Option.bind_some]
          exact scalar_toNat (by omega)
        rw [utf8EncodeChar_three (by omega) h3]
        simp only [List.cons_append, List.nil_append]
        rw [decode_cons, if_neg a1, if_neg a2, if_pos a3]
        simp only [three]
        cases decode rest <;> rfl
      · obtain ⟨a1, a2, a3, a4, a5⟩ := lead_four (x := c.toNat / 262144) (by omega)
        have sum : ((c.toNat / 262144 * 64 + c.toNat / 4096 % 64) * 64 + c.toNat / 64 % 64) * 64 +
            c.toNat % 64 = c.toNat := by omega
        have four : ofFour (UInt8.ofNat (c.toNat / 262144 + 240))
            (UInt8.ofNat (c.toNat / 4096 % 64 + 128)) (UInt8.ofNat (c.toNat / 64 % 64 + 128))
            (UInt8.ofNat (c.toNat % 64 + 128)) = some c := by
          simp only [ofFour, continuation_ofNat (Nat.mod_lt _ (by decide)), a5, sum,
            Option.bind_eq_bind, Option.bind_some]
          exact scalar_toNat (by omega)
        rw [utf8EncodeChar_four (by omega)]
        simp only [List.cons_append, List.nil_append]
        rw [decode_cons, if_neg a1, if_neg a2, if_neg a3, if_pos a4]
        simp only [four]
        cases decode rest <;> rfl

/-- Every concatenation of character encodings decodes to the characters. -/
theorem decode_encoding (cs : List Char) : decode (encoding cs) = some cs := by
  induction cs with
  | nil => rfl
  | cons c cs ih =>
    have split : encoding (c :: cs) = String.utf8EncodeChar c ++ encoding cs := by
      simp [encoding]
    rw [split, decode_utf8EncodeChar, ih]
    rfl

/-- The first byte of a two-byte form from the bits it holds. -/
theorem of_lead_two {a : UInt8} (h : a &&& 0xE0 = 0xC0) :
    (a &&& 0x1F).toNat < 32 ∧ a = UInt8.ofNat ((a &&& 0x1F).toNat + 192) := by
  have all : ∀ y : Fin 256, UInt8.ofNat y.val &&& 0xE0 = 0xC0 →
      (UInt8.ofNat y.val &&& 0x1F).toNat < 32 ∧
        UInt8.ofNat y.val = UInt8.ofNat ((UInt8.ofNat y.val &&& 0x1F).toNat + 192) := by
    decide +kernel
  have hb : UInt8.ofNat (⟨a.toNat, a.toNat_lt⟩ : Fin 256).val = a := UInt8.ofNat_toNat
  have := all ⟨a.toNat, a.toNat_lt⟩
  rw [hb] at this
  exact this h

/-- The first byte of a three-byte form from the bits it holds. -/
theorem of_lead_three {a : UInt8} (h : a &&& 0xF0 = 0xE0) :
    (a &&& 0x0F).toNat < 16 ∧ a = UInt8.ofNat ((a &&& 0x0F).toNat + 224) := by
  have all : ∀ y : Fin 256, UInt8.ofNat y.val &&& 0xF0 = 0xE0 →
      (UInt8.ofNat y.val &&& 0x0F).toNat < 16 ∧
        UInt8.ofNat y.val = UInt8.ofNat ((UInt8.ofNat y.val &&& 0x0F).toNat + 224) := by
    decide +kernel
  have hb : UInt8.ofNat (⟨a.toNat, a.toNat_lt⟩ : Fin 256).val = a := UInt8.ofNat_toNat
  have := all ⟨a.toNat, a.toNat_lt⟩
  rw [hb] at this
  exact this h

/-- The first byte of a four-byte form from the bits it holds. -/
theorem of_lead_four {a : UInt8} (h : a &&& 0xF8 = 0xF0) :
    (a &&& 0x07).toNat < 8 ∧ a = UInt8.ofNat ((a &&& 0x07).toNat + 240) := by
  have all : ∀ y : Fin 256, UInt8.ofNat y.val &&& 0xF8 = 0xF0 →
      (UInt8.ofNat y.val &&& 0x07).toNat < 8 ∧
        UInt8.ofNat y.val = UInt8.ofNat ((UInt8.ofNat y.val &&& 0x07).toNat + 240) := by
    decide +kernel
  have hb : UInt8.ofNat (⟨a.toNat, a.toNat_lt⟩ : Fin 256).val = a := UInt8.ofNat_toNat
  have := all ⟨a.toNat, a.toNat_lt⟩
  rw [hb] at this
  exact this h

/-- Two bytes that give a character are its encoding. -/
theorem of_ofTwo {a b : UInt8} {c : Char} (ha : a &&& 0xE0 = 0xC0) (h : ofTwo a b = some c) :
    String.utf8EncodeChar c = [a, b] := by
  unfold ofTwo at h
  obtain ⟨x, hx, hc⟩ := Option.bind_eq_some_iff.1 h
  obtain ⟨hx64, hb⟩ := of_continuation hx
  obtain ⟨ha32, ha'⟩ := of_lead_two ha
  obtain ⟨hleast, hv⟩ := of_scalar hc
  have q : c.toNat / 64 = (a &&& 0x1F).toNat := by omega
  have r : c.toNat % 64 = x := by omega
  rw [utf8EncodeChar_two (by omega) (by omega), q, r, ← ha', ← hb]

/-- Three bytes that give a character are its encoding. -/
theorem of_ofThree {a b d : UInt8} {c : Char} (ha : a &&& 0xF0 = 0xE0)
    (h : ofThree a b d = some c) : String.utf8EncodeChar c = [a, b, d] := by
  unfold ofThree at h
  obtain ⟨x, hx, h⟩ := Option.bind_eq_some_iff.1 h
  obtain ⟨y, hy, hc⟩ := Option.bind_eq_some_iff.1 h
  obtain ⟨hx64, hb⟩ := of_continuation hx
  obtain ⟨hy64, hd⟩ := of_continuation hy
  obtain ⟨ha16, ha'⟩ := of_lead_three ha
  obtain ⟨hleast, hv⟩ := of_scalar hc
  have q : c.toNat / 4096 = (a &&& 0x0F).toNat := by omega
  have r : c.toNat / 64 % 64 = x := by omega
  have t : c.toNat % 64 = y := by omega
  rw [utf8EncodeChar_three (by omega) (by omega), q, r, t, ← ha', ← hb, ← hd]

/-- Four bytes that give a character are its encoding. -/
theorem of_ofFour {a b d e : UInt8} {c : Char} (ha : a &&& 0xF8 = 0xF0)
    (h : ofFour a b d e = some c) : String.utf8EncodeChar c = [a, b, d, e] := by
  unfold ofFour at h
  obtain ⟨x, hx, h⟩ := Option.bind_eq_some_iff.1 h
  obtain ⟨y, hy, h⟩ := Option.bind_eq_some_iff.1 h
  obtain ⟨z, hz, hc⟩ := Option.bind_eq_some_iff.1 h
  obtain ⟨hx64, hb⟩ := of_continuation hx
  obtain ⟨hy64, hd⟩ := of_continuation hy
  obtain ⟨hz64, he⟩ := of_continuation hz
  obtain ⟨ha8, ha'⟩ := of_lead_four ha
  obtain ⟨hleast, hv⟩ := of_scalar hc
  have q : c.toNat / 262144 = (a &&& 0x07).toNat := by omega
  have r : c.toNat / 4096 % 64 = x := by omega
  have t : c.toNat / 64 % 64 = y := by omega
  have u : c.toNat % 64 = z := by omega
  rw [utf8EncodeChar_four (by omega), q, r, t, u, ← ha', ← hb, ← hd, ← he]

/-- What decodes is the concatenation of the encodings of its characters. -/
theorem eq_encoding_of_decode {bs : Bytes} {cs : List Char} (h : decode bs = some cs) :
    bs = encoding cs := by
  induction n : bs.length using Nat.strongRecOn generalizing bs cs with
  | ind n ih =>
    subst n
    match bs with
    | [] =>
      cases h
      rfl
    | a :: rest =>
      -- All four forms end alike: the bytes of one character in front, and a shorter rest that the
      -- induction covers.
      have chain : ∀ {u v : Bytes} {c : Char}, a :: rest = u ++ v → u ≠ [] →
          String.utf8EncodeChar c = u →
          (decode v).bind (fun cs => some (c :: cs)) = some cs → a :: rest = encoding cs := by
        intro u v c split nonempty enc hd
        obtain ⟨ds, hds, e⟩ := Option.bind_eq_some_iff.1 hd
        cases e
        have shorter : v.length < (a :: rest).length := by
          rw [split, List.length_append]
          have := List.length_pos_iff.2 nonempty
          omega
        have more := ih v.length shorter hds rfl
        rw [split, more, encoding, encoding, List.flatMap_cons, enc]
      rw [decode_cons] at h
      split at h
      · rename_i small
        obtain ⟨ds, hds, e⟩ := Option.map_eq_some_iff.1 h
        refine chain (u := [a]) (v := rest) (c := Char.ofUInt8 a) rfl (by simp) ?_ ?_
        · have number : (Char.ofUInt8 a).toNat = a.toNat := ofUInt8_toNat a
          rw [utf8EncodeChar_one (by rw [number]; exact UInt8.lt_iff_toNat_lt.1 small), number,
            UInt8.ofNat_toNat]
        · rw [hds, ← e]
          rfl
      · split at h
        · rename_i lead
          split at h
          · obtain ⟨c, hc, hd⟩ := Option.bind_eq_some_iff.1 h
            exact chain (u := [a, _]) rfl (by simp) (of_ofTwo lead hc) hd
          · cases h
        · split at h
          · rename_i lead
            split at h
            · obtain ⟨c, hc, hd⟩ := Option.bind_eq_some_iff.1 h
              exact chain (u := [a, _, _]) rfl (by simp) (of_ofThree lead hc) hd
            · cases h
          · split at h
            · rename_i lead
              split at h
              · obtain ⟨c, hc, hd⟩ := Option.bind_eq_some_iff.1 h
                exact chain (u := [a, _, _, _]) rfl (by simp) (of_ofFour lead hc) hd
              · cases h
            · cases h

/-- Decoding to characters means being the concatenation of their encodings. -/
theorem decode_eq_some_iff {bs : Bytes} {cs : List Char} :
    decode bs = some cs ↔ bs = encoding cs :=
  ⟨eq_encoding_of_decode, fun h => h ▸ decode_encoding cs⟩

/-- A text is found exactly where its encoding stands. -/
theorem text?_eq_some_iff {bs : Bytes} {s : String} : text? bs = some s ↔ bs = encode s := by
  unfold text? encode
  constructor
  · intro h
    obtain ⟨cs, hcs, rfl⟩ := Option.map_eq_some_iff.1 h
    rw [String.toList_ofList]
    exact eq_encoding_of_decode hcs
  · intro h
    rw [h, decode_encoding, Option.map_some, String.ofList_toList]

end DexFeed.Utf8
