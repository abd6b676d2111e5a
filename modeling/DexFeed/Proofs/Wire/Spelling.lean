import DexFeed.Text.Utf8.Lemmas
import DexFeed.Proofs.Wire.Numeral

/-!
# Spellings of values

`WireType.Spells` says which byte strings spell a value: one for every value, except that every byte
but zero spells true, and except that a text or a list too long for its 32-bit count has none.
`parse_eq_some_iff` ties the reader of values to it: a value is read off the front of a byte string
exactly when the string begins with a spelling of the value, and what is left is the rest.
-/

namespace DexFeed

namespace WireType

/-- The byte strings that spell a value. -/
def Spells : (t : WireType) → t.Value → Bytes → Prop
  | flag, v, bs => ∃ b : UInt8, bs = [b] ∧ v = (b != 0)
  | text, v, bs => (Utf8.encode v).length < 2 ^ 32 ∧ bs = spell text v
  | keys, v, bs => List.length v < 2 ^ 32 ∧ bs = spell keys v
  | t, v, bs => bs = t.spell v

/-- Whether a value has a spelling: a text or a list must not be too long for its 32-bit count. -/
def Fits : (t : WireType) → t.Value → Prop
  | text, v => (Utf8.encode v).length < 2 ^ 32
  | keys, v => List.length v < 2 ^ 32
  | _, _ => True

/-- The zero of every type has a spelling. -/
theorem fits_zero (t : WireType) : t.Fits t.zero := by
  cases t with
  | text => exact Nat.two_pow_pos 32
  | keys => exact Nat.two_pow_pos 32
  | _ => trivial

/-- The bytes that `spell` writes are a spelling of every value that has one. -/
theorem spells_spell {t : WireType} {v : t.Value} (h : t.Fits v) : t.Spells v (t.spell v) := by
  cases t with
  | flag =>
    cases v with
    | false => exact ⟨0, rfl, rfl⟩
    | true => exact ⟨1, rfl, rfl⟩
  | text => exact ⟨h, rfl⟩
  | keys => exact ⟨h, rfl⟩
  | _ => rfl

end WireType

/-- A key list is read exactly where as many keys stand. -/
theorem parseKeys_eq_some_iff {n : Nat} {ks : List Key} {bs rest : Bytes} :
    parseKeys n bs = some (ks, rest) ↔ ks.length = n ∧ bs = ks.flatMap Fixed.bytes ++ rest := by
  constructor
  · intro h
    induction n generalizing ks bs with
    | zero =>
      cases h
      exact ⟨rfl, rfl⟩
    | succ n ih =>
      unfold parseKeys at h
      obtain ⟨⟨k, mid⟩, hk, h⟩ := Option.bind_eq_some_iff.1 h
      obtain ⟨⟨more, left⟩, hm, e⟩ := Option.bind_eq_some_iff.1 h
      cases e
      obtain ⟨hl, hb⟩ := ih hm
      refine ⟨by simp [hl], ?_⟩
      rw [Fixed.eq_append_of_take? hk, hb]
      simp
  · rintro ⟨rfl, rfl⟩
    exact parseKeys_append ks rest

/-- Text is read exactly where its length and its encoding stand. -/
theorem parseText_eq_some_iff {s : String} {bs rest : Bytes} :
    parseText bs = some (s, rest) ↔
      (Utf8.encode s).length < 2 ^ 32 ∧
        bs = littleEndian 4 (Utf8.encode s).length ++ Utf8.encode s ++ rest := by
  constructor
  · intro h
    unfold parseText at h
    obtain ⟨⟨n, mid⟩, hn, h⟩ := Option.bind_eq_some_iff.1 h
    obtain ⟨hbs, hlt⟩ := eq_append_of_parseNat hn
    simp only at h
    split at h
    · rename_i fits
      obtain ⟨t, ht, e⟩ := Option.bind_eq_some_iff.1 h
      cases e
      have enc : mid.take n = Utf8.encode s := Utf8.text?_eq_some_iff.1 ht
      have len : (Utf8.encode s).length = n := by
        rw [← enc, List.length_take, Nat.min_eq_left fits]
      refine ⟨by rw [len]; exact hlt, ?_⟩
      rw [hbs, len, ← enc, List.append_assoc, List.take_append_drop]
    · cases h
  · rintro ⟨hlt, rfl⟩
    have read := parseNat_append (n := 4) (v := (Utf8.encode s).length) hlt (Utf8.encode s ++ rest)
    unfold parseText
    rw [List.append_assoc, read]
    simp [Utf8.text?_eq_some_iff.2 (rfl : Utf8.encode s = Utf8.encode s)]

/-- A number of `n` bytes is read exactly where its numeral stands. -/
theorem parseNat_eq_some_iff {n v : Nat} {bs rest : Bytes} :
    parseNat n bs = some (v, rest) ↔ v < 256 ^ n ∧ bs = littleEndian n v ++ rest := by
  constructor
  · intro h
    exact ⟨(eq_append_of_parseNat h).2, (eq_append_of_parseNat h).1⟩
  · rintro ⟨hv, rfl⟩
    exact parseNat_append hv rest

/-- A value made of a number of `n` bytes by a bijection is read exactly where its numeral
stands. -/
theorem map_parseNat_eq_some_iff {α : Type} {n : Nat} {f : Nat → α} {g : α → Nat}
    (g_lt : ∀ x, g x < 256 ^ n) (f_g : ∀ x, f (g x) = x)
    (g_f : ∀ v, v < 256 ^ n → g (f v) = v) {x : α} {bs rest : Bytes} :
    (parseNat n bs).map (fun p => (f p.1, p.2)) = some (x, rest) ↔
      bs = littleEndian n (g x) ++ rest := by
  constructor
  · intro h
    obtain ⟨⟨v, r⟩, hv, e⟩ := Option.map_eq_some_iff.1 h
    cases e
    obtain ⟨hlt, hbs⟩ := parseNat_eq_some_iff.1 hv
    rw [g_f v hlt]
    exact hbs
  · intro h
    rw [parseNat_eq_some_iff.2 ⟨g_lt x, h⟩]
    simp [f_g]

/-- A number of one byte is read exactly where that byte stands. -/
theorem parseNat_one_eq_some_iff {k : Nat} {bs rest : Bytes} :
    parseNat 1 bs = some (k, rest) ↔ ∃ b : UInt8, k = b.toNat ∧ bs = [b] ++ rest := by
  rw [parseNat_eq_some_iff]
  constructor
  · rintro ⟨hlt, hbs⟩
    have hbyte : (UInt8.ofNat k).toNat = k := by
      rw [UInt8.toNat_ofNat']
      exact Nat.mod_eq_of_lt hlt
    refine ⟨UInt8.ofNat k, hbyte.symm, ?_⟩
    rw [hbs]
    simp [littleEndian, Nat.mod_eq_of_lt (show k < 256 from hlt)]
  · rintro ⟨b, rfl, hbs⟩
    refine ⟨b.toNat_lt, ?_⟩
    rw [hbs]
    simp [littleEndian, Nat.mod_eq_of_lt b.toNat_lt]

/-- The word of a number that fits in eight bytes is that number. -/
theorem toNat_word {k : Nat} (h : k < 256 ^ 8) : (UInt64.ofNat k).toNat = k := by
  rw [UInt64.toNat_ofNat']
  exact Nat.mod_eq_of_lt h

/-- A word is read back from its eight bytes. -/
theorem parseNat_word (w : UInt64) (rest : Bytes) :
    parseNat 8 (littleEndian 8 w.toNat ++ rest) = some (w.toNat, rest) :=
  parseNat_append (n := 8) w.toNat_lt rest

namespace WireType

variable {bs rest : Bytes}

/-- A value with one spelling is spelled where that stands. -/
theorem exists_spelling_iff {s : Bytes} :
    (∃ s', s' = s ∧ bs = s' ++ rest) ↔ bs = s ++ rest :=
  ⟨fun ⟨_, hs, hbs⟩ => hs ▸ hbs, fun hbs => ⟨s, rfl, hbs⟩⟩

/-- A truth value is read where a byte stands that says so: zero for false, any other for true. -/
theorem parse_flag_eq_some_iff {v : Bool} :
    flag.parse bs = some (v, rest) ↔ ∃ s, flag.Spells v s ∧ bs = s ++ rest := by
  have hzero : ∀ b : UInt8, (b.toNat != 0) = (b != 0) := by
    intro b
    rw [Bool.eq_iff_iff, bne_iff_ne, bne_iff_ne, Ne, Ne, ← UInt8.toNat_inj]
    rfl
  constructor
  · intro h
    obtain ⟨⟨k, r⟩, hk, e⟩ := Option.map_eq_some_iff.1 h
    cases e
    obtain ⟨b, rfl, hbs⟩ := parseNat_one_eq_some_iff.1 hk
    exact ⟨[b], ⟨b, rfl, hzero b⟩, hbs⟩
  · rintro ⟨s, ⟨b, rfl, rfl⟩, hbs⟩
    have hread : parseNat 1 bs = some (b.toNat, rest) :=
      parseNat_one_eq_some_iff.2 ⟨b, rfl, hbs⟩
    rw [parse, hread, ← hzero b]
    rfl

/-- A list of keys is read where their number and the keys stand. -/
theorem parse_keys_eq_some_iff {v : List Key} :
    keys.parse bs = some (v, rest) ↔ ∃ s, keys.Spells v s ∧ bs = s ++ rest := by
  constructor
  · intro h
    obtain ⟨⟨n, mid⟩, hn, h⟩ := Option.bind_eq_some_iff.1 h
    obtain ⟨hlt, hbs⟩ := parseNat_eq_some_iff.1 hn
    obtain ⟨hl, hmid⟩ := parseKeys_eq_some_iff.1 h
    refine ⟨_, ⟨by rw [hl]; exact hlt, rfl⟩, ?_⟩
    rw [hbs, hmid, ← hl]
    simp [spell]
  · rintro ⟨s, ⟨hlt, rfl⟩, rfl⟩
    have hread := parseNat_append (n := 4) (v := List.length v) hlt
      (List.flatMap Fixed.bytes v ++ rest)
    simp only [parse, spell, List.append_assoc, hread, Option.bind_eq_bind, Option.bind_some]
    exact parseKeys_append v rest

/-- A side is read where the byte 0 or 1 stands. -/
theorem parse_side_eq_some_iff {v : Side} :
    side.parse bs = some (v, rest) ↔ ∃ s, side.Spells v s ∧ bs = s ++ rest := by
  constructor
  · intro h
    obtain ⟨⟨k, mid⟩, hk, h⟩ := Option.bind_eq_some_iff.1 h
    obtain ⟨-, hbs⟩ := parseNat_eq_some_iff.1 hk
    simp only at h
    split at h
    · cases h
      exact ⟨[0], rfl, hbs⟩
    · cases h
      exact ⟨[1], rfl, hbs⟩
    · cases h
  · rintro ⟨s, hs, rfl⟩
    cases v with
    | buy =>
      cases hs
      rfl
    | sell =>
      cases hs
      rfl

/-- Three words are read where their bytes stand one behind the other. -/
theorem parse_triple_eq_some_iff {v : UInt64 × UInt64 × UInt64} :
    triple.parse bs = some (v, rest) ↔ ∃ s, triple.Spells v s ∧ bs = s ++ rest := by
  obtain ⟨x, y, z⟩ := v
  constructor
  · intro h
    obtain ⟨⟨a, m⟩, ha, h⟩ := Option.bind_eq_some_iff.1 h
    obtain ⟨⟨b, m'⟩, hb, h⟩ := Option.bind_eq_some_iff.1 h
    obtain ⟨⟨c, m''⟩, hc, e⟩ := Option.bind_eq_some_iff.1 h
    cases e
    obtain ⟨la, ea⟩ := parseNat_eq_some_iff.1 ha
    obtain ⟨lb, eb⟩ := parseNat_eq_some_iff.1 hb
    obtain ⟨lc, ec⟩ := parseNat_eq_some_iff.1 hc
    refine ⟨_, rfl, ?_⟩
    simp only [spell, toNat_word la, toNat_word lb, toNat_word lc, List.append_assoc]
    rw [ea, eb, ec]
  · rintro ⟨s, hs, rfl⟩
    cases hs
    simp [parse, spell, parseNat_word]

/-- A value is read off the front of a byte string exactly when a spelling of it stands there. -/
theorem parse_eq_some_iff {t : WireType} {v : t.Value} :
    t.parse bs = some (v, rest) ↔ ∃ s, t.Spells v s ∧ bs = s ++ rest := by
  cases t with
  | u8 =>
    exact (map_parseNat_eq_some_iff (n := 1) (f := UInt8.ofNat) (g := UInt8.toNat)
      (fun x => x.toNat_lt) (fun x => UInt8.ofNat_toNat)
      (fun k hk => by rw [UInt8.toNat_ofNat']; exact Nat.mod_eq_of_lt hk)).trans
      exists_spelling_iff.symm
  | u16 =>
    exact (map_parseNat_eq_some_iff (n := 2) (f := UInt16.ofNat) (g := UInt16.toNat)
      (fun x => x.toNat_lt) (fun x => UInt16.ofNat_toNat)
      (fun k hk => by rw [UInt16.toNat_ofNat']; exact Nat.mod_eq_of_lt hk)).trans
      exists_spelling_iff.symm
  | u32 =>
    exact (map_parseNat_eq_some_iff (n := 4) (f := UInt32.ofNat) (g := UInt32.toNat)
      (fun x => x.toNat_lt) (fun x => UInt32.ofNat_toNat)
      (fun k hk => by rw [UInt32.toNat_ofNat']; exact Nat.mod_eq_of_lt hk)).trans
      exists_spelling_iff.symm
  | u64 =>
    exact (map_parseNat_eq_some_iff (n := 8) (f := UInt64.ofNat) (g := UInt64.toNat)
      (fun x => x.toNat_lt) (fun x => UInt64.ofNat_toNat) (fun k hk => toNat_word hk)).trans
      exists_spelling_iff.symm
  | u128 =>
    exact (map_parseNat_eq_some_iff (n := 16) (f := BitVec.ofNat 128) (g := BitVec.toNat)
      (fun x => x.isLt) (fun x => BitVec.ofNat_toNat 128 x |>.trans (BitVec.setWidth_eq x))
      (fun k hk => by rw [BitVec.toNat_ofNat]; exact Nat.mod_eq_of_lt hk)).trans
      exists_spelling_iff.symm
  | i32 =>
    exact (map_parseNat_eq_some_iff (n := 4) (f := fun k => (UInt32.ofNat k).toInt32)
      (g := fun x => x.toUInt32.toNat) (fun x => x.toUInt32.toNat_lt)
      (fun x => by rw [UInt32.ofNat_toNat]; rfl)
      (fun k hk => by
        rw [UInt32.toUInt32_toInt32, UInt32.toNat_ofNat']
        exact Nat.mod_eq_of_lt hk)).trans exists_spelling_iff.symm
  | i64 =>
    exact (map_parseNat_eq_some_iff (n := 8) (f := fun k => (UInt64.ofNat k).toInt64)
      (g := fun x => x.toUInt64.toNat) (fun x => x.toUInt64.toNat_lt)
      (fun x => by rw [UInt64.ofNat_toNat]; rfl)
      (fun k hk => by
        rw [UInt64.toUInt64_toInt64]
        exact toNat_word hk)).trans exists_spelling_iff.symm
  | flag => exact parse_flag_eq_some_iff
  | key =>
    refine Iff.trans ⟨Fixed.eq_append_of_take?, ?_⟩ exists_spelling_iff.symm
    intro h
    rw [h]
    exact Fixed.take?_append v rest
  | text =>
    constructor
    · intro h
      obtain ⟨hlt, hbs⟩ := parseText_eq_some_iff.1 h
      exact ⟨_, ⟨hlt, rfl⟩, hbs⟩
    · rintro ⟨s, ⟨hlt, rfl⟩, rfl⟩
      exact parseText_eq_some_iff.2 ⟨hlt, rfl⟩
  | keys => exact parse_keys_eq_some_iff
  | side => exact parse_side_eq_some_iff
  | triple => exact parse_triple_eq_some_iff

/-- A byte string spells one value at most. -/
theorem spells_inj {t : WireType} {v w : t.Value} {s : Bytes} (hv : t.Spells v s)
    (hw : t.Spells w s) : v = w := by
  have parsed : t.parse s = some (v, []) :=
    parse_eq_some_iff.2 ⟨s, hv, (List.append_nil s).symm⟩
  have parsed' : t.parse s = some (w, []) :=
    parse_eq_some_iff.2 ⟨s, hw, (List.append_nil s).symm⟩
  rw [parsed, Option.some.injEq, Prod.mk.injEq] at parsed'
  exact parsed'.1

end WireType

end DexFeed
