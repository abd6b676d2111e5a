import DexFeed.Proofs.Text.Utf8
import DexFeed.Proofs.Wire.Extent
import DexFeed.Proofs.Wire.Reader
import DexFeed.Wire.Cursor

/-!
# Reading from memory is reading from bytes

A cursor in a memory stands for a reader of the bytes of its buffer. `Follows` says that what a
cursor does in answer to a request agrees with what the reader answers, that it looks only at bytes
of the buffer behind the position, and that the caller's variable stays where there is no answer.
The word arithmetic enters in one place, `fits_iff`: a length fits exactly when the sum of offset
and length, taken without wrapping, is at most the size.
-/

namespace DexFeed

namespace Cursor

variable {memory : Memory} {c : Cursor} {t : WireType} {n : UInt64} {k : Nat}

/-- The reader that a cursor stands for. -/
def reader (memory : Memory) (c : Cursor) : Reader :=
  ⟨memory.span 0 c.size.toNat, c.offset.toNat, c.failed⟩

/-- A new cursor is a new reader of its buffer. -/
theorem reader_start (memory : Memory) (size offset : UInt64) :
    (start size offset).reader memory =
      Reader.start (memory.span 0 size.toNat) offset.toNat := by
  have hlatch : decide (size < offset) = decide (size.toNat < offset.toNat) :=
    decide_eq_decide.2 UInt64.lt_iff_toNat_lt
  rw [reader, Reader.start, Memory.length_span, start, hlatch]

/-- A cursor in a memory is known by its reader. -/
theorem eq_of_reader_eq {c c' : Cursor} (h : c.reader memory = c'.reader memory) : c = c' := by
  have hsize : c.size.toNat = c'.size.toNat := by
    have hlength := congrArg (fun r => r.bytes.length) h
    simp only [reader, Memory.length_span] at hlength
    exact hlength
  have hoffset : c.offset.toNat = c'.offset.toNat := congrArg Reader.offset h
  have hfailed : c.failed = c'.failed := congrArg Reader.failed h
  exact Cursor.ext (UInt64.toNat_inj.1 hsize) (UInt64.toNat_inj.1 hoffset) hfailed

/-- The bytes left to the reader are those of the buffer behind the position. -/
theorem rest_reader (memory : Memory) (c : Cursor) :
    (c.reader memory).rest = memory.span c.offset.toNat (c.size.toNat - c.offset.toNat) := by
  rw [Reader.rest, reader, Memory.drop_span, Nat.zero_add]

/-- As many bytes are left as the size exceeds the position. -/
theorem remaining_reader (memory : Memory) (c : Cursor) :
    (c.reader memory).remaining = c.size.toNat - c.offset.toNat := by
  rw [Reader.remaining, reader, Memory.length_span]

/-- The words of a cursor count what is left, zero past the end. -/
theorem toNat_remaining (c : Cursor) : c.remaining.toNat = c.size.toNat - c.offset.toNat := by
  rw [remaining]
  by_cases h : c.offset ≤ c.size
  · rw [if_pos h, UInt64.toNat_sub_of_le _ _ h]
  · have hlt : c.size.toNat < c.offset.toNat := UInt64.lt_iff_toNat_lt.1 (UInt64.not_le.1 h)
    rw [if_neg h, UInt64.toNat_zero]
    omega

/-! ## Room -/

/-- A length fits if it does not lead past the end; the sum is one of numbers and does not wrap. -/
theorem fits_iff : c.fits n = true ↔
    c.failed = false ∧ c.offset.toNat + n.toNat ≤ c.size.toNat := by
  rw [fits, Bool.and_eq_true, Bool.and_eq_true, Bool.not_eq_true', decide_eq_true_eq,
    decide_eq_true_eq, and_assoc]
  refine and_congr_right fun _ => ?_
  constructor
  · rintro ⟨hoffset, hn⟩
    have hle : c.offset.toNat ≤ c.size.toNat := UInt64.le_iff_toNat_le.1 hoffset
    have hsum := UInt64.le_iff_toNat_le.1 hn
    rw [UInt64.toNat_sub_of_le _ _ hoffset] at hsum
    omega
  · intro hsum
    have hoffset : c.offset ≤ c.size := UInt64.le_iff_toNat_le.2 (by omega)
    refine ⟨hoffset, UInt64.le_iff_toNat_le.2 ?_⟩
    rw [UInt64.toNat_sub_of_le _ _ hoffset]
    omega

/-- A cursor that has not failed stands within its buffer. -/
theorem offset_le_size (sound : (c.reader memory).Sound) (live : c.failed = false) :
    c.offset.toNat ≤ c.size.toNat := by
  have hle := sound live
  rw [reader, Memory.length_span] at hle
  exact hle

/-- A length that does not fit is more than what is left. -/
theorem remaining_lt_of_not_fits (sound : (c.reader memory).Sound) (h : ¬c.fits n = true)
    (live : c.failed = false) : (c.reader memory).remaining < n.toNat := by
  have hoffset := offset_le_size sound live
  have hroom : ¬c.offset.toNat + n.toNat ≤ c.size.toNat := fun hle => h (fits_iff.2 ⟨live, hle⟩)
  rw [remaining_reader]
  omega

/-- To advance over bytes that are there does not wrap. -/
theorem toNat_offset_advance (h : c.fits n = true) :
    (c.advance n).offset.toNat = c.offset.toNat + n.toNat := by
  have hroom := (fits_iff.1 h).2
  have hsize := c.size.toNat_lt
  rw [advance, UInt64.toNat_add]
  exact Nat.mod_eq_of_lt (by omega)

/-- To advance moves the reader. -/
theorem reader_advance (h : c.fits n = true) : (c.advance n).reader memory =
    { c.reader memory with offset := c.offset.toNat + n.toNat } := by
  rw [reader, toNat_offset_advance h]
  rfl

/-- The cursor behind some bytes that fit stands for the reader that was moved there. -/
theorem reader_advance_eq_moveTo (h : c.fits n = true) : (c.advance n).reader memory =
    (c.reader memory).moveTo ((c.reader memory).rest.drop n.toNat) := by
  obtain ⟨-, hroom⟩ := fits_iff.1 h
  have hlength : (memory.span 0 c.size.toNat).length -
      ((c.reader memory).rest.drop n.toNat).length = c.offset.toNat + n.toNat := by
    rw [List.length_drop, Reader.length_rest, remaining_reader, Memory.length_span]
    omega
  rw [reader_advance h]
  exact congrArg (Reader.mk (memory.span 0 c.size.toNat) · c.failed) hlength.symm

/-- The bytes at the position are the first that are left. -/
theorem take_rest (memory : Memory) (h : c.fits n = true) :
    (c.reader memory).rest.take n.toNat = memory.span c.offset.toNat n.toNat := by
  obtain ⟨-, hroom⟩ := fits_iff.1 h
  rw [rest_reader, Memory.take_span]
  omega

/-- What is looked at in bytes that fit lies in the buffer. -/
theorem within_of_fits {α : Type} {p : Probe α} (h : c.fits n = true)
    (hp : p.Within memory c.offset.toNat (c.offset.toNat + n.toNat)) :
    p.Within memory c.offset.toNat c.size.toNat :=
  hp.mono (Nat.le_refl _) (fits_iff.1 h).2

/-! ## Following a reader -/

/-- A computation of a cursor does in a memory what a reader answers. -/
structure Follows {α : Type} (memory : Memory) (c : Cursor) (x : α)
    (answer : Option α × Reader) (p : Probe (Outcome α)) : Prop where
  /-- It looks at nothing but bytes of the buffer behind the position. -/
  within : p.Within memory c.offset.toNat c.size.toNat
  /-- It succeeds where there is an answer. -/
  success : (p.run memory).success = answer.1.isSome
  /-- The variable is the answer, and it stays where there is none. -/
  value : (p.run memory).value = answer.1.getD x
  /-- It ends where the reader does. -/
  cursor : (p.run memory).cursor.reader memory = answer.2

section Steps

variable {α β : Type} {x : α} {answer : Option α × Reader}

/-- A step that looks only at what is left does not keep a computation from following a reader. -/
theorem Follows.bind {p : Probe β} {f : β → Probe (Outcome α)}
    (hp : p.Within memory c.offset.toNat c.size.toNat)
    (h : Follows memory c x answer (f (p.run memory))) : Follows memory c x answer (p >>= f) := by
  refine ⟨hp.bind h.within, ?_, ?_, ?_⟩
  · rw [Probe.run_bind]
    exact h.success
  · rw [Probe.run_bind]
    exact h.value
  · rw [Probe.run_bind]
    exact h.cursor

/-- What follows a reader behind some bytes that fit looks only at what is left in front of them. -/
theorem Follows.of_advance {p : Probe (Outcome α)} (h : c.fits n = true)
    (hp : Follows memory (c.advance n) x answer p) : Follows memory c x answer p := by
  have hoffset : c.offset.toNat ≤ (c.advance n).offset.toNat := by
    rw [toNat_offset_advance h]
    exact Nat.le_add_right _ _
  exact ⟨hp.within.mono hoffset (Nat.le_refl _), hp.success, hp.value, hp.cursor⟩

end Steps

/-- A computation that looks at nothing and fails. -/
theorem follows_failure {α : Type} {x : α} {r : Reader} {c' : Cursor}
    (h : c'.reader memory = r) : Follows memory c x (none, r) (pure ⟨false, x, c'⟩) :=
  ⟨Probe.within_pure _, rfl, rfl, h⟩

/-- Every width fits a word. -/
theorem toNat_width (t : WireType) : (UInt64.ofNat t.width).toNat = t.width := by
  cases t <;> rfl

/-- Where a plain value fits it stands at the position of the reader. -/
theorem parse_of_fits (plain : t.isPlain = true) (h : c.fits (.ofNat t.width) = true) :
    t.parse (c.reader memory).rest = some (t.ofBytes (memory.span c.offset.toNat t.width),
      (c.reader memory).rest.drop t.width) := by
  have hroom : t.width ≤ (c.reader memory).rest.length := by
    have hsum := (fits_iff.1 h).2
    rw [toNat_width] at hsum
    rw [Reader.length_rest, remaining_reader]
    omega
  have htake := take_rest memory h
  rw [toNat_width] at htake
  obtain ⟨v, hparse, hspells⟩ := WireType.exists_parse plain hroom
  rw [htake] at hspells
  have halone : t.parse (memory.span c.offset.toNat t.width) = some (v, []) :=
    WireType.parse_eq_some_iff.2 ⟨_, hspells, (List.append_nil _).symm⟩
  rw [hparse, WireType.ofBytes, halone]
  rfl

/-- Where a plain value does not fit there is none at the position of the reader. -/
theorem parse_of_not_fits (plain : t.isPlain = true) (sound : (c.reader memory).Sound)
    (h : ¬c.fits (.ofNat t.width) = true) (live : c.failed = false) :
    t.parse (c.reader memory).rest = none := by
  have hroom := remaining_lt_of_not_fits sound h live
  rw [toNat_width, ← Reader.length_rest] at hroom
  exact WireType.parse_eq_none plain hroom

/-- Bytes that fit are looked at and moved past. -/
theorem follows_fetch {α : Type} (memory : Memory) (h : c.fits n = true) (f : Bytes → α) (x : α) :
    Follows memory c x
      (some (f (memory.span c.offset.toNat n.toNat)),
        (c.reader memory).moveTo ((c.reader memory).rest.drop n.toNat))
      (do
        let bs ← Probe.fetch c.offset.toNat n.toNat
        return ⟨true, f bs, c.advance n⟩) := by
  refine Follows.bind (within_of_fits h (Probe.within_fetch _ _)) ?_
  rw [Probe.run_fetch]
  exact ⟨Probe.within_pure _, rfl, rfl, reader_advance_eq_moveTo h⟩

/-- A value of fixed width is read as the reader reads it. -/
theorem follows_plain (plain : t.isPlain = true) (sound : (c.reader memory).Sound)
    (x : t.Value) : Follows memory c x ((c.reader memory).read t) (c.plain t x) := by
  rw [Cursor.plain]
  by_cases h : c.fits (.ofNat t.width) = true
  · have live : (c.reader memory).failed = false := (fits_iff.1 h).1
    rw [if_pos h, Reader.read_of_parse live (parse_of_fits plain h)]
    have hfetch := follows_fetch memory h t.ofBytes x
    rw [toNat_width] at hfetch
    exact hfetch
  · rw [if_neg h, Reader.read_of_refused (parse_of_not_fits plain sound h)]
    exact follows_failure rfl

/-- An optional value is read as the reader reads it, and its absence leaves no trace. -/
theorem follows_optional (plain : t.isPlain = true) (sound : (c.reader memory).Sound)
    (x : t.Value) : Follows memory c x ((c.reader memory).readOptional t) (c.optional t x) := by
  rw [Cursor.optional]
  by_cases h : c.fits (.ofNat t.width) = true
  · have live : (c.reader memory).failed = false := (fits_iff.1 h).1
    have hread := follows_plain plain sound x
    rw [Reader.read_of_parse live (parse_of_fits plain h)] at hread
    rw [if_pos h, Reader.readOptional_of_parse live (parse_of_fits plain h)]
    exact hread
  · rw [if_neg h, Reader.readOptional_of_refused (parse_of_not_fits plain sound h)]
    exact follows_failure rfl

/-- Bytes are skipped as the reader skips them. -/
theorem follows_skip (sound : (c.reader memory).Sound) (n : UInt64) :
    Follows memory c () ((c.reader memory).answer (.skip n)) (c.skip n) := by
  show Follows memory c () (if ((c.reader memory).skip n.toNat).1 then some () else none,
    ((c.reader memory).skip n.toNat).2) (c.skip n)
  rw [Cursor.skip]
  by_cases h : c.fits n = true
  · obtain ⟨live, hsum⟩ := fits_iff.1 h
    have hlatch : ¬(c.reader memory).failed = true := Bool.eq_false_iff.1 live
    have hroom : n.toNat ≤ (c.reader memory).remaining := by
      rw [remaining_reader]
      omega
    rw [if_pos h, Reader.skip, if_neg hlatch, if_pos hroom]
    exact ⟨Probe.within_pure _, rfl, rfl, reader_advance h⟩
  · rw [if_neg h]
    by_cases hfailed : c.failed = true
    · have hlatch : (c.reader memory).failed = true := hfailed
      rw [Reader.skip_of_failed hlatch]
      exact follows_failure (Reader.fail_of_failed hlatch)
    · have hlatch : ¬(c.reader memory).failed = true := hfailed
      have hroom : ¬n.toNat ≤ (c.reader memory).remaining :=
        Nat.not_le_of_lt (remaining_lt_of_not_fits sound h (Bool.eq_false_iff.2 hfailed))
      rw [Reader.skip, if_neg hlatch, if_neg hroom]
      exact follows_failure rfl

/-! ## Counted values -/

/-- Where the bytes of a plain value are left, they are read and passed. -/
theorem run_plain_of_fits (memory : Memory) (h : c.fits (.ofNat t.width) = true) (x : t.Value) :
    (c.plain t x).run memory = ⟨true, t.ofBytes (memory.span c.offset.toNat t.width),
      c.advance (.ofNat t.width)⟩ := by
  rw [Cursor.plain, if_pos h, Probe.run_bind, Probe.run_fetch]
  rfl

/-- Where too few bytes are left for a plain value, the latch is set. -/
theorem run_plain_of_not_fits (memory : Memory) (h : ¬c.fits (.ofNat t.width) = true)
    (x : t.Value) : (c.plain t x).run memory = ⟨false, x, c.fail⟩ := by
  rw [Cursor.plain, if_neg h]
  rfl

/-- The count that stands at a cursor. -/
def count (memory : Memory) (c : Cursor) : UInt32 :=
  WireType.u32.ofBytes (memory.span c.offset.toNat 4)

/-- Behind the bytes passed the rest is left. -/
theorem rest_advance (memory : Memory) (h : c.fits n = true) :
    ((c.advance n).reader memory).rest = (c.reader memory).rest.drop n.toNat := by
  rw [reader_advance_eq_moveTo h]
  exact Reader.rest_moveTo (List.drop_suffix _ _)

/-- A count is read where four bytes are left. -/
theorem parseNat_of_fits (h : c.fits 4 = true) : parseNat 4 (c.reader memory).rest =
    some ((c.count memory).toNat, ((c.advance 4).reader memory).rest) := by
  have hparse : WireType.u32.parse (c.reader memory).rest =
      some (c.count memory, (c.reader memory).rest.drop 4) := parse_of_fits rfl h
  rw [parseNat_eq_map, hparse, rest_advance memory h]
  rfl

/-- No count is read where fewer are left. -/
theorem parseNat_of_not_fits (sound : (c.reader memory).Sound) (h : ¬c.fits 4 = true)
    (live : c.failed = false) : parseNat 4 (c.reader memory).rest = none := by
  have hparse : WireType.u32.parse (c.reader memory).rest = none :=
    parse_of_not_fits rfl sound h live
  rw [parseNat_eq_map, hparse]
  rfl

/-- To advance over bytes that are there keeps within the buffer. -/
theorem sound_advance (memory : Memory) (h : c.fits n = true) :
    ((c.advance n).reader memory).Sound := by
  intro _
  have hroom := (fits_iff.1 h).2
  rw [reader_advance h]
  show c.offset.toNat + n.toNat ≤ (memory.span 0 c.size.toNat).length
  rw [Memory.length_span]
  exact hroom

/-- A move to what is left comes to the same from anywhere in the buffer. -/
theorem moveTo_reader_advance (memory : Memory) (c : Cursor) (n : UInt64) (left : Bytes) :
    ((c.advance n).reader memory).moveTo left = (c.reader memory).moveTo left :=
  rfl

section Counted

variable {α : Type} {x : α} {answer : Option α × Reader} {f : Outcome UInt32 → Probe (Outcome α)}

/-- What follows a reader from behind the count on follows it from the count on. -/
theorem follows_counted (sound : (c.reader memory).Sound) (h : c.fits 4 = true)
    (hf : Follows memory (c.advance 4) x answer (f ⟨true, c.count memory, c.advance 4⟩)) :
    Follows memory c x answer (c.plain .u32 (0 : UInt32) >>= f) := by
  have hrun : (c.plain .u32 (0 : UInt32)).run memory = ⟨true, c.count memory, c.advance 4⟩ :=
    run_plain_of_fits (t := .u32) memory h (0 : UInt32)
  refine Follows.bind (follows_plain (t := .u32) rfl sound (0 : UInt32)).within ?_
  rw [hrun]
  exact hf.of_advance h

/-- Where there is no room for a count there is nothing to follow. -/
theorem follows_uncounted (sound : (c.reader memory).Sound) (h : ¬c.fits 4 = true)
    (hf : Follows memory c x answer (f ⟨false, (0 : UInt32), c.fail⟩)) :
    Follows memory c x answer (c.plain .u32 (0 : UInt32) >>= f) := by
  have hrun : (c.plain .u32 (0 : UInt32)).run memory = ⟨false, (0 : UInt32), c.fail⟩ :=
    run_plain_of_not_fits (t := .u32) memory h (0 : UInt32)
  refine Follows.bind (follows_plain (t := .u32) rfl sound (0 : UInt32)).within ?_
  rw [hrun]
  exact hf

end Counted

/-! ### Texts -/

/-- The check of a text looks whether its bytes are left and well formed. -/
theorem run_holdsText (memory : Memory) (n : UInt64) (c : Cursor) :
    (c.holdsText n).run memory =
      (c.fits n && Utf8.isValid (memory.span c.offset.toNat n.toNat)) := by
  rw [holdsText]
  by_cases h : c.fits n = true
  · rw [if_pos h, h, Utf8.run_walk, Bool.true_and]
  · rw [if_neg h, Bool.eq_false_iff.2 h, Bool.false_and, Probe.run_pure]

/-- The check of a text looks at none but the bytes left. -/
theorem within_holdsText (memory : Memory) (n : UInt64) (c : Cursor) :
    (c.holdsText n).Within memory c.offset.toNat c.size.toNat := by
  rw [holdsText]
  by_cases h : c.fits n = true
  · rw [if_pos h]
    exact within_of_fits h (Utf8.within_walk _ _ _)
  · rw [if_neg h]
    exact Probe.within_pure _

/-- A text stands behind its count where there is room for it and it is well formed. -/
theorem parse_text (h : c.fits 4 = true) : WireType.text.parse (c.reader memory).rest =
    if (c.count memory).toNat ≤ ((c.advance 4).reader memory).rest.length then
      (Utf8.text? (((c.advance 4).reader memory).rest.take (c.count memory).toNat)).map
        fun s => (s, ((c.advance 4).reader memory).rest.drop (c.count memory).toNat)
    else none := by
  rw [WireType.parse, parseText, parseNat_of_fits h, Option.bind_eq_bind, Option.bind_some]
  simp only [Option.bind_eq_bind, Option.map_eq_bind]
  rfl

/-- Where the counted bytes are left, the text is what they decode to, if they are well formed. -/
theorem parse_text_of_fits (h : c.fits 4 = true) (hn : n.toNat = (c.count memory).toNat)
    (hfit : (c.advance 4).fits n = true) : WireType.text.parse (c.reader memory).rest =
      (Utf8.text? (memory.span (c.advance 4).offset.toNat n.toNat)).map
        fun s => (s, ((c.advance 4).reader memory).rest.drop n.toNat) := by
  have hroom : n.toNat ≤ ((c.advance 4).reader memory).rest.length := by
    have hsum := (fits_iff.1 hfit).2
    rw [Reader.length_rest, remaining_reader]
    omega
  rw [parse_text h, ← hn, if_pos hroom, take_rest memory hfit]

/-- Where fewer bytes are left than the count says, there is no text. -/
theorem parse_text_of_not_fits (h : c.fits 4 = true) (hn : n.toNat = (c.count memory).toNat)
    (hfit : ¬(c.advance 4).fits n = true) : WireType.text.parse (c.reader memory).rest = none := by
  have hroom := remaining_lt_of_not_fits (sound_advance memory h) hfit (fits_iff.1 h).1
  rw [← Reader.length_rest] at hroom
  rw [parse_text h, ← hn, if_neg (Nat.not_le_of_lt hroom)]

/-- A text is read as the reader reads it; every failure puts the position back in front of the
count. -/
theorem follows_text (sound : (c.reader memory).Sound) (x : String) :
    Follows memory c x ((c.reader memory).read .text) (c.text x) := by
  rw [Cursor.text]
  by_cases h : c.fits 4 = true
  · have live : (c.reader memory).failed = false := (fits_iff.1 h).1
    have hn : (UInt32.toUInt64 (c.count memory)).toNat = (c.count memory).toNat :=
      UInt32.toNat_toUInt64 _
    refine follows_counted sound h (Follows.bind (within_holdsText _ _ _) ?_)
    rw [run_holdsText]
    dsimp only
    by_cases hfit : (c.advance 4).fits (UInt32.toUInt64 (c.count memory)) = true
    · have hparse := parse_text_of_fits h hn hfit
      rw [hfit, Bool.true_and, Utf8.isValid_eq_isSome]
      cases htext : Utf8.text? (memory.span (c.advance 4).offset.toNat
          (UInt32.toUInt64 (c.count memory)).toNat) with
      | none =>
        rw [htext] at hparse
        rw [Reader.read_of_refused fun _ => hparse]
        exact follows_failure rfl
      | some s =>
        rw [htext] at hparse
        rw [Reader.read_of_parse live hparse]
        have hfetch := follows_fetch memory hfit (fun bs => (Utf8.text? bs).getD x) x
        rw [htext] at hfetch
        exact hfetch
    · have hparse := parse_text_of_not_fits h hn hfit
      rw [Bool.eq_false_iff.2 hfit, Bool.false_and, Reader.read_of_refused fun _ => hparse]
      exact follows_failure rfl
  · have hnone : c.failed = false → WireType.text.parse (c.reader memory).rest = none := by
      intro live
      rw [WireType.parse, parseText, parseNat_of_not_fits sound h live]
      rfl
    rw [Reader.read_of_refused hnone]
    exact follows_uncounted sound h (follows_failure rfl)

/-! ### Lists of keys -/

/-- What reading a row of `k` keys comes to. -/
structure Row (memory : Memory) (c : Cursor) (k : Nat) (p : Probe (List Key × Cursor)) : Prop where
  /-- It looks at nothing but bytes of the buffer behind the position. -/
  within : p.Within memory c.offset.toNat c.size.toNat
  /-- It reads the keys that stand there. -/
  parse : parseKeys k (c.reader memory).rest =
    some ((p.run memory).1, ((p.run memory).2.reader memory).rest)
  /-- It ends behind them. -/
  cursor : (p.run memory).2.reader memory =
    { c.reader memory with offset := c.offset.toNat + 32 * k }

/-- Where the bytes of so many keys are left, a row reads them. -/
theorem row_spec (memory : Memory) (live : c.failed = false)
    (hroom : c.offset.toNat + 32 * k ≤ c.size.toNat) : Row memory c k (row k c) := by
  induction k generalizing c with
  | zero => exact ⟨Probe.within_pure _, rfl, rfl⟩
  | succ k ih =>
    have h : c.fits 32 = true := by
      have hone : c.offset.toNat + 32 ≤ c.size.toNat := by omega
      exact fits_iff.2 ⟨live, hone⟩
    have hoffset : (c.advance 32).offset.toNat = c.offset.toNat + 32 := toNat_offset_advance h
    have hmore : (c.advance 32).offset.toNat + 32 * k ≤ (c.advance 32).size.toNat := by
      show _ ≤ c.size.toNat
      omega
    have hkey : parseKey (c.reader memory).rest =
        some (WireType.key.ofBytes (memory.span c.offset.toNat 32),
          ((c.advance 32).reader memory).rest) := by
      rw [rest_advance memory h]
      exact parse_of_fits (t := .key) rfl h
    obtain ⟨hwithin, hparse, hcursor⟩ := ih (c := c.advance 32) live hmore
    have hrun : (row (k + 1) c).run memory =
        (WireType.key.ofBytes (memory.span c.offset.toNat 32) ::
          ((row k (c.advance 32)).run memory).1, ((row k (c.advance 32)).run memory).2) := by
      rw [row, Probe.run_bind, Probe.run_fetch, Probe.run_bind]
      rfl
    refine ⟨?_, ?_, ?_⟩
    · rw [row]
      refine (within_of_fits h (Probe.within_fetch _ _)).bind ?_
      exact Probe.Within.bind (hwithin.mono (by omega) (Nat.le_refl _)) (Probe.within_pure _)
    · rw [hrun, parseKeys, hkey, Option.bind_eq_bind, Option.bind_some]
      dsimp only
      rw [hparse]
      rfl
    · rw [hrun, hcursor, hoffset, reader_advance h, Nat.add_assoc, Nat.add_comm 32]
      rfl

/-- What is left behind a row of keys leads to its end. -/
theorem Row.moveTo_eq {p : Probe (List Key × Cursor)} (h : Row memory c k p)
    (hroom : c.offset.toNat + 32 * k ≤ c.size.toNat) :
    (c.reader memory).moveTo ((p.run memory).2.reader memory).rest =
      (p.run memory).2.reader memory := by
  rw [h.cursor]
  refine Reader.moveTo_rest rfl rfl ?_
  show c.offset.toNat + 32 * k ≤ (memory.span 0 c.size.toNat).length
  rw [Memory.length_span]
  exact hroom

/-- A list of keys is a count and as many keys. -/
theorem parse_keys (memory : Memory) (h : c.fits 4 = true) :
    WireType.keys.parse (c.reader memory).rest =
      parseKeys (c.count memory).toNat ((c.advance 4).reader memory).rest := by
  rw [WireType.parse, parseNat_of_fits h]
  rfl

/-- Whether there is room for as many keys as a count says. -/
theorem remaining_div_lt_iff (memory : Memory) (c : Cursor) (k : UInt32) :
    c.remaining / 32 < UInt32.toUInt64 k ↔ (c.reader memory).rest.length < 32 * k.toNat := by
  rw [UInt64.lt_iff_toNat_lt, UInt64.toNat_div, toNat_remaining, UInt32.toNat_toUInt64,
    Reader.length_rest, remaining_reader]
  show (c.size.toNat - c.offset.toNat) / 32 < _ ↔ _
  omega

/-- To read a row and to return it follows the reader of as many keys. -/
theorem follows_row (memory : Memory) (live : c.failed = false)
    (hroom : c.offset.toNat + 32 * k ≤ c.size.toNat) (x : List Key) :
    Follows memory c x
      (some ((row k c).run memory).1, ((row k c).run memory).2.reader memory)
      (do
        let (ks, c') ← row k c
        return ⟨true, ks, c'⟩) := by
  refine Follows.bind (row_spec memory live hroom).within ?_
  exact ⟨Probe.within_pure _, rfl, rfl, rfl⟩

/-- A list of keys is read as the reader reads it; no key is read before all are known to be
left. -/
theorem follows_keys (sound : (c.reader memory).Sound) (x : List Key) :
    Follows memory c x ((c.reader memory).read .keys) (c.keys x) := by
  rw [Cursor.keys]
  by_cases h : c.fits 4 = true
  · have live : (c.reader memory).failed = false := (fits_iff.1 h).1
    have hparse := parse_keys memory h
    have hroom := remaining_div_lt_iff memory (c.advance 4) (c.count memory)
    refine follows_counted sound h ?_
    dsimp only
    -- The count is compared with a quotient, so that no product of it can wrap.
    by_cases hlie : (c.advance 4).remaining / 32 < UInt32.toUInt64 (c.count memory)
    · rw [parseKeys_eq_none (hroom.1 hlie)] at hparse
      rw [if_pos hlie, Reader.read_of_refused fun _ => hparse]
      exact follows_failure rfl
    · have hfit : (c.advance 4).offset.toNat + 32 * (c.count memory).toNat ≤
          (c.advance 4).size.toNat := by
        have hbehind := offset_le_size (sound_advance memory h) live
        have hlong := Nat.le_of_not_lt fun hlt => hlie (hroom.2 hlt)
        rw [Reader.length_rest, remaining_reader] at hlong
        omega
      have hrow := row_spec memory (c := c.advance 4) live hfit
      have hread := Reader.read_of_parse live (hparse.trans hrow.parse)
      rw [← moveTo_reader_advance, hrow.moveTo_eq hfit] at hread
      rw [if_neg hlie, hread]
      exact follows_row memory (c := c.advance 4) live hfit x
  · have hnone : c.failed = false → WireType.keys.parse (c.reader memory).rest = none := by
      intro live
      rw [WireType.parse, parseNat_of_not_fits sound h live]
      rfl
    rw [Reader.read_of_refused hnone]
    exact follows_uncounted sound h (follows_failure rfl)

/-! ## Serving requests -/

/-- A value of any type is read as the reader reads it. -/
theorem follows_value (whole : t.isWhole = true) (sound : (c.reader memory).Sound)
    (x : t.Value) : Follows memory c x ((c.reader memory).read t) (c.value t x) := by
  cases t with
  | text => exact follows_text sound x
  | keys => exact follows_keys sound x
  | side | triple => contradiction
  | _ => exact follows_plain rfl sound x

/-- Every request is served as the reader answers it. -/
theorem follows_serve (sound : (c.reader memory).Sound) (q : Request) (x : q.Value) :
    Follows memory c x ((c.reader memory).answer q) (c.serve q x) := by
  cases q with
  | value t whole => exact follows_value whole sound x
  | optional t plain => exact follows_optional plain sound x
  | skip n => exact follows_skip sound n

/-- What serving a request can come to. -/
theorem serve_cases (sound : (c.reader memory).Sound) (q : Request) (x : q.Value) :
    (∃ v n, c.fits n = true ∧ q.held v ≤ n.toNat ∧
      (c.serve q x).run memory = ⟨true, v, c.advance n⟩) ∨
    (q.isOptional = false ∧ (c.serve q x).run memory = ⟨false, x, c.fail⟩) ∨
    (q.isOptional = true ∧ (c.serve q x).run memory = ⟨false, x, c⟩) := by
  obtain ⟨-, hsuccess, hvalue, hcursor⟩ := follows_serve sound q x
  have hanswer := Reader.answers sound q
  generalize (c.serve q x).run memory = o at hsuccess hvalue hcursor ⊢
  generalize (c.reader memory).answer q = a at hsuccess hvalue hcursor hanswer
  obtain ⟨success, value, cursor⟩ := o
  -- The words of the cursor are recovered from the numbers of the reader, which is possible because
  -- a cursor is known by its reader.
  cases hanswer with
  | done v n live room held =>
    rw [remaining_reader] at room
    have hsize := c.size.toNat_lt
    have hn : (UInt64.ofNat n).toNat = n := by
      rw [UInt64.toNat_ofNat']
      exact Nat.mod_eq_of_lt (by omega)
    have hfits : c.fits (.ofNat n) = true := by
      have hoffset := offset_le_size sound live
      refine fits_iff.2 ⟨live, ?_⟩
      omega
    have hend : cursor = c.advance (.ofNat n) := by
      refine eq_of_reader_eq (hcursor.trans ?_)
      rw [reader_advance hfits, hn]
      rfl
    have hheld : q.held v ≤ (UInt64.ofNat n).toNat := by
      rw [hn]
      exact held
    cases hsuccess
    cases hvalue
    exact .inl ⟨_, .ofNat n, hfits, hheld, by rw [hend]⟩
  | refused required =>
    have hend : cursor = c.fail := eq_of_reader_eq hcursor
    cases hsuccess
    cases hvalue
    exact .inr (.inl ⟨required, by rw [hend]⟩)
  | absent optional =>
    have hend : cursor = c := eq_of_reader_eq hcursor
    cases hsuccess
    cases hvalue
    exact .inr (.inr ⟨optional, by rw [hend]⟩)

/-- The first request is served before the others. -/
theorem after_cons (memory : Memory) (c : Cursor) (q : Inquiry) (qs : List Inquiry) :
    c.after memory (q :: qs) =
      ((c.serve q.request q.value).run memory).cursor.after memory qs :=
  rfl

/-- A cursor stands for the same reader after the same requests. -/
theorem reader_after (sound : (c.reader memory).Sound) (qs : List Inquiry) :
    (c.after memory qs).reader memory =
      (c.reader memory).after (qs.map Inquiry.request) := by
  induction qs generalizing c with
  | nil => rfl
  | cons q qs ih =>
    have hstep := (follows_serve sound q.request q.value).cursor
    have hsound := sound.answer q.request
    rw [← hstep] at hsound
    rw [after_cons, ih hsound, hstep]
    rfl

/-- What a computation comes to is the answer that it follows. -/
theorem Follows.answer_eq {α : Type} {x : α} {answer : Option α × Reader}
    {p : Probe (Outcome α)} (h : Follows memory c x answer p) :
    (p.run memory).answer = answer.1 := by
  rw [Outcome.answer, h.success, h.value]
  cases answer.1 <;> rfl

/-- A cursor gives the replies of its reader. -/
theorem replies_eq (sound : (c.reader memory).Sound) (qs : List Inquiry) :
    c.replies memory qs = (c.reader memory).replies (qs.map Inquiry.request) := by
  induction qs generalizing c with
  | nil => rfl
  | cons q qs ih =>
    have hfollows := follows_serve sound q.request q.value
    have hsound := sound.answer q.request
    rw [← hfollows.cursor] at hsound
    rw [replies, List.map_cons, Reader.replies, ← hfollows.cursor, ← ih hsound,
      hfollows.answer_eq]

/-- A cursor that is sound stays so, whatever is asked for. -/
theorem sound_after (sound : (c.reader memory).Sound) (qs : List Inquiry) :
    ((c.after memory qs).reader memory).Sound := by
  rw [reader_after sound]
  exact sound.after _

/-- A new cursor is sound; one that starts past the end has failed. -/
theorem sound_start (memory : Memory) (size offset : UInt64) :
    ((start size offset).reader memory).Sound := by
  rw [reader_start]
  exact Reader.sound_start _ _

/-- Once the latch is set a request fails and changes nothing. -/
theorem serve_of_failed (h : c.failed = true) (q : Inquiry) :
    (c.serve q.request q.value).run memory = ⟨false, q.value, c⟩ := by
  have sound : (c.reader memory).Sound := fun live => absurd h (Bool.eq_false_iff.1 live)
  have hfail : c.fail = c := by
    rw [fail, ← h]
  obtain ⟨v, n, hfits, -, -⟩ | ⟨-, hrun⟩ | ⟨-, hrun⟩ := serve_cases sound q.request q.value
  · exact absurd h (Bool.eq_false_iff.1 (fits_iff.1 hfits).1)
  · rw [hrun, hfail]
  · exact hrun

/-- Once the latch is set no requests change the cursor. -/
theorem after_of_failed (h : c.failed = true) (qs : List Inquiry) : c.after memory qs = c := by
  induction qs with
  | nil => rfl
  | cons q qs ih => rw [after_cons, serve_of_failed h, ih]

/-- No request changes the size. -/
theorem size_after (sound : (c.reader memory).Sound) (qs : List Inquiry) :
    (c.after memory qs).size = c.size := by
  have hbytes : ((c.after memory qs).reader memory).bytes = (c.reader memory).bytes := by
    rw [reader_after sound, Reader.bytes_after sound]
  have hlength := congrArg List.length hbytes
  simp only [reader, Memory.length_span] at hlength
  exact UInt64.toNat_inj.1 hlength

/-- Position and remaining bytes add up to the size where the start lies within the buffer. -/
theorem offset_add_remaining (memory : Memory) {size offset : UInt64} (h : offset ≤ size)
    (qs : List Inquiry) :
    ((start size offset).after memory qs).offset.toNat +
      ((start size offset).after memory qs).remaining.toNat = size.toNat := by
  have hstart := sound_start memory size offset
  have hsize := size_after hstart qs
  have hoffset : offset.toNat ≤ (memory.span 0 size.toNat).length := by
    rw [Memory.length_span]
    exact UInt64.le_iff_toNat_le.1 h
  have hend := Reader.offset_after_le (r := (start size offset).reader memory) hoffset
    (qs.map Inquiry.request)
  rw [← reader_after hstart qs, reader, Memory.length_span, hsize] at hend
  rw [toNat_remaining, hsize]
  exact Nat.add_sub_of_le hend

/-- Nothing remains behind a start past the end, and no request succeeds. -/
theorem after_past_end (memory : Memory) {size offset : UInt64} (h : size < offset)
    (qs : List Inquiry) :
    ((start size offset).after memory qs).failed = true ∧
      ((start size offset).after memory qs).remaining = 0 := by
  have hfailed : (start size offset).failed = true := decide_eq_true h
  rw [after_of_failed hfailed]
  refine ⟨hfailed, ?_⟩
  rw [remaining, start, if_neg (UInt64.not_le.2 h)]

/-- What serving a request does to the variable, the position and the latch. -/
theorem serve_effect (sound : (c.reader memory).Sound) (q : Inquiry) :
    let o := (c.serve q.request q.value).run memory
    (o.success = false → o.value = q.value ∧ o.cursor.offset = c.offset ∧
        o.cursor.failed = (c.failed || !q.request.isOptional)) ∧
      c.offset ≤ o.cursor.offset ∧
      (o.success = true → q.request.held o.value ≤ c.remaining.toNat) := by
  obtain ⟨v, n, hfits, hheld, hrun⟩ | ⟨hrequired, hrun⟩ | ⟨hoptional, hrun⟩ :=
    serve_cases sound q.request q.value
  · have hroom := (fits_iff.1 hfits).2
    rw [hrun]
    refine ⟨fun hfailure => absurd hfailure Bool.noConfusion, ?_, fun _ => ?_⟩
    · rw [UInt64.le_iff_toNat_le, toNat_offset_advance hfits]
      exact Nat.le_add_right _ _
    · show q.request.held v ≤ c.remaining.toNat
      rw [toNat_remaining]
      omega
  · rw [hrun]
    refine ⟨fun _ => ⟨rfl, rfl, ?_⟩, UInt64.le_refl _, fun hsuccess => ?_⟩
    · rw [hrequired, Bool.not_false, Bool.or_true]
      rfl
    · exact absurd hsuccess Bool.noConfusion
  · rw [hrun]
    refine ⟨fun _ => ⟨rfl, rfl, ?_⟩, UInt64.le_refl _, fun hsuccess => ?_⟩
    · rw [hoptional, Bool.not_true, Bool.or_false]
    · exact absurd hsuccess Bool.noConfusion

/-- After any requests to a cursor that starts at any offset into any buffer, whatever is asked for
next:
the outcome is what a reader of the bytes answers;
no byte is looked at but those of the buffer behind the position;
a failure leaves position and variable as they were and sets the latch unless the request was
optional;
once the latch is set every later request fails and changes nothing;
the position never moves back, and position and remaining bytes add up to the size if the cursor
started within the buffer;
a cursor that started past the end has failed and has no bytes left;
and a text or a list of keys holds no more bytes than were left. -/
theorem serve_from_start (memory : Memory) (size offset : UInt64) (inquiries : List Inquiry)
    (q : Inquiry) :
    let c := (start size offset).after memory inquiries
    let served := c.serve q.request q.value
    let o := served.run memory
    let answer := ((Reader.start (memory.span 0 size.toNat) offset.toNat).after
      (inquiries.map Inquiry.request)).answer q.request
    (o.success = answer.1.isSome ∧ o.value = answer.1.getD q.value ∧
        o.cursor.reader memory = answer.2) ∧
      (∀ i ∈ served.touched memory, c.offset.toNat ≤ i ∧ i < size.toNat) ∧
      (o.success = false → o.value = q.value ∧ o.cursor.offset = c.offset ∧
        o.cursor.failed = (c.failed || !q.request.isOptional)) ∧
      (c.failed = true → ∀ (later : List Inquiry) (p : Inquiry),
        ((c.after memory later).serve p.request p.value).run memory = ⟨false, p.value, c⟩) ∧
      c.offset ≤ o.cursor.offset ∧
      (offset ≤ size → c.offset.toNat + c.remaining.toNat = size.toNat) ∧
      (size < offset → c.failed = true ∧ c.remaining = 0) ∧
      (o.success = true → q.request.held o.value ≤ c.remaining.toNat) := by
  have hstart := sound_start memory size offset
  have hsound := sound_after hstart inquiries
  have hreader := reader_after hstart inquiries
  rw [reader_start] at hreader
  have hfollows := follows_serve hsound q.request q.value
  have hwithin := hfollows.within
  rw [hreader] at hfollows
  rw [size_after hstart inquiries] at hwithin
  obtain ⟨hfailure, hoffset, hheld⟩ := serve_effect hsound q
  refine ⟨⟨hfollows.success, hfollows.value, hfollows.cursor⟩, hwithin, hfailure, ?_, hoffset,
    fun h => offset_add_remaining memory h inquiries, fun h => after_past_end memory h inquiries,
    hheld⟩
  intro hfailed later p
  rw [after_of_failed hfailed]
  exact serve_of_failed hfailed p

/-- A text of one byte is read, the next one announces three bytes of which one is there, and a
cursor past the end reads nothing. -/
theorem serve_from_start_short :
    let memory : Memory := fun i => ([7, 1, 0, 0, 0, 65, 3, 0, 0, 0, 66] : Bytes).getD i 0
    let q : Inquiry := ⟨.value .text rfl, "before"⟩
    let first := (start 11 1).after memory []
    let read := (first.serve q.request q.value).run memory
    let second := (start 11 1).after memory [q]
    let refused := (second.serve q.request q.value).run memory
    let past := (start 11 12).after memory []
    (read.success = true ∧ q.request.held read.value ≤ first.remaining.toNat) ∧
      first.offset.toNat + first.remaining.toNat = 11 ∧
      (refused.success = false ∧ refused.value = q.value ∧
        refused.cursor.offset = second.offset ∧
        refused.cursor.failed = (second.failed || !q.request.isOptional)) ∧
      (past.failed = true ∧ past.remaining = 0) ∧
      ∀ (later : List Inquiry) (p : Inquiry),
        ((past.after memory later).serve p.request p.value).run memory =
          ⟨false, p.value, past⟩ := by
  intro memory q
  obtain ⟨⟨hread, -, -⟩, -, -, -, -, hsum, -, hheld⟩ := serve_from_start memory 11 1 [] q
  obtain ⟨⟨hrefused, -, -⟩, -, hkept, -⟩ := serve_from_start memory 11 1 [q] q
  obtain ⟨-, -, -, hlatch, -, -, hpast, -⟩ := serve_from_start memory 11 12 [] q
  have hsuccess := hread.trans (c := true) (by decide)
  have hfailure := hrefused.trans (c := false) (by decide)
  have hfailed := hpast (by decide)
  dsimp only
  exact ⟨⟨hsuccess, hheld hsuccess⟩, hsum (by decide), ⟨hfailure, hkept hfailure⟩, hfailed,
    hlatch hfailed.1⟩

end Cursor

end DexFeed
