import DexFeed.Proofs.Wire.Cursor

/-!
# Values one after the other

Values that are spelled one after the other are read back one after the other, whatever stands in
front of them and behind them: every spelling tells where it ends. Both the reader of bytes and the
cursor in a memory end where the last value ends.
-/

namespace DexFeed

/-- A value that is read at once and has a spelling. -/
structure Datum where
  /-- Its type. -/
  type : WireType
  /-- It is read at once. -/
  whole : type.isWhole = true
  /-- The value. -/
  value : type.Value
  /-- A text or a list is not too long for its count. -/
  fits : type.Fits value

namespace Datum

variable {before after : Bytes}

/-- The bytes of a datum. -/
def bytes (d : Datum) : Bytes :=
  d.type.spell d.value

/-- The request that reads a datum. -/
def request (d : Datum) : Request :=
  .value d.type d.whole

/-- The reply that returns a datum. -/
def reply (d : Datum) : Reply :=
  ⟨d.request, some d.value⟩

/-- The bytes of data one after the other. -/
def spellAll (data : List Datum) : Bytes :=
  data.flatMap bytes

/-- A reader at the beginning of a datum returns it and moves to its end. -/
theorem answer_request (d : Datum) (before after : Bytes) :
    (Reader.mk (before ++ (d.bytes ++ after)) before.length false).answer d.request =
      (some d.value, ⟨before ++ (d.bytes ++ after), (before ++ d.bytes).length, false⟩) := by
  have hrest : (Reader.mk (before ++ (d.bytes ++ after)) before.length false).rest =
      d.bytes ++ after := List.drop_left
  have hparse : d.type.parse (d.bytes ++ after) = some (d.value, after) :=
    WireType.parse_eq_some_iff.2 ⟨d.bytes, WireType.spells_spell d.fits, rfl⟩
  have hwithin : before.length ≤ (before ++ (d.bytes ++ after)).length := by
    rw [List.length_append]
    exact Nat.le_add_right _ _
  rw [← hrest] at hparse
  show Reader.read d.type _ = _
  rw [Reader.read_of_parse rfl hparse, Reader.moveTo_eq hwithin hrest, List.length_append]

/-- A reader at the beginning of some data returns all of them and moves to their end. -/
theorem replies_spellAll (data : List Datum) (before after : Bytes) :
    (Reader.mk (before ++ (spellAll data ++ after)) before.length false).replies
        (data.map request) = data.map reply ∧
      (Reader.mk (before ++ (spellAll data ++ after)) before.length false).after
        (data.map request) =
          ⟨before ++ (spellAll data ++ after), (before ++ spellAll data).length, false⟩ := by
  -- What was read belongs to the bytes in front of the data that are left.
  induction data generalizing before with
  | nil =>
    refine ⟨rfl, ?_⟩
    rw [spellAll, List.flatMap_nil, List.append_nil]
    rfl
  | cons d data ih =>
    have hspell : spellAll (d :: data) ++ after = d.bytes ++ (spellAll data ++ after) := by
      rw [spellAll, List.flatMap_cons, List.append_assoc, spellAll]
    have hanswer := answer_request d before (spellAll data ++ after)
    obtain ⟨hreplies, hafter⟩ := ih (before ++ d.bytes)
    rw [List.append_assoc] at hreplies hafter
    rw [hspell, List.map_cons, List.map_cons, Reader.replies, Reader.after_cons, hanswer]
    refine ⟨?_, ?_⟩
    · rw [hreplies]
      rfl
    · rw [hafter, spellAll, spellAll, List.flatMap_cons, List.append_assoc]

/-- A reader may start right behind the bytes in front. -/
theorem start_at (before rest : Bytes) :
    Reader.start (before ++ rest) before.length =
      ⟨before ++ rest, before.length, false⟩ := by
  have hwithin : ¬(before ++ rest).length < before.length := by
    rw [List.length_append]
    omega
  rw [Reader.start, decide_eq_false hwithin]

/-- Data that stand between any bytes are read back in order, no read fails, and the last one ends
where the bytes behind the data begin. The same holds of a cursor in any memory whose buffer holds
these bytes, whatever the variables held before. -/
theorem reads_back (before after : Bytes) (data : List Datum) :
    let bytes := before ++ (spellAll data ++ after)
    ((Reader.start bytes before.length).replies (data.map request) = data.map reply ∧
        (Reader.start bytes before.length).after (data.map request) =
          ⟨bytes, (before ++ spellAll data).length, false⟩) ∧
      ∀ (memory : Memory) (size offset : UInt64) (inquiries : List Inquiry),
        memory.span 0 size.toNat = bytes → offset.toNat = before.length →
        inquiries.map Inquiry.request = data.map request →
          (Cursor.start size offset).replies memory inquiries = data.map reply ∧
            ((Cursor.start size offset).after memory inquiries).failed = false ∧
            ((Cursor.start size offset).after memory inquiries).offset.toNat =
              (before ++ spellAll data).length := by
  intro bytes
  have hread := replies_spellAll data before after
  rw [← start_at] at hread
  refine ⟨hread, ?_⟩
  intro memory size offset inquiries hmemory hoffset hrequests
  obtain ⟨hreplies, hend⟩ := hread
  have hsound := Cursor.sound_start memory size offset
  have hstart : (Cursor.start size offset).reader memory =
      Reader.start (before ++ (spellAll data ++ after)) before.length := by
    rw [Cursor.reader_start, hmemory, hoffset]
  have hafter := Cursor.reader_after hsound inquiries
  rw [hstart, hrequests, hend] at hafter
  refine ⟨?_, congrArg Reader.failed hafter, congrArg Reader.offset hafter⟩
  rw [Cursor.replies_eq hsound, hstart, hrequests]
  exact hreplies

/-- A signed number, a text of two bytes, a truth value and a list of one key, between two bytes in
front and one behind. -/
theorem reads_back_mixed :
    let data : List Datum :=
      [⟨.i64, rfl, (-2 : Int64), trivial⟩,
        ⟨.text, rfl, "é", show (Utf8.encode "é").length < 2 ^ 32 by decide⟩,
        ⟨.flag, rfl, true, trivial⟩,
        ⟨.keys, rfl, [Key.zero], show [Key.zero].length < 2 ^ 32 by decide⟩]
    let bytes := [7, 9] ++ (spellAll data ++ [5])
    let memory : Memory := fun i => bytes.getD i 0
    let inquiries := data.map fun d => ⟨d.request, d.type.zero⟩
    memory.span 0 54 = bytes ∧ (Cursor.start 54 2).replies memory inquiries = data.map reply ∧
      ((Cursor.start 54 2).after memory inquiries).failed = false ∧
      ((Cursor.start 54 2).after memory inquiries).offset.toNat = 53 := by
  intro data bytes memory inquiries
  have hmemory : memory.span 0 54 = bytes := by decide
  have hspec := (reads_back [7, 9] [5] data).2 memory 54 2 inquiries hmemory rfl rfl
  exact ⟨hmemory, hspec⟩

end Datum

end DexFeed
