import DexFeed.Text.Utf8.Walk
import DexFeed.Wire.Reader

/-!
# Reading from memory

A `Cursor` reads from a buffer that lies in memory from position 0 on. Sizes, offsets and the
lengths that stand in a buffer are words, so a sum of them may wrap; a cursor therefore compares
lengths with what is left and never adds before it knows that there is room. A read tells whether it
has succeeded and what the caller's variable is afterwards. Texts and lists are read in two steps,
their count and then what it counts, and where the second step fails the first is taken back.
-/

namespace DexFeed

/-- The value that bytes of the width of a plain type spell. -/
def WireType.ofBytes (t : WireType) (bs : Bytes) : t.Value :=
  ((t.parse bs).map Prod.fst).getD t.zero

/-- A position in a buffer, and whether a read has failed. -/
@[ext] structure Cursor where
  /-- How many bytes the buffer has. -/
  size : UInt64
  /-- How many of them lie before the position. -/
  offset : UInt64
  /-- Whether a read has failed; it stays set. -/
  failed : Bool
deriving DecidableEq

/-- What a read comes to. -/
structure Outcome (α : Type) where
  /-- Whether the read has succeeded. -/
  success : Bool
  /-- The caller's variable after the read. -/
  value : α
  /-- The cursor after the read. -/
  cursor : Cursor

/-- The new value, where the read has succeeded. -/
def Outcome.answer {α : Type} (o : Outcome α) : Option α :=
  if o.success then some o.value else none

namespace Cursor

/-- A cursor at an offset, which fails at once if it lies past the end. -/
def start (size offset : UInt64) : Cursor :=
  ⟨size, offset, decide (size < offset)⟩

/-- How many bytes lie behind the position. -/
def remaining (c : Cursor) : UInt64 :=
  if c.offset ≤ c.size then c.size - c.offset else 0

/-- Whether `n` bytes can be read. -/
def fits (c : Cursor) (n : UInt64) : Bool :=
  !c.failed && decide (c.offset ≤ c.size) && decide (n ≤ c.size - c.offset)

/-- The cursor with its latch set. -/
def fail (c : Cursor) : Cursor :=
  { c with failed := true }

/-- The cursor `n` bytes further on. -/
def advance (c : Cursor) (n : UInt64) : Cursor :=
  { c with offset := c.offset + n }

/-- Reads a value of a plain type into the variable `x`. -/
def plain (t : WireType) (x : t.Value) (c : Cursor) : Probe (Outcome t.Value) :=
  if c.fits (.ofNat t.width) then do
    let bs ← Probe.fetch c.offset.toNat t.width
    return ⟨true, t.ofBytes bs, c.advance (.ofNat t.width)⟩
  else return ⟨false, x, c.fail⟩

/-- Whether there is room for `n` bytes, and they are well formed text. -/
def holdsText (n : UInt64) (c : Cursor) : Probe Bool :=
  if c.fits n then Utf8.walk c.offset.toNat n.toNat else return false

/-- Reads a text into the variable `x`. -/
def text (x : String) (c : Cursor) : Probe (Outcome String) := do
  let count ← c.plain .u32 (0 : UInt32)
  if count.success then
    let behind := count.cursor
    let n := UInt32.toUInt64 count.value
    if ← behind.holdsText n then
      let bs ← Probe.fetch behind.offset.toNat n.toNat
      return ⟨true, (Utf8.text? bs).getD x, behind.advance n⟩
    else return ⟨false, x, { behind with offset := c.offset }.fail⟩
  else return ⟨false, x, count.cursor⟩

/-- Reads keys one after the other, for which there is room. -/
def row : (n : Nat) → Cursor → Probe (List Key × Cursor)
  | 0, c => return ([], c)
  | n + 1, c => do
    let bs ← Probe.fetch c.offset.toNat 32
    let (ks, c) ← row n (c.advance 32)
    return (WireType.key.ofBytes bs :: ks, c)

/-- Reads a list of keys into the variable `x`. -/
def keys (x : List Key) (c : Cursor) : Probe (Outcome (List Key)) := do
  let count ← c.plain .u32 (0 : UInt32)
  if count.success then
    let behind := count.cursor
    if behind.remaining / 32 < UInt32.toUInt64 count.value then
      return ⟨false, x, { behind with offset := c.offset }.fail⟩
    else
      let (ks, c) ← row (UInt32.toNat count.value) behind
      return ⟨true, ks, c⟩
  else return ⟨false, x, count.cursor⟩

/-- Reads a value into the variable `x`. -/
def value (t : WireType) (x : t.Value) (c : Cursor) : Probe (Outcome t.Value) :=
  match t with
  | .text => c.text x
  | .keys => c.keys x
  | t => c.plain t x

/-- Reads a value of a plain type into the variable `x` if it is there. -/
def optional (t : WireType) (x : t.Value) (c : Cursor) : Probe (Outcome t.Value) :=
  if c.fits (.ofNat t.width) then c.plain t x else return ⟨false, x, c⟩

/-- Moves past `n` bytes. -/
def skip (n : UInt64) (c : Cursor) : Probe (Outcome Unit) :=
  if c.fits n then return ⟨true, (), c.advance n⟩ else return ⟨false, (), c.fail⟩

end Cursor

/-! ## Requests -/

/-- A request together with the caller's variable. -/
structure Inquiry where
  /-- The request. -/
  request : Request
  /-- What the variable holds before. -/
  value : request.Value

namespace Cursor

/-- Serves a request. -/
def serve (c : Cursor) : (q : Request) → (x : q.Value) → Probe (Outcome q.Value)
  | .value t _, x => c.value t x
  | .optional t _, x => c.optional t x
  | .skip n, _ => c.skip n

/-- The cursor after some inquiries. -/
def after (memory : Memory) (c : Cursor) (inquiries : List Inquiry) : Cursor :=
  inquiries.foldl (fun c q => ((c.serve q.request q.value).run memory).cursor) c

/-- The replies to inquiries that are made one after the other. -/
def replies (memory : Memory) (c : Cursor) : List Inquiry → List Reply
  | [] => []
  | q :: qs =>
    let o := (c.serve q.request q.value).run memory
    ⟨q.request, o.answer⟩ :: o.cursor.replies memory qs

end Cursor

end DexFeed
