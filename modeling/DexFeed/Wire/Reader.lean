import DexFeed.Wire.Codec

/-!
# Reading with a position

A `Reader` is a position in a byte string together with a latch. A read that does not fit leaves the
position where it was and sets the latch, after which nothing can be read any more; a caller may
therefore issue a run of reads and ask once, at the end, whether all of them succeeded. Optional
reads do not set the latch. A position past the end is allowed at the start and fails at once.
-/

namespace DexFeed

/-- A position in a byte string, and whether a read has failed. -/
structure Reader where
  /-- The bytes that are read from. -/
  bytes : Bytes
  /-- How many bytes lie before the position. -/
  offset : Nat
  /-- Whether a read has failed; it stays set. -/
  failed : Bool
deriving DecidableEq

namespace Reader

/-- A reader that starts at an offset, which fails at once if it lies past the end. -/
def start (bytes : Bytes) (offset : Nat) : Reader :=
  ⟨bytes, offset, decide (bytes.length < offset)⟩

/-- The number of bytes behind the position. -/
def remaining (r : Reader) : Nat :=
  r.bytes.length - r.offset

/-- The bytes behind the position. -/
def rest (r : Reader) : Bytes :=
  r.bytes.drop r.offset

/-- Whether every read so far has succeeded. -/
def ok (r : Reader) : Bool :=
  !r.failed

/-- The reader at the place where `left` begins, a final part of its bytes. -/
def moveTo (r : Reader) (left : Bytes) : Reader :=
  { r with offset := r.bytes.length - left.length }

/-- The reader with its latch set. -/
def fail (r : Reader) : Reader :=
  { r with failed := true }

/-- The next value of a type; where there is none the latch is set and the position stays. -/
def read (t : WireType) (r : Reader) : Option t.Value × Reader :=
  if r.failed then (none, r)
  else
    match t.parse r.rest with
    | some (v, left) => (some v, r.moveTo left)
    | none => (none, r.fail)

/-- The next value of a type if it is there; otherwise nothing changes. -/
def readOptional (t : WireType) (r : Reader) : Option t.Value × Reader :=
  if r.failed then (none, r)
  else
    match t.parse r.rest with
    | some (v, left) => (some v, r.moveTo left)
    | none => (none, r)

/-- Moves past `n` bytes, if there are that many, and tells whether there were. -/
def skip (n : Nat) (r : Reader) : Bool × Reader :=
  if r.failed then (false, r)
  else if n ≤ r.remaining then (true, { r with offset := r.offset + n })
  else (false, r.fail)

/-! ## A failed reader stays as it is -/

/-- Once the latch is set no value is read. -/
theorem read_of_failed {t : WireType} {r : Reader} (h : r.failed = true) :
    r.read t = (none, r) := by
  simp [read, h]

/-- Once the latch is set no optional value is read. -/
theorem readOptional_of_failed {t : WireType} {r : Reader} (h : r.failed = true) :
    r.readOptional t = (none, r) := by
  simp [readOptional, h]

/-- Once the latch is set no byte is skipped. -/
theorem skip_of_failed {n : Nat} {r : Reader} (h : r.failed = true) : r.skip n = (false, r) := by
  simp [skip, h]

end Reader

/-! ## Requests -/

/-- Whether a value of a type is read at once; a side of a trade or a triple is put together from
other values. -/
def WireType.isWhole : WireType → Bool
  | side | triple => false
  | _ => true

/-- Something asked of a reader. -/
inductive Request
  /-- To read a value. -/
  | value (t : WireType) (whole : t.isWhole = true)
  /-- To read a value of a plain type if it is there. -/
  | optional (t : WireType) (plain : t.isPlain = true)
  /-- To move past a number of bytes. -/
  | skip (n : UInt64)

namespace Request

/-- What a request is answered with. -/
@[reducible] def Value : Request → Type
  | value t _ => t.Value
  | optional t _ => t.Value
  | skip _ => Unit

/-- Whether a failure is passed over. -/
def isOptional : Request → Bool
  | optional _ _ => true
  | _ => false

/-- How many bytes a text or a list of keys holds. -/
def held : (q : Request) → q.Value → Nat
  | value .text _, s => (Utf8.encode s).length
  | value .keys _, ks => 32 * List.length ks
  | _, _ => 0

end Request

/-- A request and what was answered. -/
def Reply : Type :=
  (q : Request) × Option q.Value

namespace Reader

/-- Answers a request. -/
def answer (r : Reader) : (q : Request) → Option q.Value × Reader
  | .value t _ => r.read t
  | .optional t _ => r.readOptional t
  | .skip n => (if (r.skip n.toNat).1 then some () else none, (r.skip n.toNat).2)

/-- The reader after some requests. -/
def after (r : Reader) (requests : List Request) : Reader :=
  requests.foldl (fun r q => (r.answer q).2) r

/-- The replies to requests that are made one after the other. -/
def replies (r : Reader) : List Request → List Reply
  | [] => []
  | q :: qs => ⟨q, (r.answer q).1⟩ :: (r.answer q).2.replies qs

end Reader

end DexFeed
