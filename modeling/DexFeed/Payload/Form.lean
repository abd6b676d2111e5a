import DexFeed.Event.Basic
import DexFeed.Wire.Codec

/-!
# Forms of payloads

The body of a payload is described by data: a `Form` lists the items of a body in reading order,
names the variant that comes of it, and lists the optional fields that later versions of a program
append. A `Format` is a choice of forms, tried in order; where there are several, a required byte
tells them apart. Reading starts from the zero valuation, so a field that the form does not mention
stays zero. Bytes behind what a form reads are ignored.
-/

namespace DexFeed

/-- One step in reading a body. -/
inductive Item
  /-- A value that is read into a field. -/
  | field (f : Field)
  /-- A value that is read and not kept. -/
  | unused (t : WireType)
  /-- A value that is read into a field and must be this one. -/
  | exactly (f : Field) (x : f.type.Value)
  /-- A byte that must be this one and is not kept. -/
  | byte (b : UInt8)
  /-- A field whose value the kind of payload decides; nothing is read. -/
  | given (f : Field) (x : f.type.Value)
  /-- A field that starts out with the value of another; nothing is read. -/
  | copied (target source : Field) (same : source.type = target.type)

namespace Item

/-- Values that are read into fields, one after the other. -/
def row (fields : List Field) : List Item :=
  fields.map field

/-- Carries out one step. -/
def read (v : Valuation) (bs : Bytes) : Item → Option (Valuation × Bytes)
  | field f => do
    let (x, bs) ← f.type.parse bs
    return (v.set f x, bs)
  | unused t => do
    let (_, bs) ← t.parse bs
    return (v, bs)
  | exactly f x => do
    let (y, bs) ← f.type.parse bs
    if y = x then return (v.set f x, bs) else none
  | byte b =>
    match bs with
    | c :: bs => if c = b then some (v, bs) else none
    | [] => none
  | given f x => some (v.set f x, bs)
  | copied target source same => some (v.set target (same ▸ v source), bs)

/-- Carries out steps one after the other. -/
def readAll (v : Valuation) (bs : Bytes) : List Item → Option (Valuation × Bytes)
  | [] => some (v, bs)
  | item :: items => do
    let (v, bs) ← item.read v bs
    readAll v bs items

end Item

/-- A field that a later version of a program has appended, so that a body may end before it. -/
structure Addition where
  /-- The field. -/
  field : Field
  /-- Whether the additions behind it are looked for only where it is there. -/
  leads : Bool
deriving DecidableEq

namespace Addition

/-- Additions of which each is looked for by itself. -/
def each (fields : List Field) : List Addition :=
  fields.map fun f => ⟨f, false⟩

/-- An addition and others that are looked for only where it is there. -/
def behind (first : Field) (fields : List Field) : List Addition :=
  ⟨first, true⟩ :: each fields

end Addition

/-- Reads additions in order. One that does not fit into what is left is passed over, together with
all behind it if it leads them. -/
def readTail (v : Valuation) (bs : Bytes) : List Addition → Valuation
  | [] => v
  | a :: as =>
    match a.field.type.parse bs with
    | some (x, bs) => readTail (v.set a.field x) bs as
    | none => if a.leads then v else readTail v bs as

/-- A body read in one fixed order. -/
structure Form where
  /-- The variant of the event that the body gives. -/
  variant : Variant
  /-- What has to be there, in reading order. -/
  items : List Item
  /-- What may follow, in reading order. -/
  additions : List Addition

namespace Form

/-- The fields that may follow. -/
def tail (form : Form) : List Field :=
  form.additions.map Addition.field

/-- The values that a body gives to the fields. -/
def read (form : Form) (body : Bytes) : Option Valuation := do
  let (v, rest) ← Item.readAll Valuation.zero body form.items
  return readTail v rest form.additions

end Form

/-- A choice of forms. -/
abbrev Format : Type :=
  List Form

namespace Format

/-- The variant and the values that a body gives, by the first form that it has. -/
def read : Format → Bytes → Option (Variant × Valuation)
  | [], _ => none
  | form :: more, body =>
    match form.read body with
    | some v => some (form.variant, v)
    | none => read more body

/-- The format of a variant whose fields are read in a row. -/
def row (variant : Variant) (fields : List Field) : Format :=
  [⟨variant, Item.row fields, []⟩]

/-- The format of a variant whose fields are read in a row, with additions behind them. -/
def rowWithTail (variant : Variant) (fields : List Field) (additions : List Addition) : Format :=
  [⟨variant, Item.row fields, additions⟩]

end Format

/-- The byte string by which a program marks a kind of payload. -/
abbrev Tag : Type :=
  Fixed 8

/-- What follows a tag at the front of some bytes, if it stands there. -/
def Tag.body? (tag : Tag) (data : Bytes) : Option Bytes :=
  if data.take 8 = tag.bytes then some (data.drop 8) else none

end DexFeed
