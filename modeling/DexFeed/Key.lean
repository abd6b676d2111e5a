import DexFeed.Text.Base58

/-!
# Keys and signatures

Accounts and programs are named by 32-byte keys, transactions by 64-byte signatures, and payload
kinds by 8-byte tags. The zero key stands for "not filled in". A key has one base58 name, and
`Key.ofBase58?` accepts only names of exactly 32 bytes.
-/

namespace DexFeed

/-- The address of an account or of a program. -/
abbrev Key := Fixed 32

/-- The first signature of a transaction, which names it. -/
abbrev Signature := Fixed 64

namespace Key

/-- The key that stands for an account that is not known. -/
def zero : Key := Fixed.zero 32

/-- Whether a key is the zero key. -/
def isZero (k : Key) : Bool :=
  k.bytes.all (· == 0)

/-- The base58 name of a key. -/
def toBase58 (k : Key) : Bytes :=
  Base58.encode k.bytes

/-- The key that a base58 text names. -/
def ofBase58? (text : Bytes) : Option Key :=
  Base58.fixed? 32 text

/-- The first eight bytes as a number, a bucket for hash tables. -/
def bucket (k : Key) : UInt64 :=
  UInt64.ofNat (ofLittleEndian (k.bytes.take 8))

/-- A key is zero exactly when it is the zero key. -/
theorem isZero_iff (k : Key) : k.isZero = true ↔ k = zero := by
  obtain ⟨bytes, h⟩ := k
  simp only [isZero, List.all_eq_true, beq_iff_eq, zero, Fixed.zero, Fixed.mk.injEq]
  constructor
  · intro all
    exact List.eq_replicate_iff.2 ⟨h, all⟩
  · intro eq b hb
    exact (List.eq_replicate_iff.1 eq).2 b hb

end Key

/-- The base58 name of a signature. -/
def Signature.toBase58 (s : Signature) : Bytes :=
  Base58.encode s.bytes

end DexFeed
